import FakeData.Text.Hidden

/-!
# Quoted text in messages

How a text appears inside a message: between double quotes, with a backslash before quotes and
backslashes, short names for the usual controls, and the code point of every hidden character.
-/
namespace FakeData.Text

def codePointEscape (c : Char) : List Char :=
  "\\u\x7b".toList ++ Nat.toDigits 16 c.toNat ++ ['}']

def quoteChar (c : Char) : List Char :=
  match c with
  | '"' => ['\\', '"']
  | '\\' => ['\\', '\\']
  | '\n' => ['\\', 'n']
  | '\r' => ['\\', 'r']
  | '\t' => ['\\', 't']
  | '\x00' => ['\\', '0']
  | c => if isHidden c then codePointEscape c else [c]

def quote (text : String) : String :=
  .ofList ('"' :: text.toList.flatMap quoteChar ++ ['"'])

end FakeData.Text
