/-!
# Characters of YAML texts

Which characters a text may hold, which are written as they are, and where lines and words end.
-/
namespace FakeData.Yaml

/-- The line breaks of a text in which the usual ones were made alike. -/
def isBreak (c : Char) : Bool := c == '\n' || c == '\u2028' || c == '\u2029'

def isBlank (c : Char) : Bool := c == ' ' || c == '\t'

def isReadable (c : Char) : Bool :=
  let n := c.toNat
  n == 0x9 || n == 0xA || n == 0xD || (0x20 ≤ n && n ≤ 0x7E) || n == 0x85 ||
    (0xA0 ≤ n && n ≤ 0xFFFD) || 0x10000 ≤ n

/-- Whether the character is written as it is. -/
def isPrintable (c : Char) : Bool :=
  let n := c.toNat
  n == 0xA || (0x20 ≤ n && n ≤ 0x7E) || (0xA0 ≤ n && n ≤ 0xFFFD && n != 0xFEFF) || 0x10000 ≤ n

def unifyBreaks : List Char → List Char
  | [] => []
  | '\r' :: '\n' :: s => '\n' :: unifyBreaks s
  | c :: s => (if c = '\r' ∨ c = '\u0085' then '\n' else c) :: unifyBreaks s

/-- Whether a blank, a line break or the end of the text comes next. -/
def wordEnds : List Char → Bool
  | [] => true
  | c :: _ => isBlank c || isBreak c

/-- Whether a line that begins like this separates documents. -/
def isSeparator : List Char → Bool
  | '-' :: '-' :: '-' :: s => wordEnds s
  | '.' :: '.' :: '.' :: s => wordEnds s
  | _ => false

end FakeData.Yaml
