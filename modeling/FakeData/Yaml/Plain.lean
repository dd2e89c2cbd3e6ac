import FakeData.Yaml.Cursor
import FakeData.Yaml.Gap

/-!
# Plain scalars

A plain scalar is written without quotes. It ends before a colon that ends a word, before a
comment, at a line that is not indented enough, and inside brackets before any of their signs.
-/
namespace FakeData.Yaml

def isBracketSign (c : Char) : Bool := c == ',' || c == '[' || c == ']' || c == '{' || c == '}'

/-- The signs with which a plain scalar cannot start. -/
def isIndicator (c : Char) : Bool :=
  isBracketSign c || c == '#' || c == '&' || c == '*' || c == '!' || c == '|' || c == '>' ||
    c == '\'' || c == '"' || c == '%' || c == '@' || c == '\x60'

def startsPlain (bracketed : Bool) : List Char → Bool
  | [] => false
  | c :: s =>
    if c = '-' then !wordEnds s
    else if c = '?' ∨ c = ':' then !bracketed && !wordEnds s
    else !(isIndicator c || isBlank c || isBreak c)

/-- Whether a colon that stands before the text may not belong to a plain scalar. -/
def refusesColon : List Char → Bool
  | [] => false
  | c :: _ => isBracketSign c || c == '?'

/-- Whether a plain scalar ends before a character, and the text after it. -/
def endsPlain (bracketed : Bool) (indent : Nat) (gap : Gap) (mark : Mark) (c : Char)
    (s : List Char) : Bool :=
  (gap.isBroken && !bracketed && mark.column < indent) ||
    (mark.column == 0 && isSeparator (c :: s)) || (gap != .none && c == '#') ||
    (c == ':' && wordEnds s) || (bracketed && isBracketSign c)

/-- Reads a plain scalar on after a gap. The cursor stands after the white space that follows. -/
def plainFrom (bracketed : Bool) (indent : Nat) :
    Gap → List Char → Mark → Option (List Char × Cursor)
  | gap, [], mark => some ([], ⟨[], mark, gap.isBroken⟩)
  | gap, c :: s, mark =>
    if isBreak c then plainFrom bracketed indent (gap.addBreak c) s mark.down
    else if isBlank c then
      if gap.isBroken && c == '\t' && mark.column < indent then none
      else plainFrom bracketed indent (gap.addBlank c) s (mark.past c)
    else if endsPlain bracketed indent gap mark c s then
      some ([], ⟨c :: s, mark, gap.isBroken⟩)
    else if bracketed && c == ':' && refusesColon s then none
    else
      (plainFrom bracketed indent .none s (mark.past c)).map fun (text, after) =>
        (gap.text ++ c :: text, after)

/-- Reads a plain scalar that starts here. Its further lines must be indented so far. -/
def readPlain (bracketed : Bool) (indent : Nat) (c : Cursor) : Option (List Char × Cursor) :=
  plainFrom bracketed indent .none c.rest c.mark

end FakeData.Yaml
