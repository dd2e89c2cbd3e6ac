import FakeData.Yaml.Character
import FakeData.Yaml.Mark

/-!
# Places in a YAML text

A cursor holds the text that is still to be read and the mark where it begins. It also says whether
a new key or a new item may start there.
-/
namespace FakeData.Yaml

structure Cursor where
  rest : List Char
  mark : Mark
  fresh : Bool
  deriving DecidableEq, Repr

namespace Cursor

def ofText (text : List Char) : Cursor := ⟨text, .start, true⟩

def pass (c : Cursor) (count : Nat) (fresh : Bool) : Cursor :=
  ⟨c.rest.drop count, c.mark.right count, fresh⟩

/-- Skips blanks, comments and line breaks. A tab is no indentation, so it is skipped only inside
brackets or where no key may start. A line may start with a byte order mark. -/
def skipFrom (bracketed comment fresh : Bool) : List Char → Mark → Cursor
  | [], mark => ⟨[], mark, fresh⟩
  | c :: s, mark =>
    if isBreak c then skipFrom bracketed false (fresh || !bracketed) s mark.down
    else if comment || c = '#' then skipFrom bracketed true fresh s (mark.past c)
    else if c = ' ' || (c = '\t' && (bracketed || !fresh)) then
      skipFrom bracketed false fresh s (mark.past c)
    else if c = '\ufeff' && mark.column == 0 then
      skipFrom bracketed false fresh s (mark.past c)
    else ⟨c :: s, mark, fresh⟩

def skip (bracketed : Bool) (c : Cursor) : Cursor :=
  skipFrom bracketed false c.fresh c.rest c.mark

end Cursor

end FakeData.Yaml
