import FakeData.Yaml.Cursor

/-!
# Block scalars

A block scalar has a header, which starts with `|` or `>`, and the indented lines below it.
Literal blocks keep their line breaks and folded blocks join lines by spaces. The header may give
the indentation, and says what becomes of the line breaks at the end.
-/
namespace FakeData.Yaml

/-- What becomes of the line breaks at the end of a block. -/
inductive Chomping where
  | strip
  | clip
  | keep
  deriving DecidableEq, Repr

/-- What the header of a block says. An indentation of zero is to be found out. -/
structure BlockHeader where
  literal : Bool
  chomping : Chomping
  indent : Nat
  deriving DecidableEq, Repr

namespace BlockHeader

def takeChomping : List Char → Option Chomping × List Char
  | '+' :: s => (some .keep, s)
  | '-' :: s => (some .strip, s)
  | s => (none, s)

def takeIndent : List Char → Nat × List Char
  | c :: s => if c.isDigit then (c.toNat - '0'.toNat, s) else (0, c :: s)
  | [] => (0, [])

def asksForZero : List Char → Bool
  | '0' :: _ => true
  | _ => false

/-- Reads the signs after the first one, in either order. -/
def takeSigns (s : List Char) : Option (Chomping × Nat × List Char) :=
  match takeChomping s with
  | (some chomping, s) =>
    if asksForZero s then none else some (chomping, (takeIndent s).1, (takeIndent s).2)
  | (none, s) =>
    if asksForZero s then none
    else
      let (indent, s) := takeIndent s
      if indent = 0 then some (.clip, 0, s)
      else
        let (chomping, s) := takeChomping s
        some (chomping.getD .clip, indent, s)

end BlockHeader

/-- The text after the rest of a header line, which may hold a comment. -/
def afterHeader (s : List Char) : Option (List Char) :=
  let s := s.dropWhile isBlank
  let s := if s.head? = some '#' then s.dropWhile (!isBreak ·) else s
  match s with
  | [] => some []
  | c :: s => if isBreak c then some s else none

/-- The widest indentation of the blank lines and of the first other line, unless a tab stands in
their indentation. -/
def widestIndent : Nat → Nat → List Char → Option Nat
  | widest, column, [] => some (max widest column)
  | widest, column, c :: s =>
    if c = ' ' then widestIndent widest (column + 1) s
    else if c = '\t' then none
    else if isBreak c then widestIndent (max widest column) 0 s
    else some (max widest column)

/-- What has been left open in the lines of a block: the line break after the last line with
text, the breaks of the blank lines since, and whether that line started with a blank. -/
structure Seam where
  last : List Char
  blank : List Char
  indented : Bool
  deriving DecidableEq, Repr

namespace Seam

def start : Seam := ⟨[], [], false⟩

def join (seam : Seam) (literal indented : Bool) : List Char :=
  if !literal && seam.last == ['\n'] && !seam.indented && !indented then
    if seam.blank = [] then [' '] else seam.blank
  else seam.last ++ seam.blank

def close (seam : Seam) : Chomping → List Char
  | .strip => []
  | .clip => seam.last
  | .keep => seam.last ++ seam.blank

end Seam

/-- Reads the lines of a block on, from inside a line or between two lines, up to the first line
that is not indented enough. A tab in the indentation is refused. -/
def blockFrom (header : BlockHeader) (indent : Nat) (inside : Bool) :
    Seam → List Char → Mark → Option (List Char × Cursor)
  | seam, [], mark => some (seam.close header.chomping, ⟨[], mark, true⟩)
  | seam, c :: s, mark =>
    if inside then
      if isBreak c then blockFrom header indent false ⟨[c], [], seam.indented⟩ s mark.down
      else
        (blockFrom header indent true seam s (mark.past c)).map fun (text, after) =>
          (c :: text, after)
    else if isBreak c then
      blockFrom header indent false { seam with blank := seam.blank ++ [c] } s mark.down
    else if mark.column < indent then
      if c = ' ' then blockFrom header indent false seam s (mark.past c)
      else if c = '\t' then none
      else some (seam.close header.chomping, ⟨c :: s, mark, true⟩)
    else
      (blockFrom header indent true ⟨[], [], isBlank c⟩ s (mark.past c)).map
        fun (text, after) => (seam.join header.literal (isBlank c) ++ c :: text, after)

/-- The indentation of the lines below a header, when they must be indented at least so far. -/
def BlockHeader.lineIndent (header : BlockHeader) (least : Nat) (s : List Char) : Option Nat :=
  if header.indent ≠ 0 then some (least - 1 + header.indent)
  else (widestIndent 0 0 s).map fun widest => max widest (max least 1)

def readBlock (least : Nat) (c : Cursor) : Option (List Char × Cursor) :=
  match c.rest with
  | [] => none
  | sign :: s =>
    (BlockHeader.takeSigns s).bind fun (chomping, digit, s) =>
      let header : BlockHeader := ⟨sign == '|', chomping, digit⟩
      (afterHeader s).bind fun lines =>
        (header.lineIndent least lines).bind fun indent =>
          blockFrom header indent false .start lines c.mark.down

end FakeData.Yaml
