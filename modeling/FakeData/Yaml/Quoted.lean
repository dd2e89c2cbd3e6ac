import FakeData.Number.Digits
import FakeData.Yaml.Cursor
import FakeData.Yaml.Gap

/-!
# Quoted scalars

Between single quotes a quote is written twice and nothing else is special. Between double quotes
a backslash starts an escape. In both kinds line breaks are folded.
-/
namespace FakeData.Yaml

def prepend (text : List Char) (read : Option (List Char × Cursor)) :
    Option (List Char × Cursor) :=
  read.map fun (more, after) => (text ++ more, after)

/-- Reads a scalar between single quotes on after a gap. -/
def singleFrom : Gap → List Char → Mark → Option (List Char × Cursor)
  | _, [], _ => none
  | gap, '\'' :: '\'' :: s, mark => prepend (gap.text ++ ['\'']) (singleFrom .none s (mark.right 2))
  | gap, c :: s, mark =>
    if mark.column == 0 && isSeparator (c :: s) then none
    else if c = '\'' then some (gap.text, ⟨s, mark.right 1, false⟩)
    else if isBreak c then singleFrom (gap.addBreak c) s mark.down
    else if isBlank c then singleFrom (gap.addBlank c) s (mark.past c)
    else prepend (gap.text ++ [c]) (singleFrom .none s (mark.past c))

/-! ## Escapes -/

def letterEscape? : Char → Option Char
  | '0' => some '\x00'
  | 'a' => some '\x07'
  | 'b' => some '\x08'
  | 't' => some '\t'
  | '\t' => some '\t'
  | 'n' => some '\n'
  | 'v' => some '\x0b'
  | 'f' => some '\x0c'
  | 'r' => some '\r'
  | 'e' => some '\x1b'
  | ' ' => some ' '
  | '"' => some '"'
  | '/' => some '/'
  | '\\' => some '\\'
  | 'N' => some '\u0085'
  | '_' => some '\u00a0'
  | 'L' => some '\u2028'
  | 'P' => some '\u2029'
  | _ => none

def codeLength? : Char → Option Nat
  | 'x' => some 2
  | 'u' => some 4
  | 'U' => some 8
  | _ => none

def hexNumber? : Nat → Nat → List Char → Option Nat
  | 0, value, _ => some value
  | _ + 1, _, [] => none
  | count + 1, value, c :: s =>
    (Number.digit? 16 c).bind fun d => hexNumber? count (value * 16 + d) s

def charOfCode? (code : Nat) : Option Char := if code.isValidChar then some (.ofNat code) else none

/-- The character that an escape stands for, with the number of characters after its letter. -/
def escape? (letter : Char) (s : List Char) : Option (Char × Nat) :=
  match letterEscape? letter with
  | some c => some (c, 0)
  | none =>
    (codeLength? letter).bind fun count =>
      ((hexNumber? count 0 s).bind charOfCode?).map (·, count)

/-- Reads a scalar between double quotes on after a gap. -/
def doubleFrom (gap : Gap) (s : List Char) (mark : Mark) : Option (List Char × Cursor) :=
  match s with
  | [] => none
  | c :: s =>
    if mark.column == 0 && isSeparator (c :: s) then none
    else if c = '"' then some (gap.text, ⟨s, mark.right 1, false⟩)
    else if isBreak c then doubleFrom (gap.addBreak c) s mark.down
    else if isBlank c then doubleFrom (gap.addBlank c) s (mark.past c)
    else if c = '\\' then
      match s with
      | [] => none
      | letter :: s =>
        if isBreak letter then prepend gap.text (doubleFrom (.joined []) s mark.down)
        else
          match escape? letter s with
          | none => none
          | some (c, count) =>
            prepend (gap.text ++ [c])
              (doubleFrom .none (s.drop count) (mark.right (count + 2)))
    else prepend (gap.text ++ [c]) (doubleFrom .none s (mark.past c))
termination_by s.length
decreasing_by all_goals simp_wf; try omega

def readQuoted (c : Cursor) : Option (List Char × Cursor) :=
  match c.rest with
  | '\'' :: s => singleFrom .none s (c.mark.right 1)
  | '"' :: s => doubleFrom .none s (c.mark.right 1)
  | _ => none

end FakeData.Yaml
