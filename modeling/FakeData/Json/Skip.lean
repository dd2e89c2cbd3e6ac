import FakeData.Json.Reader

/-!
# Passing over JSON values

A value that nobody asks for is only checked to be written properly. It may be nested to any
depth, its numbers need not fit a machine word, and its escapes need not spell characters.
-/
namespace FakeData.Json

def skipEscape : List Char → Except Fault (List Char)
  | [] => .error (.here .endInString [])
  | letter :: s =>
    if (shortEscape? letter).isSome then .ok s
    else if letter = 'u' then (hexQuad s).map fun _ => s.drop 4
    else .error (.peek .invalidEscape (letter :: s))

/-- Passes over a string up to its closing quote. `fuel` bounds the number of characters. -/
def skipString : Nat → List Char → Except Fault (List Char)
  | 0, s => .error (.here .endInString s)
  | _ + 1, [] => .error (.here .endInString [])
  | fuel + 1, c :: s =>
    if c = '"' then .ok s
    else if c.toNat < 0x20 then .error (.here .controlCharacter (c :: s))
    else if c = '\\' then
      match skipEscape s with
      | .error fault => .error fault
      | .ok s => skipString fuel s
    else skipString fuel s

def skipExponent (s : List Char) : Except Fault (List Char) :=
  let s :=
    match s with
    | '+' :: s => s
    | '-' :: s => s
    | s => s
  match s with
  | [] => .error (.here .invalidNumber [])
  | c :: s =>
    if c.isDigit then .ok (s.dropWhile Char.isDigit) else .error (.peek .invalidNumber (c :: s))

def skipAfterFraction : List Char → Except Fault (List Char)
  | [] => .ok []
  | c :: s => if c = 'e' ∨ c = 'E' then skipExponent s else .ok (c :: s)

def skipAfterWhole : List Char → Except Fault (List Char)
  | '.' :: s =>
    match s with
    | [] => .error (.peek .invalidNumber [])
    | c :: s =>
      if c.isDigit then skipAfterFraction (s.dropWhile Char.isDigit)
      else .error (.peek .invalidNumber (c :: s))
  | s => skipAfterFraction s

def skipNumber : List Char → Except Fault (List Char)
  | [] => .error (.here .invalidNumber [])
  | c :: s =>
    if c = '0' then
      match s with
      | [] => .ok []
      | next :: s =>
        if next.isDigit then .error (.peek .invalidNumber (next :: s))
        else skipAfterWhole (next :: s)
    else if c.isDigit then skipAfterWhole (s.dropWhile Char.isDigit)
    else .error (.peek .invalidNumber (c :: s))

def skipScalar : List Char → Except Fault (List Char)
  | [] => .error (.peek .endInValue [])
  | c :: s =>
    if c = 'n' then (readWord ['u', 'l', 'l'] s).map (·.2)
    else if c = 't' then (readWord ['r', 'u', 'e'] s).map (·.2)
    else if c = 'f' then (readWord ['a', 'l', 's', 'e'] s).map (·.2)
    else if c = '"' then skipString (s.length + 1) s
    else if c = '-' then skipNumber s
    else if c.isDigit then skipNumber (c :: s)
    else .error (.peek .expectedValue (c :: s))

def skipKey (s : List Char) : Except Fault (List Char) :=
  match skipSpace s with
  | [] => .error (.peek .endInObject [])
  | c :: s =>
    if c ≠ '"' then .error (.peek .keyNotString (c :: s))
    else
      match skipString (s.length + 1) s with
      | .error fault => .error fault
      | .ok s =>
        match skipSpace s with
        | [] => .error (.peek .endInObject [])
        | c :: s => if c = ':' then .ok s else .error (.peek .expectedColon (c :: s))

/-- Passes over closing brackets, and over the comma after a value unless none was read yet.
Gives the lists and objects that are still open, the innermost first. -/
def skipClosers (afterValue : Bool) :
    List Enclosure → List Char → Except Fault (List Enclosure × List Char)
  | [], s => .ok ([], s)
  | e :: outer, s =>
    match skipSpace s with
    | [] => .error (.peek e.atEnd [])
    | c :: s =>
      if c = ',' ∧ afterValue then .ok (e :: outer, s)
      else if c = e.close then skipClosers true outer s
      else if afterValue then .error (.peek e.expected (c :: s))
      else .ok (e :: outer, c :: s)

/-- Passes over a value, and then over all that is left of the lists and objects around it.
`fuel` bounds the number of values. -/
def skipValues : Nat → List Enclosure → List Char → Except Fault (List Char)
  | 0, _, s => .error (.peek .endInValue s)
  | fuel + 1, outer, s =>
    match skipSpace s with
    | [] => .error (.peek .endInValue [])
    | c :: s =>
      let closed :=
        if c = '[' then skipClosers false (.list :: outer) s
        else if c = '{' then skipClosers false (.object :: outer) s
        else
          match skipScalar (c :: s) with
          | .error fault => .error fault
          | .ok s => skipClosers true outer s
      match closed with
      | .error fault => .error fault
      | .ok ([], s) => .ok s
      | .ok (e :: outer, s) =>
        if e = .object then
          match skipKey s with
          | .error fault => .error fault
          | .ok s => skipValues fuel (e :: outer) s
        else skipValues fuel (e :: outer) s

def skipValue (s : List Char) : Except Fault (List Char) := skipValues (s.length + 1) [] s

end FakeData.Json
