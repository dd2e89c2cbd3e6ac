import FakeData.Yaml.Meaning
import FakeData.Yaml.Plain

/-!
# Writing YAML scalars

The value of a key at the beginning of a line. A text is written without quotes where that gives
the same text back, and otherwise between single quotes, between double quotes, or as a literal
block if it has several lines.
-/
namespace FakeData.Yaml

inductive Style where
  | plain
  | single
  | double
  | literal
  deriving DecidableEq, Repr

/-! ## Which styles are safe -/

def hasPair (first second : Char → Bool) : List Char → Bool
  | a :: b :: s => (first a && second b) || hasPair first second (b :: s)
  | _ => false

/-- Whether a colon that ends a word or a number sign that starts one follows a character. -/
def hasInnerSign : List Char → Bool
  | a :: b :: s =>
    (b == ':' && wordEnds s) || (b == '#' && (isBlank a || isBreak a)) || hasInnerSign (b :: s)
  | _ => false

def startsLikeOther : List Char → Bool
  | [] => false
  | '-' :: '-' :: '-' :: _ => true
  | '.' :: '.' :: '.' :: _ => true
  | c :: s => isIndicator c || ((c == '?' || c == ':' || c == '-') && wordEnds s)

/-- Whether something at the ends of a text would be lost without quotes. -/
def hasLooseEnd (s : List Char) : Bool :=
  let loose (edge : Option Char) : Bool := edge.any fun c => c == ' ' || isBreak c
  loose s.head? || loose s.getLast?

/-- Whether the characters allow any style without escapes. -/
def isSimple (s : List Char) : Bool := s.all isPrintable && !hasPair (· == ' ') isBreak s

def allowsPlain (s : List Char) : Bool :=
  isSimple s && !s.any isBreak && !hasLooseEnd s && !startsLikeOther s && !hasInnerSign s

def allowsSingle (s : List Char) : Bool := isSimple s && !hasPair isBreak (· == ' ') s

def allowsLiteral (s : List Char) : Bool := isSimple s && s.getLast? != some ' '

/-- The number sign aside, whether the text is a row of digits with a needless zero. -/
def looksNumeric : List Char → Bool
  | '+' :: s => hasNeedlessZero s
  | '-' :: s => hasNeedlessZero s
  | s => hasNeedlessZero s

/-- Whether the text would not be taken for itself without quotes. -/
def needsQuotes (text : String) : Bool :=
  meaning text != .text || looksNumeric text.toList

def styleOf (text : String) : Style :=
  let s := text.toList
  let quoted : Style := if allowsSingle s then .single else .double
  if s.contains '\n' then if allowsLiteral s then .literal else .double
  else if needsQuotes text then quoted
  else if allowsPlain s then .plain
  else quoted

/-! ## Quoted scalars -/

/-- The text between single quotes. A line after a break is indented. -/
def singleBody : Bool → List Char → List Char
  | broken, [] => if broken then [' ', ' '] else []
  | broken, c :: s =>
    if isBreak c then c :: singleBody true s
    else
      (if broken then [' ', ' '] else []) ++ (if c = '\'' then ['\'', '\''] else [c]) ++
        singleBody false s

def escapeLetter? : Char → Option Char
  | '\x00' => some '0'
  | '\x07' => some 'a'
  | '\x08' => some 'b'
  | '\t' => some 't'
  | '\n' => some 'n'
  | '\x0b' => some 'v'
  | '\x0c' => some 'f'
  | '\r' => some 'r'
  | '\x1b' => some 'e'
  | '"' => some '"'
  | '\\' => some '\\'
  | '\u0085' => some 'N'
  | '\u2028' => some 'L'
  | '\u2029' => some 'P'
  | _ => none

/-- So many hexadecimal digits of a number, in capitals. -/
def hexDigits : Nat → Nat → List Char
  | 0, _ => []
  | count + 1, n => hexDigits count (n / 16) ++ [(Nat.digitChar (n % 16)).toUpper]

def escapeChar (c : Char) : List Char :=
  match escapeLetter? c with
  | some letter => ['\\', letter]
  | none =>
    if c.toNat < 0x100 then '\\' :: 'x' :: hexDigits 2 c.toNat
    else if c.toNat < 0x10000 then '\\' :: 'u' :: hexDigits 4 c.toNat
    else '\\' :: 'U' :: hexDigits 8 c.toNat

def doubleBody (s : List Char) : List Char :=
  s.flatMap fun c =>
    if !isPrintable c || isBreak c || c == '"' || c == '\\' then escapeChar c else [c]

/-! ## Literal blocks -/

/-- The signs after the bar: the indentation if the text does not show it, and what becomes of the
line breaks at the end. -/
def literalSigns (s : List Char) : List Char :=
  let indent := if s.head?.any fun c => c == ' ' || isBreak c then ['2'] else []
  let chomping :=
    match s.reverse with
    | [] => ['-']
    | [c] => if isBreak c then ['+'] else ['-']
    | c :: d :: _ => if !isBreak c then ['-'] else if isBreak d then ['+'] else []
  indent ++ chomping

/-- The lines of a block, each indented unless it is empty. -/
def literalLines : Bool → List Char → List Char
  | atStart, [] => if atStart then [] else ['\n']
  | atStart, c :: s =>
    if isBreak c then c :: literalLines true s
    else (if atStart then [' ', ' ', c] else [c]) ++ literalLines false s

/-! ## Records -/

def writeIn (style : Style) (s : List Char) : List Char :=
  match style with
  | .plain => s ++ ['\n']
  | .single => '\'' :: singleBody false s ++ ['\'', '\n']
  | .double => '"' :: doubleBody s ++ ['"', '\n']
  | .literal => '|' :: literalSigns s ++ '\n' :: literalLines true s

def writeText (text : String) : List Char := writeIn (styleOf text) text.toList

def writeField (name : String) (value : List Char) : List Char :=
  name.toList ++ ':' :: ' ' :: value

def writeNothing : List Char := "null\n".toList

end FakeData.Yaml
