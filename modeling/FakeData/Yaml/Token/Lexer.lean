import FakeData.Yaml.Block
import FakeData.Yaml.Plain
import FakeData.Yaml.Quoted
import FakeData.Yaml.Token

/-!
# Tokens of YAML texts

The tokens of a text are made one after another. Only a colon tells that the token before it is a
key, so the place of each token that may turn out to be one is kept until a colon comes or can no
longer come. A text that breaks the rules still has tokens: those before the place where it does
and before all kept places. Their list ends without an end of the text.

Anchors, aliases, tags and directives are not known here: a text with one of them is taken to break
the rules where it stands.
-/
namespace FakeData.Yaml

/-- A token that may turn out to be a key: where it starts, how many tokens stand before it, and
whether it must be a key because of its indentation. -/
structure Candidate where
  mark : Mark
  before : Nat
  required : Bool
  deriving DecidableEq, Repr

namespace Candidate

/-- The longest key, in bytes. -/
def maxLength : Nat := 1024

/-- Whether a colon at the mark comes too late. A key and its colon stand on one line. -/
def isStale (mark : Mark) (candidate : Candidate) : Bool :=
  candidate.mark.line < mark.line || candidate.mark.offset + maxLength < mark.offset

end Candidate

/-- The tokens up to some place, and what is open there. -/
structure Lexer where
  cursor : Cursor
  /-- The columns of the open blocks, the innermost first. -/
  indents : List Nat
  /-- The last token within the innermost brackets that may be a key. -/
  candidate : Option Candidate
  /-- The same around each of the open brackets, from the inside. -/
  outer : List (Option Candidate)
  /-- The tokens, the last one first. -/
  tokens : List Token
  count : Nat
  deriving DecidableEq, Repr

namespace Lexer

def ofText (text : List Char) : Lexer := ⟨.ofText text, [], none, [], [], 0⟩

def mark (l : Lexer) : Mark := l.cursor.mark

def isBracketed (l : Lexer) : Bool := !l.outer.isEmpty

/-- How far the parts of the innermost block must be indented. -/
def partIndent (l : Lexer) : Nat :=
  match l.indents with
  | [] => 0
  | column :: _ => column + 1

def isDone (l : Lexer) : Bool := l.tokens.head?.any (·.kind == .textEnd)

/-! ## Adding tokens -/

/-- Adds a token without characters. -/
def addEmpty (l : Lexer) (kind : TokenKind) : Lexer :=
  { l with tokens := ⟨kind, l.mark, l.mark⟩ :: l.tokens, count := l.count + 1 }

def addTo (l : Lexer) (kind : TokenKind) (after : Cursor) : Lexer :=
  { l with
    cursor := after
    tokens := ⟨kind, l.mark, after.mark⟩ :: l.tokens
    count := l.count + 1 }

/-- Adds a sign of so many characters, and says whether a key may start after it. -/
def addSign (l : Lexer) (kind : TokenKind) (length : Nat) (fresh : Bool) : Lexer :=
  l.addTo kind (l.cursor.pass length fresh)

/-- Inserts a token without characters before the token of a candidate. -/
def insert (l : Lexer) (kind : TokenKind) (candidate : Candidate) : Lexer :=
  let later := l.count - candidate.before
  { l with
    tokens := l.tokens.take later ++ ⟨kind, candidate.mark, candidate.mark⟩ :: l.tokens.drop later
    count := l.count + 1 }

/-! ## Candidates -/

def candidates (l : Lexer) : List Candidate := (l.candidate :: l.outer).filterMap id

/-- Gives up the candidates for which it is too late. A required key must not be among them. -/
def dropStale (l : Lexer) : Option Lexer :=
  let stale := Candidate.isStale l.mark
  if l.candidates.any fun candidate => candidate.required && stale candidate then none
  else
    some { l with
      candidate := l.candidate.filter (!stale ·)
      outer := l.outer.map (·.filter (!stale ·)) }

/-- Gives up the candidate within the innermost brackets. It must not be a required key. -/
def dropCandidate (l : Lexer) : Option Lexer :=
  if l.candidate.any (·.required) then none else some { l with candidate := none }

/-- Makes the next token a candidate if a key may start here. -/
def offer (l : Lexer) : Option Lexer :=
  if l.cursor.fresh then
    let required := !l.isBracketed && l.indents.head? == some l.mark.column
    l.dropCandidate.map fun l => { l with candidate := some ⟨l.mark, l.count, required⟩ }
  else some l

/-- The tokens in their order, up to the first one that may still be a key. -/
def settled (l : Lexer) : List Token :=
  let first := l.candidates.foldl (fun least candidate => min least candidate.before) l.count
  (l.tokens.drop (l.count - first)).reverse

/-! ## Blocks -/

/-- Ends the blocks whose columns satisfy a condition, from the inside. -/
def close (l : Lexer) (ends : Nat → Bool) : Lexer :=
  if l.isBracketed then l
  else
    let ended := (l.indents.takeWhile ends).map fun _ => (⟨.blockEnd, l.mark, l.mark⟩ : Token)
    { l with
      indents := l.indents.dropWhile ends
      tokens := ended ++ l.tokens
      count := l.count + ended.length }

def startsBlock (l : Lexer) (column : Nat) : Bool :=
  !l.isBracketed && l.indents.head?.all (· < column)

/-- Starts a block here, unless one goes on. Inside brackets there are no blocks, and outside them
a part of a block may start only where a key may. -/
def openBlock (l : Lexer) (kind : TokenKind) : Option Lexer :=
  if l.isBracketed then some l
  else if !l.cursor.fresh then none
  else if l.startsBlock l.mark.column then
    some ({ l with indents := l.mark.column :: l.indents }.addEmpty kind)
  else some l

/-- Makes a candidate the first or a further key of a block, or a key between brackets. -/
def makeKey (l : Lexer) (candidate : Candidate) : Lexer :=
  let l := { l.insert .key candidate with candidate := none }
  if l.startsBlock candidate.mark.column then
    { l with indents := candidate.mark.column :: l.indents }.insert .blockMapping candidate
  else l

/-! ## The kinds of tokens -/

def lexEnd (l : Lexer) : Option Lexer :=
  let mark := if l.mark.column = 0 then l.mark else l.mark.down
  let l := { l with cursor := ⟨[], mark, false⟩ }
  (l.close fun _ => true).dropCandidate.map (·.addEmpty .textEnd)

def lexSeparator (l : Lexer) (kind : TokenKind) : Option Lexer :=
  (l.close fun _ => true).dropCandidate.map (·.addSign kind 3 false)

def lexOpening (l : Lexer) (bracket : Bracket) : Option Lexer :=
  l.offer.map fun l =>
    { l.addSign (.opening bracket) 1 true with candidate := none, outer := l.candidate :: l.outer }

def lexClosing (l : Lexer) (bracket : Bracket) : Option Lexer :=
  l.dropCandidate.map fun l =>
    let l := l.addSign (.closing bracket) 1 false
    match l.outer with
    | [] => l
    | candidate :: outer => { l with candidate, outer }

def lexComma (l : Lexer) : Option Lexer := l.dropCandidate.map (·.addSign .comma 1 true)

def lexDash (l : Lexer) : Option Lexer :=
  (l.openBlock .blockSequence).bind fun l => l.dropCandidate.map (·.addSign .dash 1 true)

def lexQuestion (l : Lexer) : Option Lexer :=
  (l.openBlock .blockMapping).bind fun l =>
    l.dropCandidate.map fun l => l.addSign .key 1 (!l.isBracketed)

/-- A colon after a candidate or after a key with a question mark. -/
def lexColon (l : Lexer) : Option Lexer :=
  match l.candidate with
  | some candidate => some ((l.makeKey candidate).addSign .value 1 false)
  | none => (l.openBlock .blockMapping).map fun l => l.addSign .value 1 (!l.isBracketed)

def addScalar (l : Lexer) (plain : Bool) (read : Option (List Char × Cursor)) : Option Lexer :=
  read.map fun (text, after) => l.addTo (.scalar plain (.ofList text)) after

def lexPlain (l : Lexer) : Option Lexer :=
  l.offer.bind fun l => l.addScalar true (readPlain l.isBracketed l.partIndent l.cursor)

def lexQuoted (l : Lexer) : Option Lexer :=
  l.offer.bind fun l => l.addScalar false (readQuoted l.cursor)

def lexBlock (l : Lexer) : Option Lexer :=
  l.dropCandidate.bind fun l => l.addScalar false (readBlock l.partIndent l.cursor)

/-! ## Texts -/

def lexFrom (l : Lexer) (c : Char) (s : List Char) : Option Lexer :=
  if l.mark.column = 0 ∧ c = '%' then none
  else if l.mark.column = 0 ∧ isSeparator (c :: s) then
    l.lexSeparator (if c = '-' then .documentStart else .documentEnd)
  else if c = '[' then l.lexOpening .square
  else if c = '{' then l.lexOpening .curly
  else if c = ']' then l.lexClosing .square
  else if c = '}' then l.lexClosing .curly
  else if c = ',' then l.lexComma
  else if c = '-' ∧ wordEnds s then l.lexDash
  else if c = '?' ∧ (l.isBracketed || wordEnds s) then l.lexQuestion
  else if c = ':' ∧ (l.isBracketed || wordEnds s) then l.lexColon
  else if (c = '|' ∨ c = '>') ∧ !l.isBracketed then l.lexBlock
  else if c = '\'' ∨ c = '"' then l.lexQuoted
  else if startsPlain l.isBracketed (c :: s) then l.lexPlain
  else none

/-- Makes the next token, and the ends of the blocks before it. -/
def next (l : Lexer) : Option Lexer :=
  { l with cursor := l.cursor.skip l.isBracketed }.dropStale.bind fun l =>
    let made :=
      match l.cursor.rest with
      | [] => l.lexEnd
      | c :: s => (l.close (l.mark.column < ·)).lexFrom c s
    made.bind dropStale

/-- Makes tokens to the end of the text, or as far as its rules are kept. -/
def run : Nat → Lexer → List Token
  | 0, l => l.settled
  | fuel + 1, l =>
    if l.isDone then l.settled
    else
      match l.next with
      | none => l.settled
      | some l => run fuel l

end Lexer

/-- The tokens of a text. Each takes at least one character, except for the end. -/
def tokensOf (text : List Char) : List Token := Lexer.run (text.length + 2) (.ofText text)

end FakeData.Yaml
