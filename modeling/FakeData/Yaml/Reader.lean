import FakeData.Yaml.Node
import FakeData.Yaml.Token.Lexer

/-!
# Reading YAML texts

Nodes are read from tokens. Readers give a node and the tokens after it, or a node that is broken
somewhere and no tokens. `fuel` bounds the depth of their calls, of which there are at most three
for each token.
-/
namespace FakeData.Yaml

/-- A node or a part of one, and the tokens after it unless it is broken. -/
abbrev Parsed (α : Type) := α × Option (List Token)

def brokenNode : Parsed Node := (.broken, none)

def brokenItems : Parsed (List Node) := ([.broken], none)

def brokenEntries : Parsed (List (Node × Node)) := ([(.broken, .broken)], none)

/-- Goes on with further parts after one part, if it is not broken. -/
def Parsed.cons {α : Type} (part : Parsed α) (further : List Token → Parsed (List α)) :
    Parsed (List α) :=
  match part with
  | (part, none) => ([part], none)
  | (part, some after) => (part :: (further after).1, (further after).2)

def Parsed.entry (key : Parsed Node) (value : List Token → Parsed Node) : Parsed (Node × Node) :=
  match key with
  | (key, none) => ((key, .broken), none)
  | (key, some after) => ((key, (value after).1), (value after).2)

def Parsed.gather {α : Type} (parts : Parsed α) (node : α → Node) : Parsed Node :=
  (node parts.1, parts.2)

/-! ## Surroundings -/

/-- What a node stands in, which decides how it may be laid out. -/
inductive Surroundings where
  /-- A list between square brackets. -/
  | square
  /-- A mapping between curly brackets. -/
  | curly
  /-- A document, or a sequence whose items have dashes. -/
  | block
  /-- A mapping whose keys are indented equally, or a sequence with dashes among those keys. -/
  | entry
  deriving DecidableEq, Repr

namespace Surroundings

/-- Whether a node may be laid out by indentation. -/
def allowsBlocks : Surroundings → Bool
  | .square | .curly => false
  | .block | .entry => true

/-- Whether a token comes after a value or an item that is left out. -/
def endsValue (surroundings : Surroundings) (kind : TokenKind) : Bool :=
  match surroundings with
  | .square => kind == .comma || kind == .closing .square
  | .curly => kind == .comma || kind == .closing .curly
  | .block => kind == .blockEnd
  | .entry => kind == .key || kind == .value || kind == .blockEnd

def endsKey (surroundings : Surroundings) (kind : TokenKind) : Bool :=
  kind == .value || surroundings.endsValue kind

/-- Where a node is said to be that is left out after one token and before another. -/
def emptyMark (surroundings : Surroundings) (before after : Token) : Mark :=
  if surroundings.allowsBlocks then before.stop else after.start

/-- Reads a node unless it is left out after a token. -/
def readOptional (surroundings : Surroundings) (ends : TokenKind → Bool) (before : Token)
    (read : List Token → Parsed Node) : List Token → Parsed Node
  | [] => brokenNode
  | token :: tokens =>
    if ends token.kind then (.empty (surroundings.emptyMark before token), some (token :: tokens))
    else read (token :: tokens)

/-- Reads the value of an entry after its key. The colon may be left out too. -/
def readValue (surroundings : Surroundings) (read : List Token → Parsed Node) :
    List Token → Parsed Node
  | [] => brokenNode
  | token :: tokens =>
    if token.kind = .value then
      surroundings.readOptional surroundings.endsValue token read tokens
    else (.empty token.start, some (token :: tokens))

def readEntry (surroundings : Surroundings) (sign : Token) (read : List Token → Parsed Node)
    (tokens : List Token) : Parsed (Node × Node) :=
  Parsed.entry (surroundings.readOptional surroundings.endsKey sign read tokens)
    (surroundings.readValue read)

end Surroundings

open Surroundings

/-- Reads the only entry of a mapping without brackets in a list. The sign that comes after a key
that is left out is passed over. -/
def readListEntry (sign : Token) (read : List Token → Parsed Node) :
    List Token → Parsed (Node × Node)
  | [] => ((.broken, .broken), none)
  | token :: tokens =>
    if square.endsKey token.kind then
      Parsed.entry (.empty token.stop, some tokens) (square.readValue read)
    else square.readEntry sign read (token :: tokens)

/-! ## Nodes between brackets -/

def passComma (first : Bool) (tokens : List Token) : Option (List Token) :=
  if first then some tokens
  else
    match tokens with
    | ⟨.comma, _, _⟩ :: tokens => some tokens
    | _ => none

/-- Reads up to the next part between brackets. Without one, the closing bracket was read. -/
def nextPart (bracket : Bracket) (first : Bool) (tokens : List Token) :
    Option (Bool × List Token) :=
  match tokens with
  | [] => none
  | token :: after =>
    if token.kind = .closing bracket then some (false, after)
    else
      match passComma first tokens with
      | none | some [] => none
      | some (token :: after) =>
        if token.kind = .closing bracket then some (false, after) else some (true, token :: after)

/-! ## All nodes -/

mutual

def readNode (surroundings : Surroundings) : Nat → List Token → Parsed Node
  | 0, _ => brokenNode
  | _, [] => brokenNode
  | fuel + 1, token :: tokens =>
    match token.kind with
    | .scalar plain text => (.scalar token.start plain text, some tokens)
    | .opening .square => (readItems true fuel tokens).gather (.sequence token.start)
    | .opening .curly => (readMembers true fuel tokens).gather (.mapping token.start)
    | .blockSequence =>
      if surroundings.allowsBlocks then
        (readDashes .block fuel tokens).gather (.sequence token.start)
      else brokenNode
    | .blockMapping =>
      if surroundings.allowsBlocks then (readPairs fuel tokens).gather (.mapping token.start)
      else brokenNode
    | .dash =>
      if surroundings = .entry then
        (readDashes .entry fuel (token :: tokens)).gather (.sequence token.start)
      else brokenNode
    | _ => brokenNode
termination_by structural fuel => fuel

def readItems (first : Bool) : Nat → List Token → Parsed (List Node)
  | 0, _ => brokenItems
  | fuel + 1, tokens =>
    match nextPart .square first tokens with
    | none => brokenItems
    | some (false, tokens) => ([], some tokens)
    | some (true, tokens) => (readItem fuel tokens).cons (readItems false fuel)
termination_by structural fuel => fuel

/-- Reads an item of a list. It may be a single entry. -/
def readItem : Nat → List Token → Parsed Node
  | 0, _ => brokenNode
  | _, [] => brokenNode
  | fuel + 1, token :: tokens =>
    if token.kind = .key then
      (readListEntry token (readNode .square fuel) tokens).gather (.mapping token.start [·])
    else readNode .square fuel (token :: tokens)
termination_by structural fuel => fuel

def readMembers (first : Bool) : Nat → List Token → Parsed (List (Node × Node))
  | 0, _ => brokenEntries
  | fuel + 1, tokens =>
    match nextPart .curly first tokens with
    | none => brokenEntries
    | some (false, tokens) => ([], some tokens)
    | some (true, tokens) => (readMember fuel tokens).cons (readMembers false fuel)
termination_by structural fuel => fuel

/-- Reads an entry of a mapping between brackets. Its value may be left out. -/
def readMember : Nat → List Token → Parsed (Node × Node)
  | 0, _ => ((.broken, .broken), none)
  | _, [] => ((.broken, .broken), none)
  | fuel + 1, token :: tokens =>
    if token.kind = .key then curly.readEntry token (readNode .curly fuel) tokens
    else
      Parsed.entry (readNode .curly fuel (token :: tokens)) fun
        | [] => brokenNode
        | token :: tokens => (.empty token.start, some (token :: tokens))
termination_by structural fuel => fuel

/-- Reads the items of a sequence with dashes. Among the keys of a mapping it has no end of its
own. -/
def readDashes (surroundings : Surroundings) : Nat → List Token → Parsed (List Node)
  | 0, _ => brokenItems
  | _, [] => brokenItems
  | fuel + 1, token :: tokens =>
    if token.kind = .dash then
      (surroundings.readOptional (fun kind => kind = .dash || surroundings.endsValue kind) token
        (readNode .block fuel) tokens).cons (readDashes surroundings fuel)
    else if surroundings = .entry then ([], some (token :: tokens))
    else if token.kind = .blockEnd then ([], some tokens)
    else brokenItems
termination_by structural fuel => fuel

/-- Reads the entries of a mapping whose keys are indented equally. -/
def readPairs : Nat → List Token → Parsed (List (Node × Node))
  | 0, _ => brokenEntries
  | _, [] => brokenEntries
  | fuel + 1, token :: tokens =>
    if token.kind = .key then
      (Surroundings.entry.readEntry token (readNode .entry fuel) tokens).cons (readPairs fuel)
    else if token.kind = .blockEnd then ([], some tokens)
    else brokenEntries
termination_by structural fuel => fuel

end

/-! ## Documents -/

/-- Whether nothing follows a document but the marks of its end. -/
def endsAfter (tokens : List Token) : Bool :=
  (tokens.dropWhile (·.kind == .documentEnd)).head?.any (·.kind == .textEnd)

def readRoot (tokens : List Token) : Document :=
  match readNode .block (3 * tokens.length + 3) tokens with
  | (root, none) => ⟨root, false⟩
  | (root, some after) => ⟨root, endsAfter after⟩

/-- Whether a token comes after a root that is left out. -/
def TokenKind.endsDocument (kind : TokenKind) : Bool :=
  kind == .documentStart || kind == .documentEnd || kind == .textEnd

/-- Reads the root after three dashes. It may be left out. -/
def readMarked : List Token → Document
  | [] => ⟨.broken, false⟩
  | token :: tokens =>
    if token.kind.endsDocument then ⟨.empty token.start, endsAfter (token :: tokens)⟩
    else readRoot (token :: tokens)

def readDocument : List Token → Document
  | [] => ⟨.broken, false⟩
  | token :: tokens =>
    match token.kind with
    | .textEnd => ⟨.empty token.start, true⟩
    | .documentStart => readMarked tokens
    | _ => readRoot (token :: tokens)

def readText (text : String) : Document :=
  if text.toList.all isReadable then readDocument (tokensOf (unifyBreaks text.toList))
  else ⟨.broken, false⟩

end FakeData.Yaml
