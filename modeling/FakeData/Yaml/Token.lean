import FakeData.Yaml.Mark

/-!
# YAML tokens

The words and signs of a text, together with the beginnings and ends of blocks, which the
indentation shows and no character does.
-/
namespace FakeData.Yaml

inductive Bracket where
  | square
  | curly
  deriving DecidableEq, Repr

inductive TokenKind where
  /-- Three dashes, after which a document starts. -/
  | documentStart
  /-- Three points, before which a document ends. -/
  | documentEnd
  /-- The end of the text. -/
  | textEnd
  /-- The beginning of a sequence whose items are indented equally. -/
  | blockSequence
  /-- The beginning of a mapping whose keys are indented equally. -/
  | blockMapping
  | blockEnd
  | opening (bracket : Bracket)
  | closing (bracket : Bracket)
  | comma
  /-- The dash before an item. -/
  | dash
  /-- The place before a key, where a question mark may stand. -/
  | key
  /-- The colon before a value. -/
  | value
  | scalar (plain : Bool) (text : String)
  deriving DecidableEq, Repr

/-- A token from where it starts up to where it stops. -/
structure Token where
  kind : TokenKind
  start : Mark
  stop : Mark
  deriving DecidableEq, Repr

end FakeData.Yaml
