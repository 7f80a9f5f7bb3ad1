/-!
# Tokens

The tokens of a document. Indentation appears as tokens of its own: where a block
begins and ends is decided while the text is read, so that the grammar over
tokens no longer needs columns.
-/

namespace ArmLink.Yaml

/-- How a scalar is written. -/
inductive Style where
  | plain
  | quoted
  /-- A block that keeps its line breaks. -/
  | literal
  /-- A block that folds them. -/
  | folded
  deriving DecidableEq, Repr

/-- A token. The end of the list is the end of the text. -/
inductive Token where
  | version (major minor : Nat)
  | handle (name : List Char) (stem : List UInt8)
  | documentStart
  | documentEnd
  | blockSequence
  | blockMapping
  | blockEnd
  | flowSequence
  | flowSequenceEnd
  | flowMapping
  | flowMappingEnd
  | blockEntry
  | flowEntry
  | key
  | value
  | alias (name : List Char)
  | anchor (name : List Char)
  | tag (handle : List Char) (rest : List UInt8)
  | scalar (style : Style) (text : List Char)
  deriving DecidableEq, Repr

end ArmLink.Yaml
