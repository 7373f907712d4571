/-!
# Tokens

The smallest parts of a YAML stream. Indentation appears as tokens of its own: a block begins before
its first entry and ends where a line is indented less.
-/

namespace ApiContract.Yaml

inductive Token where
  | streamEnd
  | version (major minor : Nat)
  /-- What a handle in front of tags stands for. -/
  | handle (name start : String)
  | documentStart
  | documentEnd
  | blockSequenceStart
  | blockMappingStart
  | blockEnd
  | flowSequenceStart
  | flowSequenceEnd
  | flowMappingStart
  | flowMappingEnd
  | blockEntry
  | flowEntry
  | key
  | value
  | alias (name : String)
  | anchor (name : String)
  | tag (handle suffix : String)
  | scalar (text : String) (isPlain : Bool)
  deriving DecidableEq, Repr

end ApiContract.Yaml
