import RecordGraph.Yaml.Tag

/-!
Tokens. Besides what is written, collections of lines have tokens where their
indentation begins and ends, and every key has one before it.
-/

namespace RecordGraph.Yaml

inductive Token where
  | directive (d : Directive)
  | documentStart
  | documentEnd
  | blockSequenceStart
  | blockMappingStart
  | blockEnd
  | flowSequenceStart
  | flowSequenceEnd
  | flowMappingStart
  | flowMappingEnd
  | blockEntry
  | flowEntry
  | key
  | value
  | reference (name : String)
  | anchor (name : String)
  | tag (t : WrittenTag)
  | scalar (plain : Bool) (text : String)

end RecordGraph.Yaml
