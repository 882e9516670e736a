/-!
Tokens of YAML text. Indentation has become explicit: a block sequence or
mapping stands between its start token and a block end. A key that is only
recognised by the colon after it still has its own token in front of it.
-/
namespace WorkloadSpec.Yaml

/-- Tag text is kept in bytes, because escapes in it may spell any octets. -/
abbrev TagText := List UInt8

inductive Token where
  | version (major minor : Nat)
  | tagShorthand (handle : String) (expansion : TagText)
  | documentStart
  | documentEnd
  | blockSequenceStart
  | blockMappingStart
  | blockEnd
  | flowSequenceStart
  | flowSequenceEnd
  | flowMappingStart
  | flowMappingEnd
  | blockEntry
  | flowEntry
  | key
  | value
  | aliasTo (name : String)
  | anchor (name : String)
  /-- An empty handle marks a tag that is already complete. -/
  | tag (handle : String) (suffix : TagText)
  | scalar (text : String) (plain : Bool)
  | streamEnd
  deriving DecidableEq, Repr

end WorkloadSpec.Yaml
