namespace DocPipeline.Yaml

-- The tokens of YAML text. Where a block collection begins and ends is told by indentation, and a
-- mapping's key without an indicator is found only at the colon behind it; tokens of both kinds are
-- in the list all the same, in the place where they belong.
inductive Token where
  | version (major minor : Nat)
  | tagDirective (handle start : String)
  | documentStart
  | documentEnd
  | blockSequenceStart
  | blockMappingStart
  | blockEnd
  | flowSequenceStart
  | flowSequenceEnd
  | flowMappingStart
  | flowMappingEnd
  | blockEntry
  | flowEntry
  | key
  | value
  | alias (name : String)
  | anchor (name : String)
  | tag (handle suffix : String)
  | scalar (text : String) (plain : Bool)
deriving DecidableEq, Inhabited

end DocPipeline.Yaml
