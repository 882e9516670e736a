import WorkloadSpec.Specification

/-!
What a check reports: the kind and sections of a specification, the rest of its
header and, for a group, how many experiments it schedules.
-/
namespace WorkloadSpec.Specification

def summary (s : Specification) : Value :=
  .map <|
    [("kind", .str s.kind.name), ("version", .int s.header.version),
      ("sections", .seq ((Mapping.keys s.data).map .str))] ++
      (s.header.tags.map fun tags => ("tags", .seq (tags.map .str))).toList ++
      (s.header.backend.map fun b => ("backend", .str b.name)).toList ++
      (s.header.framework.map fun f => ("framework", .str f.name)).toList ++
      [("log_level", .str s.header.logLevel.name)] ++
      (s.settings.sweep.map fun sweep => ("experiments", .int sweep.experimentCount)).toList

end WorkloadSpec.Specification
