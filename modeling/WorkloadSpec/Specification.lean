import WorkloadSpec.Header
import WorkloadSpec.Operator.Expand
import WorkloadSpec.Source.Layer

/-!
A resolved specification. Resolving goes through fixed stages: the layers are
merged, version and kind are checked, then the keys against the contract, then
the header is read, operators are expanded and the sections are read. The first
stage that fails decides the error, and what exists as a specification has
passed them all.
-/
namespace WorkloadSpec

structure Specification where
  sources : List Source
  /-- The merged document, operators and all. -/
  data : Mapping
  header : Header
  /-- The sections with their operators expanded. -/
  sections : Mapping
  settings : Settings

/-- What a build specification is made from. -/
inductive BuildInput where
  | config (build : Build)
  /-- A mapping, of which only the build fields count. -/
  | raw (v : Value)

namespace Specification

def expandEntry (c : Contract) (data : Mapping) (e : String × Value) :
    Except ResolutionError (String × Value) :=
  match (Section.ofKey? e.1).filter c.operator.contains with
  | some place =>
    ((fun v => (e.1, v)) <$> expandSection data e.2).mapError (.operator · (some place))
  | none => .ok e

/-- Every section, expanded where the contract lets it hold operators. -/
def expandSections (c : Contract) (data : Mapping) : Except ResolutionError Mapping :=
  data.mapM (expandEntry c data)

/-- All that follows from the merged document. -/
def ofDocument (kind : Kind) (sources : List Source) (data : Mapping) :
    Except ResolutionError Specification := do
  let (version, kind) ← Header.identify data kind
  let c := kind.contract
  c.check data version
  let header ← Header.read data c version kind
  let sections ← expandSections c data
  let settings ← Settings.ofSections sections
  pure { sources, data, header, sections, settings }

def resolve (files : Files) (kind : Kind) (sources : List Source) :
    Except ResolutionError Specification := do
  ofDocument kind sources (← Source.read files sources)

def ofValue (kind : Kind) (v : Value) : Except ResolutionError Specification :=
  resolve (fun _ => .error .notFound) kind [.value v]

/-- With the kind that the document declares, if none is asked for. -/
def detect (files : Files) (kind? : Option Kind) (sources : List Source) :
    Except ResolutionError Specification := do
  let kind ←
    match kind? with
    | some kind => pure kind
    | none => Kind.detect (← Source.read files sources)
  resolve files kind sources

def kind (s : Specification) : Kind := s.header.kind

/-- A specification as one of a given kind: itself, or its document read again. -/
def convert (s : Specification) (kind : Kind) : Except ResolutionError Specification :=
  if s.kind = kind then .ok s else ofValue kind (.map s.data)

/-- The document of a specification with further layers on top. -/
def patch (files : Files) (s : Specification) (extra : List Source) :
    Except ResolutionError Specification :=
  resolve files s.kind (.value (.map s.data) :: extra)

/-- The smallest document of a build specification. -/
def buildDocument (input : BuildInput) : Except ResolutionError Mapping := do
  let build ←
    match input with
    | .config build => pure build.light
    | .raw (.map entries) =>
      match Build.ofRaw entries with
      | .ok build => pure build.light
      | .error e => .error (.document (.invalidSection .build (.decode e)))
    | .raw v => .error (.document (.invalidBuildInput v.shape))
  pure [(Section.version.key, .int Header.greatestVersion),
    (Section.kind.key, .str Kind.build.name), (Section.build.key, build)]

def ofBuild (input : BuildInput) : Except ResolutionError Specification := do
  ofValue .build (.map (← buildDocument input))

/-- The same sources, data and meaning. What is typed follows from the sections. -/
def same (s t : Specification) : Bool :=
  s.sources.length == t.sources.length &&
    (s.sources.zip t.sources).all (fun (a, b) => a.same b) &&
    Value.same (.map s.data) (.map t.data) && s.header == t.header &&
    Value.same (.map s.sections) (.map t.sections)

end Specification

end WorkloadSpec
