import WorkloadSpec.Section.Build
import WorkloadSpec.Section.Environment
import WorkloadSpec.Section.Run

/-!
The typed settings of a specification, read from its sections once their
operators are expanded. Sections are read in the order of the document, so the
first one that cannot be read is the one reported. A null section is no section.
-/
namespace WorkloadSpec

/-- A section read by a codec. -/
def readSection {α : Type} (place : Section) (c : Codec α) (v : Value) : Except DocumentError α :=
  (c.decode v).mapError fun e => .invalidSection place (.decode e)

structure Settings where
  environment : Option Environment := none
  declarations : Option Mapping := none
  sweep : Option Sweep := none
  build : Option Build := none
  run : Option Run := none

namespace Settings

def readDeclarations : Value → Except DocumentError (Option Mapping)
  | .null => .ok none
  | .map entries => .ok (some entries)
  | v => .error (.invalidSection .declarations (.shape v.shape))

def readSweep (v : Value) : Except DocumentError (Option Sweep) := do
  let sweep ← readSection .hptuning Sweep.codec.option v
  if let some s := sweep then
    s.check.mapError fun fault => .invalidSection .hptuning (.sweep fault)
  pure sweep

/-- Takes over one section. -/
def read (s : Settings) (place : Section) (v : Value) : Except ResolutionError Settings := do
  match place with
  | .environment =>
    pure { s with environment := ← readSection place Environment.codec.option v }
  | .declarations => pure { s with declarations := ← readDeclarations v }
  | .hptuning => pure { s with sweep := ← readSweep v }
  | .build => pure { s with build := ← readSection place Build.codec.option v }
  | .run => pure { s with run := ← Run.ofValue v }
  | _ => pure s

def ofSections (sections : Mapping) : Except ResolutionError Settings :=
  sections.foldlM (fun s e =>
    match Section.ofKey? e.1 with
    | some place => s.read place e.2
    | none => pure s) {}

def toValue (s : Settings) : Value :=
  .map <|
    (s.environment.map fun x => ("environment", Environment.codec.encode x)).toList ++
      (s.declarations.map fun x => ("declarations", .map x)).toList ++
      (s.sweep.map fun x => ("hptuning", Sweep.codec.encode x)).toList ++
      (s.build.map fun x => ("build", Build.codec.encode x)).toList ++
      (s.run.map fun x => ("run", x.toValue)).toList

end Settings

end WorkloadSpec
