import WorkloadSpec.Error
import WorkloadSpec.Value.Mapping

/-!
Which sections a kind of specification needs, allows, reads into its header and
expands. The check looks at keys only: first for a key that is no section, then
for a section the kind does not have, then for one that is missing.
-/
namespace WorkloadSpec

structure Contract where
  kind : Kind
  required : List Section
  possible : List Section
  header : List Section
  /-- Sections that may hold operators. -/
  operator : List Section

namespace Kind

/-- Sections of every kind but groups, experiments and jobs, which have more. -/
def commonSections : List Section :=
  [.version, .kind, .tags, .backend, .environment, .logging, .build]

def possibleSections : Kind → List Section
  | build | notebook | tensorboard => commonSections
  | job =>
    [.version, .kind, .tags, .backend, .environment, .declarations, .logging, .build, .run]
  | experiment =>
    [.version, .kind, .tags, .backend, .framework, .environment, .declarations, .logging, .build,
      .run]
  | group => Section.all

def requiredSections : Kind → List Section
  | build | notebook => [.version, .kind, .build]
  | tensorboard => [.version, .kind]
  | job => [.version, .kind, .build, .run]
  | experiment => [.version, .kind, .run]
  | group => [.version, .kind, .hptuning, .run]

def headerSections : Kind → List Section
  | experiment | group => [.version, .kind, .tags, .backend, .framework, .logging]
  | _ => [.version, .kind, .tags, .backend, .logging]

def contract (k : Kind) : Contract where
  kind := k
  required := k.requiredSections
  possible := k.possibleSections
  header := k.headerSections
  operator := [.build, .run]

theorem required_subset_possible (k : Kind) : k.contract.required ⊆ k.contract.possible := by
  cases k <;> decide

theorem header_subset_possible (k : Kind) : k.contract.header ⊆ k.contract.possible := by
  cases k <;> decide

end Kind

namespace Contract

def unexpected? (document : Mapping) : Option String :=
  (Mapping.keys document).find? fun key => (Section.ofKey? key).isNone

def unsupported? (c : Contract) (document : Mapping) : Option Section :=
  Section.all.find? fun x => Mapping.has document x.key && !c.possible.contains x

def missing? (c : Contract) (document : Mapping) : Option Section :=
  c.required.find? fun x => !Mapping.has document x.key

def check (c : Contract) (document : Mapping) (version : Int) : Except DocumentError Unit :=
  match unexpected? document, c.unsupported? document, c.missing? document with
  | some key, _, _ => .error (.unexpectedSection key version)
  | none, some x, _ => .error (.unsupportedSection x c.kind)
  | none, none, some x => .error (.missingSection x c.kind)
  | none, none, none => .ok ()

end Contract

end WorkloadSpec
