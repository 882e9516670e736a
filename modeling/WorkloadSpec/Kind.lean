/-!
The kinds of specification and the top-level sections a document may have. Both
are listed in catalog order, which is the order checks and messages follow.
-/
namespace WorkloadSpec

inductive Kind where
  | experiment
  | group
  | job
  | notebook
  | tensorboard
  | build
  deriving DecidableEq, Repr

namespace Kind

def all : List Kind := [experiment, group, job, notebook, tensorboard, build]

def name : Kind → String
  | experiment => "experiment"
  | group => "group"
  | job => "job"
  | notebook => "notebook"
  | tensorboard => "tensorboard"
  | build => "build"

def names : List String := all.map name

def ofName? (s : String) : Option Kind := all.find? fun k => k.name == s

/-- Why a name is no kind. -/
def unknownName (s : String) : String :=
  s!"Invalid kind '{s}'. Valid options: " ++ String.intercalate ", " names

theorem ofName?_name (k : Kind) : ofName? k.name = some k := by cases k <;> decide

theorem name_injective {j k : Kind} (h : j.name = k.name) : j = k :=
  Option.some.inj ((ofName?_name j).symm.trans (h ▸ ofName?_name k))

end Kind

inductive Section where
  | version
  | kind
  | tags
  | backend
  | framework
  | environment
  | declarations
  | logging
  | hptuning
  | build
  | run
  deriving DecidableEq, Repr

namespace Section

def all : List Section :=
  [version, kind, tags, backend, framework, environment, declarations, logging, hptuning, build,
    run]

def key : Section → String
  | version => "version"
  | kind => "kind"
  | tags => "tags"
  | backend => "backend"
  | framework => "framework"
  | environment => "environment"
  | declarations => "declarations"
  | logging => "logging"
  | hptuning => "hptuning"
  | build => "build"
  | run => "run"

def keys : List String := all.map key

def ofKey? (s : String) : Option Section := all.find? fun x => x.key == s

theorem mem_all (x : Section) : x ∈ all := by cases x <;> decide

theorem ofKey?_key (x : Section) : ofKey? x.key = some x := by cases x <;> decide

theorem key_of_ofKey? {s : String} {x : Section} (h : ofKey? s = some x) : x.key = s := by
  simpa using List.find?_some h

end Section

end WorkloadSpec
