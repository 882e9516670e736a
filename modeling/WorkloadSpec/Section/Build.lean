import WorkloadSpec.Decode.Record

/-!
The build section: the image a run executes in. Its light form leaves out what
is unset or empty. A raw mapping may hold other keys, which are passed over.
-/
namespace WorkloadSpec

/-- A variable of the build environment, written as a pair. -/
structure Variable where
  name : String
  value : Value

namespace Variable

def tuple : String := "tuple struct EnvVar"

def decode : Value → Except DecodeError Variable
  | .seq [] => .error (.invalidLength 0 s!"{tuple} with 2 elements")
  | .seq (name :: rest) => do
    let name ← Codec.string.decode name
    match rest with
    | [] => .error (.invalidLength 1 s!"{tuple} with 2 elements")
    | [value] => pure ⟨name, value⟩
    | _ => .error (.invalidLength (rest.length + 1) Record.excess)
  | v => Codec.mismatch v tuple

def encode (x : Variable) : Value := .seq [.str x.name, x.value]

def codec : Codec Variable := ⟨decode, encode⟩

end Variable

structure Build where
  image : String
  buildSteps : List String := []
  envVars : List Variable := []
  /-- The repository to build from. -/
  git : Option String := none
  ref : Option String := none
  commit : Option String := none
  branch : Option String := none
  nocache : Option Bool := none

namespace Build

def record : Record Build where
  title := "BuildConfig"
  blank := { image := "" }
  fields :=
    [.required "image" .string image fun s x => { s with image := x },
      .many "build_steps" .string buildSteps fun s x => { s with buildSteps := x },
      .many "env_vars" Variable.codec envVars fun s x => { s with envVars := x },
      .optional "git" .string git fun s x => { s with git := x },
      .optional "ref" .string ref fun s x => { s with ref := x },
      .optional "commit" .string commit fun s x => { s with commit := x },
      .optional "branch" .string branch fun s x => { s with branch := x },
      .optional "nocache" .bool nocache fun s x => { s with nocache := x }]

def codec : Codec Build := record.codec

/-- The keys of a raw mapping that count. -/
def fieldNames : List String :=
  ["image", "build_steps", "env_vars", "git", "ref", "commit", "branch", "nocache"]

/-- The build fields of a mapping, in its order. -/
def known (raw : Mapping) : Mapping := raw.filter fun e => fieldNames.contains e.1

def ofRaw (raw : Mapping) : Except DecodeError Build := record.decode (.map (known raw))

/-- The shortest mapping that reads back as this build. -/
def light (b : Build) : Value :=
  let texts (key : String) (items : List Value) : Mapping :=
    if items.isEmpty then [] else [(key, .seq items)]
  let text (key : String) (s : Option String) : Mapping := (s.map fun s => (key, .str s)).toList
  .map <|
    [("image", .str b.image)] ++ texts "build_steps" (b.buildSteps.map .str) ++
      texts "env_vars" (b.envVars.map fun x => .seq [.str x.name, x.value]) ++
      text "git" b.git ++ text "ref" b.ref ++ text "commit" b.commit ++ text "branch" b.branch ++
      (b.nocache.map fun x => ("nocache", .bool x)).toList

end Build

end WorkloadSpec
