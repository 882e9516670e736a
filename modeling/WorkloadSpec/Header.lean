import WorkloadSpec.Contract
import WorkloadSpec.Section.Backend
import WorkloadSpec.Section.Logging
import WorkloadSpec.Settings

/-!
The header of a specification. Version and kind are looked at before anything
else; the other header sections follow in the order of the contract. Tags are
kept in ascending order, each once.
-/
namespace WorkloadSpec

structure Header where
  version : Int
  kind : Kind
  tags : Option (List String) := none
  logging : Option Logging := none
  backend : Option Backend := none
  framework : Option Framework := none
  deriving DecidableEq

def Kind.detect (document : Mapping) : Except DocumentError Kind :=
  match document.lookup Section.kind.key with
  | none => .error .missingKind
  | some (.str name) =>
    match Kind.ofName? name with
    | some k => .ok k
    | none => .error (.unsupportedKind name)
  | some v => .error (.unsupportedKind (Json.compact v))

namespace Header

def leastVersion : Int := 1

def greatestVersion : Int := 1

def readVersion (document : Mapping) : Except DocumentError Int :=
  match document.lookup Section.version.key with
  | none => .error .missingVersion
  | some (.int n) =>
    if leastVersion ≤ n ∧ n ≤ greatestVersion then .ok n
    else .error (.unsupportedVersion (.int n) leastVersion greatestVersion)
  | some v => .error (.unsupportedVersion v leastVersion greatestVersion)

/-- The version and kind of a document that is meant to be of a given kind. -/
def identify (document : Mapping) (expected : Kind) : Except DocumentError (Int × Kind) := do
  let version ← readVersion document
  let kind ← Kind.detect document
  if kind ≠ expected then .error (.kindMismatch expected kind)
  pure (version, kind)

/-- Adds a tag to tags in ascending order. -/
def insertTag (tag : String) : List String → List String
  | [] => [tag]
  | t :: ts =>
    if tag < t then tag :: t :: ts else if tag = t then t :: ts else t :: insertTag tag ts

def tagText : Value → Except DocumentError String
  | .str tag => .ok tag
  | _ => .error (.invalidSection .tags .tagNotString)

/-- A single tag, or a sequence of tags. No tags are none. -/
def readTags : Value → Except DocumentError (Option (List String))
  | .null => .ok none
  | .str tag => .ok (some [tag])
  | .seq items => do
    let tags := (← items.mapM tagText).foldr insertTag []
    pure (if tags.isEmpty then none else some tags)
  | _ => .error (.invalidSection .tags .tagsShape)

/-- Takes over one section. -/
def readPart (document : Mapping) (h : Header) (place : Section) :
    Except DocumentError Header := do
  match document.lookup place.key, place with
  | some v, .tags => pure { h with tags := ← readTags v }
  | some v, .logging => pure { h with logging := ← readSection place Logging.codec.option v }
  | some v, .backend => pure { h with backend := ← readSection place Backend.codec.option v }
  | some v, .framework => pure { h with framework := ← readSection place Framework.codec.option v }
  | _, _ => pure h

def read (document : Mapping) (c : Contract) (version : Int) (kind : Kind) :
    Except DocumentError Header :=
  c.header.foldlM (readPart document) { version, kind }

def logLevel (h : Header) : LogLevel := (h.logging.map Logging.level).getD .info

def toValue (h : Header) : Value :=
  .map <|
    [("version", .int h.version), ("kind", .str h.kind.name)] ++
      (h.tags.map fun tags => ("tags", .seq (tags.map .str))).toList ++
      (h.logging.map fun l => ("logging", Logging.codec.encode l)).toList ++
      (h.backend.map fun b => ("backend", Backend.codec.encode b)).toList ++
      (h.framework.map fun f => ("framework", Framework.codec.encode f)).toList

end Header

end WorkloadSpec
