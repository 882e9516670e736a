import WorkloadSpec.Error
import WorkloadSpec.Source.Merge
import WorkloadSpec.Text.Blank
import WorkloadSpec.Yaml.Reader

/-!
The layers a document is made of: files, texts and values. What files hold comes
in as a function, so reading is the same as long as the files are. An empty text
is a null document, which adds nothing.
-/
namespace WorkloadSpec

/-- The text of each file, or why there is none. -/
abbrev Files := String → Except ReadFault String

inductive Source where
  | path (path : String)
  | text (text : String)
  | value (v : Value)

namespace Source

def name : Source → String
  | path p => p
  | text _ => "<text>"
  | value _ => "<value>"

def parse (name text : String) : Except DocumentError Value :=
  if (Text.trim text).isEmpty then .ok .null
  else
    match Yaml.parse? text with
    | some v => .ok v
    | none => .error (.unparsable name)

def load (files : Files) : Source → Except DocumentError Value
  | path p => do parse p (← (files p).mapError (.unreadable p))
  | text t => parse "<text>" t
  | value v => .ok v

/-- The document of a layer; null is none. -/
def document? (files : Files) (s : Source) : Except DocumentError (Option Mapping) := do
  match ← s.load files with
  | .null => pure none
  | .map m => pure (some m)
  | v => .error (.notMapping s.name v.shape)

/-- The merged document of some layers, read in order. -/
def read (files : Files) (sources : List Source) : Except DocumentError Mapping := do
  pure (Mapping.merge ((← sources.mapM (document? files)).filterMap id))

/-- Whether a path is absolute, and its parts; a dot means nothing except in front. -/
def pathParts (p : String) : Bool × List String :=
  let parts := p.splitOn "/"
  (p.startsWith "/", parts.take 1 ++ (parts.drop 1).filter fun s => !(s.isEmpty || s == "."))

/-- Sources that are told apart by nothing but the spelling of a path or the order
of entries are the same. -/
def same : Source → Source → Bool
  | path p, path q => pathParts p == pathParts q
  | text s, text t => s == t
  | value v, value w => v.same w
  | _, _ => false

end Source

end WorkloadSpec
