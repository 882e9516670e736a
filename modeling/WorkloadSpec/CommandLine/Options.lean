import WorkloadSpec.Json.Printer
import WorkloadSpec.Error
import WorkloadSpec.Yaml.Printer

/-!
Where log lines go, and the format answers and errors are printed in.
-/
namespace WorkloadSpec.CommandLine

inductive LogTarget where
  | off
  | stdout
  | stderr
  | file (path : String)
  deriving DecidableEq, Repr

/-- Three targets have a number and a name; anything else is a file. -/
def LogTarget.parse (s : String) : Except String LogTarget :=
  if s.isEmpty then .error "log target cannot be empty"
  else if s = "0" ∨ s = "off" then .ok .off
  else if s = "1" ∨ s = "stdout" then .ok .stdout
  else if s = "2" ∨ s = "stderr" then .ok .stderr
  else .ok (.file s)

inductive Format where
  | yaml
  | json
  deriving DecidableEq, Repr

namespace Format

def name : Format → String
  | yaml => "yaml"
  | json => "json"

def parse (s : String) : Except String Format :=
  let word := s.toLower
  if word = "yaml" ∨ word = "yml" then .ok yaml
  else if word = "json" then .ok json
  else .error s!"Invalid format '{s}'. Valid options: yaml, json"

def render (f : Format) (v : Value) : String :=
  match f with
  | yaml => Yaml.print v
  | json => Json.pretty v ++ "\n"

/-- An error as one line, or as a document. -/
def renderError (f : Format) (e : ResolutionError) : String :=
  match f, e.place? with
  | yaml, some place => s!"error[{place}]: {e.message}\n"
  | yaml, none => s!"error: {e.message}\n"
  | json, place =>
    render json <| .map <|
      [("code", .str e.code), ("message", .str e.message)] ++
        (place.map fun key => ("section", .str key)).toList

end Format

end WorkloadSpec.CommandLine
