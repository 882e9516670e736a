import WorkloadSpec.CommandLine.Invocation
import WorkloadSpec.Source.Folder
import WorkloadSpec.Summary
import WorkloadSpec.Variant.Registry

/-!
What an invocation answers. Every action produces one value or one error; both
are printed in the chosen format.
-/
namespace WorkloadSpec.CommandLine

namespace Action

/-- The files an action reads. -/
def files : Action → List String
  | check _ files | render _ _ files => files
  | buildSpec file _ => [file]
  | variant _ _ => []

/-- The build section of a document, or else the document without it. -/
def buildPart (document : Mapping) : Value :=
  match document.lookup Section.build.key with
  | some (.map build) => .map build
  | _ => .map (Mapping.swapErase document Section.build.key)

def runBuildSpec (files : Files) (file : String) (resolve : Bool) :
    Except ResolutionError Value := do
  let document ←
    match ← (Source.path file).load files with
    | .map document => pure document
    | v => .error (.document (.notMapping file v.shape))
  let input := BuildInput.raw (buildPart document)
  if resolve then return .map (← Specification.ofBuild input).sections
  else return .map (← Specification.buildDocument input)

def runVariant (files : Files) (family text : String) : Except ResolutionError Value := do
  let raw ← (Source.text text).load files
  let i ← Variant.Registry.builtin.resolve family raw
  let minimal ← Variant.Registry.builtin.reduce family i
  pure <| .map
    [("family", .str family), ("identifier", .str i.identifier), ("fields", .map i.fields),
      ("minimal", minimal)]

def run (fs : Files) : Action → Except ResolutionError Value
  | check kind files => do
    return (← Specification.detect fs kind (files.map .path)).summary
  | render kind config files => do
    let s ← Specification.detect fs kind (files.map .path)
    if config then
      return .map [("header", s.header.toValue), ("config", s.settings.toValue)]
    else return .map s.sections
  | buildSpec file resolve => runBuildSpec fs file resolve
  | variant family text => runVariant fs family text

end Action

structure Outcome where
  exit : Nat
  stdout : String := ""
  stderr : String := ""

namespace Outcome

def ofInvocation (files : Files) (i : Invocation) : Outcome :=
  match i.action.run files with
  | .ok v => { exit := 0, stdout := i.format.render v }
  | .error e => { exit := 1, stderr := i.format.renderError e }

/-- The log file could not be opened. -/
def noLog (fault : ReadFault) : Outcome := { exit := 1, stderr := s!"Error: {fault.message}\n" }

def help : String :=
  Invocation.about ++ "\n\nUsage: " ++ Invocation.name ++ " [OPTIONS] <COMMAND>\n\nCommands: " ++
    String.intercalate ", " Invocation.commands ++ "\n"

/-- What is printed instead of an answer. -/
def ofStop : Stop → Outcome
  | .help => { exit := 0, stdout := help }
  | .version => { exit := 0, stdout := Invocation.version }
  | .usage e => { exit := 2, stderr := e.report Invocation.about Invocation.name }

/-- Runs without a log. -/
def ofArguments (files : Files) (args : List String) : Outcome :=
  match Invocation.parse args with
  | .error stop => ofStop stop
  | .ok i => ofInvocation files i

/-- Runs in a folder, where a log file comes to be before anything is read. -/
def inFolder (folder : Folder) (args : List String) : Outcome :=
  match Invocation.parse args with
  | .error stop => ofStop stop
  | .ok i =>
    match i.log with
    | .file path =>
      match folder.append path with
      | .ok folder => ofInvocation folder.read i
      | .error fault => noLog fault
    | _ => ofInvocation folder.read i

end Outcome

end WorkloadSpec.CommandLine
