import WorkloadSpec.CommandLine.Outcome

/-!
The program: it opens the log file, reads the files the action asks for, and
prints the outcome.
-/
namespace WorkloadSpec.Program

open CommandLine

/-- Some platform calls report the negated code. -/
def systemCode (code : UInt32) : Nat :=
  if code < 0x80000000 then code.toNat else 0x100000000 - code.toNat

def systemFault : IO.Error → ReadFault
  | .noFileOrDirectory _ _ _ => .notFound
  | .inappropriateType _ code _ => if systemCode code = 21 then .isDirectory else .notDirectory
  | .permissionDenied _ code _ => .other s!"Permission denied (os error {systemCode code})"
  | .invalidArgument _ code details =>
    if systemCode code = 36 then .nameTooLong
    else .other s!"{details.capitalize} (os error {systemCode code})"
  | e => .other (toString e)

def readText (path : String) : IO (Except ReadFault String) := do
  try
    let content ← IO.FS.readBinFile path
    return match String.fromUTF8? content with
      | some text => .ok text
      | none => .error .notText
  catch e => return .error (systemFault e)

def outcome (args : List String) : IO Outcome := do
  match Invocation.parse args with
  | .error stop => return .ofStop stop
  | .ok i =>
    if let .file path := i.log then
      try
        let _ ← IO.FS.Handle.mk path .append
      catch e => return .noLog (systemFault e)
    let contents ← i.action.files.mapM fun path => return (path, ← readText path)
    return .ofInvocation (fun path => (contents.lookup path).getD (.error .notFound)) i

def run (args : List String) : IO UInt32 := do
  let result ← outcome args
  (← IO.getStdout).putStr result.stdout
  (← IO.getStderr).putStr result.stderr
  return result.exit.toUInt32

end WorkloadSpec.Program

def main (args : List String) : IO UInt32 := WorkloadSpec.Program.run args
