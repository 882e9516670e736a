import WorkloadSpec.Source.Layer

/-!
A working folder given by its files, for running without a disk. Paths are
followed part by part, so that going through a file and ending at a folder are
different faults from naming what is not there.
-/
namespace WorkloadSpec

structure Folder where
  files : List (String × ByteArray)

namespace Folder

/-- Where a path has led so far. -/
inductive Spot where
  /-- The working folder, or one so many levels above it. -/
  | inside (above : Nat)
  | system (parts : List String)
  | file (content : ByteArray)

/-- The longest name a file can have, in octets. -/
def nameLimit : Nat := 255

/-- The longest path that can be followed, in octets. -/
def pathLimit : Nat := 4095

/-- Why a folder that is there does not hold a name. -/
def missing (name : String) : ReadFault :=
  if nameLimit < name.utf8ByteSize then .nameTooLong else .notFound

def lookup (folder : Folder) (name : String) : Except ReadFault Spot :=
  match folder.files.lookup name with
  | some content => .ok (.file content)
  | none => .error (missing name)

/-- The folders at the root of the system. -/
def systemFolders : List String :=
  ["bin", "dev", "etc", "home", "lib", "opt", "proc", "root", "run", "sbin", "srv", "sys", "tmp",
    "usr", "var"]

/-- Outside of the working folder nothing but these folders and the empty device is known. -/
def systemStep (parts : List String) (part : String) : Except ReadFault Spot :=
  match parts, part with
  | ["dev"], "null" => .ok (.file .empty)
  | [], name => if systemFolders.contains name then .ok (.system [name]) else .error (missing name)
  | _, name => .error (missing name)

def step (folder : Folder) (spot : Spot) (part : String) : Except ReadFault Spot :=
  match spot with
  | .file _ => .error .notDirectory
  | .inside above =>
    if part.isEmpty ∨ part = "." then .ok spot
    else if part = ".." then .ok (.inside (above + 1))
    else if above = 0 then folder.lookup part
    else .error (missing part)
  | .system parts =>
    if part.isEmpty ∨ part = "." then .ok spot
    else if part = ".." then .ok (.system parts.dropLast)
    else systemStep parts part

def find (folder : Folder) (path : String) : Except ReadFault Spot :=
  if path.isEmpty then .error .notFound
  else if path.contains '\x00' then .error (.other "file name contained an unexpected NUL byte")
  else if pathLimit < path.utf8ByteSize then .error .nameTooLong
  else
    (path.splitOn "/").foldlM folder.step (if path.startsWith "/" then .system [] else .inside 0)

def read (folder : Folder) : Files := fun path => do
  match ← folder.find path with
  | .file content =>
    match String.fromUTF8? content with
    | some text => pure text
    | none => .error .notText
  | _ => .error .isDirectory

/-- The folder once a file is open to be appended to. A new file starts empty. -/
def append (folder : Folder) (path : String) : Except ReadFault Folder :=
  match folder.find path with
  | .ok (.file _) => .ok folder
  | .ok _ => .error .isDirectory
  | .error .notFound =>
    let parts := path.splitOn "/"
    let parent := String.intercalate "/" parts.dropLast
    match parts.getLast?, folder.find (if parts.length = 1 then "." else parent ++ "/") with
    | some name, .ok (.inside 0) => .ok { folder with files := folder.files ++ [(name, .empty)] }
    | some _, .ok (.inside _) => .ok folder
    | some _, .ok (.system _) => .ok folder
    | _, _ => .error (if path.endsWith "/" then .isDirectory else .notFound)
  | .error fault => .error fault

end Folder

end WorkloadSpec
