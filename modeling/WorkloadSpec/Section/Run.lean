import WorkloadSpec.Error
import WorkloadSpec.Variant.Loss
import WorkloadSpec.Variant.Optimizer

/-!
The run section: a command and, for training, a loss and an optimizer. The last
two are selections from their families, so a bad one is refused with the error
of the family.
-/
namespace WorkloadSpec

inductive Command where
  | line (text : String)
  | steps (texts : List String)
  deriving DecidableEq

namespace Command

def toList : Command → List String
  | line text => [text]
  | steps texts => texts

def decode (v : Value) : Except DecodeError Command :=
  match v with
  | .str text => .ok (line text)
  | v =>
    match (Codec.string.list.decode v).toOption with
    | some texts => .ok (steps texts)
    | none => .error (.noAlternative "Command")

def encode : Command → Value
  | line text => .str text
  | steps texts => .seq (texts.map .str)

end Command

structure Run where
  cmd : Option Command := none
  loss : Option Loss := none
  optimizer : Option Optimizer := none
  deriving DecidableEq

namespace Run

def fieldNames : List String := ["cmd", "loss", "optimizer"]

/-- The value of a field that is given and not null. -/
def given (entries : Mapping) (field : String) : Option Value :=
  (entries.lookup field).filter fun v => !v.isNull

def ofMapping (entries : Mapping) : Except ResolutionError Run := do
  if let some e := entries.find? fun e => !fieldNames.contains e.1 then
    .error (.document (.invalidSection .run (.unknownRunField e.1 fieldNames)))
  let cmd ← (given entries "cmd").mapM fun v =>
    (Command.decode v).mapError fun e => .document (.invalidSection .run (.decode e))
  let loss ← (given entries "loss").mapM fun v => Loss.family.make v
  let optimizer ← (given entries "optimizer").mapM fun v => Optimizer.family.make v
  pure { cmd, loss, optimizer }

/-- A null section is no run. -/
def ofValue : Value → Except ResolutionError (Option Run)
  | .null => .ok none
  | .map entries => some <$> ofMapping entries
  | v => .error (.document (.invalidSection .run (.shape v.shape)))

def toValue (r : Run) : Value :=
  .map <|
    (r.cmd.map fun c => ("cmd", c.encode)).toList ++
      (r.loss.map fun l => ("loss", l.toValue)).toList ++
      (r.optimizer.map fun o => ("optimizer", o.toValue)).toList

end Run

end WorkloadSpec
