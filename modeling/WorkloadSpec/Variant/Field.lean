import WorkloadSpec.Value

/-!
Declared fields of a variant. A field takes values of its kind, and null if null
is its default. Defaults are compared by `agrees`, which does not tell an integer
from the float next to it.
-/
namespace WorkloadSpec.Variant

/-- A layer by name, or one of its outputs. -/
inductive Tensor where
  | name (layer : String)
  | output (layer : String) (node tensor : Int64)
  deriving DecidableEq

namespace Tensor

def ofValue? : Value → Option Tensor
  | .str layer => some (name layer)
  | .seq [.str layer, node, tensor] => do
    pure (output layer (← node.int64?) (← tensor.int64?))
  | _ => none

def toValue : Tensor → Value
  | name layer => .str layer
  | output layer node tensor => .seq [.str layer, .int node.toInt, .int tensor.toInt]

end Tensor

inductive FieldKind where
  | float
  | int
  | bool
  | str
  | tensor
  deriving DecidableEq, Repr

namespace FieldKind

def describe : FieldKind → String
  | float => "a float"
  | int => "an integer"
  | bool => "a boolean"
  | str => "a string"
  | tensor => "a tensor reference"

/-- Any number will do where a float is due. -/
def accepts : FieldKind → Value → Bool
  | float, v => v.isNumber
  | int, .int _ => true
  | bool, .bool _ => true
  | str, .str _ => true
  | tensor, v => (Tensor.ofValue? v).isSome
  | _, _ => false

end FieldKind

structure FieldSpec where
  name : String
  kind : FieldKind
  /-- A field without default has to be given. -/
  default : Option Value
  /-- Left out of the minimal form when unset or default. -/
  reduced : Bool := false

/-- Numbers agree when the doubles nearest to them are equal, other values when
they are the same. -/
def agrees (v w : Value) : Bool :=
  match v.double?, w.double? with
  | some x, some y => x.same y
  | _, _ => v.same w

namespace FieldSpec

def required (name : String) (kind : FieldKind) : FieldSpec := { name, kind, default := none }

def optional (name : String) (kind : FieldKind) : FieldSpec :=
  { name, kind, default := some .null }

def defaulted (name : String) (kind : FieldKind) (default : Value) : FieldSpec :=
  { name, kind, default := some default }

def isRequired (f : FieldSpec) : Bool := f.default.isNone

def isNullable (f : FieldSpec) : Bool := f.default.any Value.isNull

def isDefault (f : FieldSpec) (v : Value) : Bool := f.default.any (agrees · v)

def allows (f : FieldSpec) (v : Value) : Bool := (v.isNull && f.isNullable) || f.kind.accepts v

end FieldSpec

end WorkloadSpec.Variant
