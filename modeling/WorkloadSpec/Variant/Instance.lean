import WorkloadSpec.Variant.Error
import WorkloadSpec.Variant.Field
import WorkloadSpec.Value.Mapping

/-!
A resolved selection: an identifier and a value for every declared field. Typed
access fails with the error that names the field.
-/
namespace WorkloadSpec.Variant

structure Instance where
  identifier : String
  fields : Mapping

namespace Instance

def get? (i : Instance) (field : String) : Option Value := i.fields.lookup field

def get (i : Instance) (field : String) : Except VariantError Value :=
  match i.get? field with
  | some v => .ok v
  | none => .error (.missingField i.identifier field)

def mismatch {α : Type} (i : Instance) (field : String) (kind : FieldKind) (v : Value) :
    Except VariantError α :=
  .error (.fieldType i.identifier field kind.describe v.shape)

def double (i : Instance) (field : String) : Except VariantError Double := do
  let v ← i.get field
  match v.double? with
  | some x => pure x
  | none => i.mismatch field .float v

def int64 (i : Instance) (field : String) : Except VariantError Int64 := do
  let v ← i.get field
  match v.int64? with
  | some n => pure n
  | none => i.mismatch field .int v

def bool (i : Instance) (field : String) : Except VariantError Bool := do
  match ← i.get field with
  | .bool b => pure b
  | v => i.mismatch field .bool v

def string? (i : Instance) (field : String) : Except VariantError (Option String) :=
  match i.get? field with
  | none | some .null => .ok none
  | some (.str s) => .ok (some s)
  | some v => i.mismatch field .str v

def tensor? (i : Instance) (field : String) : Except VariantError (Option Tensor) :=
  match i.get? field with
  | none | some .null => .ok none
  | some v =>
    match Tensor.ofValue? v with
    | some t => .ok (some t)
    | none => i.mismatch field .tensor v

end Instance

end WorkloadSpec.Variant
