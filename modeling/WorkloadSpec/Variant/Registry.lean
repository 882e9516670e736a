import WorkloadSpec.Decode.Codec
import WorkloadSpec.Variant.Loss
import WorkloadSpec.Variant.Optimizer

/-!
Families by name, in ascending order. A registry forgets the typed values, but a
selection has to be fit to be built all the same.
-/
namespace WorkloadSpec.Variant

structure Registry where
  families : List (Family Unit)

namespace Registry

def empty : Registry := ⟨[]⟩

/-- The losses and the optimizers. -/
def builtin : Registry :=
  ⟨[Loss.family.map fun _ => (), Optimizer.family.map fun _ => ()]⟩

def names (r : Registry) : List String := r.families.map Family.name

def family? (r : Registry) (name : String) : Option (Family Unit) :=
  r.families.find? fun family => family.name == name

def family (r : Registry) (name : String) : Except VariantError (Family Unit) :=
  match r.family? name with
  | some family => .ok family
  | none => .error (.unknownVariant "variant family" name r.names)

/-- Adds a family whose name is new. -/
def register {α : Type} (r : Registry) (family : Family α) : Except VariantError Registry :=
  if (r.family? family.name).isSome then .error (.duplicate "registry" family.name)
  else
    let (before, after) := r.families.span fun other => other.name < family.name
    .ok ⟨before ++ (family.map fun _ => ()) :: after⟩

def resolve (r : Registry) (name : String) (raw : Value) : Except VariantError Instance := do
  let family ← r.family name
  let i ← family.resolve raw
  family.build i
  pure i

def reduce (r : Registry) (name : String) (i : Instance) : Except VariantError Value := do
  pure ((← r.family name).reduce i)

end Registry

end WorkloadSpec.Variant
