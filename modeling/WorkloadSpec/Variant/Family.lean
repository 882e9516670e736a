import WorkloadSpec.Variant.Instance

/-!
Families of variants. A member declares its fields and how its typed value is
built from an instance. A selection is a bare identifier, or a mapping of one
identifier to parameters; resolving it checks the parameters and fills in the
defaults. The minimal form drops reduced fields that say nothing, and is the
bare identifier when all that is left is default.
-/
namespace WorkloadSpec.Variant

structure Member (α : Type) where
  identifier : String
  fields : List FieldSpec
  build : Instance → Except VariantError α

namespace Member

variable {α : Type}

def field? (m : Member α) (name : String) : Option FieldSpec :=
  m.fields.find? fun f => f.name == name

/-- The defaults of the fields that have one. -/
def defaults (m : Member α) : Mapping :=
  Mapping.ofEntries (m.fields.filterMap fun f => f.default.map (f.name, ·))

/-- The value a field takes from the parameters. -/
def fieldValue (m : Member α) (parameters : Mapping) (f : FieldSpec) : Except VariantError Value :=
  match parameters.lookup f.name, f.default with
  | some v, _ =>
    if f.allows v then .ok v
    else .error (.fieldType m.identifier f.name f.kind.describe v.shape)
  | none, some v => .ok v
  | none, none => .error (.missingField m.identifier f.name)

/-- Every field with its value, in declared order. -/
def resolve (m : Member α) (parameters : Mapping) : Except VariantError Instance := do
  if let some e := parameters.find? fun e => (m.field? e.1).isNone then
    .error (.unknownField m.identifier e.1)
  let entries ← m.fields.mapM fun f => do pure (f.name, ← m.fieldValue parameters f)
  pure ⟨m.identifier, Mapping.ofEntries entries⟩

/-- What an instance holds for a field, null when it holds nothing. -/
def held (i : Instance) (f : FieldSpec) : Value := (i.get? f.name).getD .null

def isDropped (i : Instance) (f : FieldSpec) : Bool :=
  f.reduced && ((held i f).isNull || f.isDefault (held i f))

def reduce (m : Member α) (i : Instance) : Value :=
  let kept := m.fields.filter fun f => !isDropped i f
  if kept.all fun f => f.isDefault (held i f) then .str m.identifier
  else .map [(m.identifier, .map (Mapping.ofEntries (kept.map fun f => (f.name, held i f))))]

end Member

structure Family (α : Type) where
  name : String
  members : List (Member α)

namespace Family

variable {α β : Type}

def empty (name : String) : Family α := ⟨name, []⟩

def identifiers (family : Family α) : List String := family.members.map Member.identifier

def member? (family : Family α) (identifier : String) : Option (Member α) :=
  family.members.find? fun m => m.identifier == identifier

def member (family : Family α) (identifier : String) : Except VariantError (Member α) :=
  match family.member? identifier with
  | some m => .ok m
  | none => .error (.unknownVariant family.name identifier family.identifiers)

/-- Adds a member whose identifier is new. -/
def register (family : Family α) (m : Member α) : Except VariantError (Family α) :=
  if (family.member? m.identifier).isSome then .error (.duplicate family.name m.identifier)
  else .ok { family with members := family.members ++ [m] }

theorem isSome_member? {family : Family α} {identifier : String} :
    (family.member? identifier).isSome = true ↔ identifier ∈ family.identifiers := by
  simp [member?, identifiers]

theorem identifiers_register {family added : Family α} {m : Member α}
    (h : family.register m = .ok added) :
    added.identifiers = family.identifiers ++ [m.identifier] := by
  unfold register at h
  split at h
  · cases h
  · cases h
    simp [identifiers]

/-- The identifier and the parameters that a raw selection names. -/
def select (family : Family α) : Value → Except VariantError (String × Mapping)
  | .str identifier => .ok (identifier, [])
  | .map [] => .error (.invalidSelector family.name .empty)
  | .map [(identifier, .map parameters)] => .ok (identifier, parameters)
  | .map [(identifier, .null)] => .ok (identifier, [])
  | .map [(identifier, v)] =>
    .error (.invalidSelector family.name (.parameters identifier v.shape))
  | .map entries => .error (.severalSelectors family.name (Mapping.keys entries))
  | v => .error (.invalidSelector family.name (.shape v.shape))

def resolve (family : Family α) (raw : Value) : Except VariantError Instance := do
  let (identifier, parameters) ← family.select raw
  (← family.member identifier).resolve parameters

def build (family : Family α) (i : Instance) : Except VariantError α := do
  (← family.member i.identifier).build i

/-- The typed value of a raw selection. -/
def make (family : Family α) (raw : Value) : Except VariantError α := do
  family.build (← family.resolve raw)

/-- The minimal form of an instance; one of no member is written out in full. -/
def reduce (family : Family α) (i : Instance) : Value :=
  match family.member? i.identifier with
  | some m => m.reduce i
  | none => .map [(i.identifier, .map i.fields)]

/-- The same family with another typed value. -/
def map (f : α → β) (family : Family α) : Family β :=
  { name := family.name
    members := family.members.map fun m =>
      { identifier := m.identifier, fields := m.fields, build := fun i => f <$> m.build i } }

end Family

end WorkloadSpec.Variant
