import WorkloadSpec.Decode.Codec

/-!
Records with named fields. A record is read from a mapping, or from a sequence
that gives its fields in order; either way a field that may be left out keeps
the value it has in the blank record. Fields that hold nothing are not written.
-/
namespace WorkloadSpec

structure Field (σ : Type) where
  name : String
  mandatory : Bool
  read : Value → σ → Except DecodeError σ
  /-- Nothing, when the field is left out. -/
  write : σ → Option Value

namespace Field

variable {σ α : Type}

def required (name : String) (c : Codec α) (get : σ → α) (set : σ → α → σ) : Field σ where
  name
  mandatory := true
  read v s := set s <$> c.decode v
  write s := some (c.encode (get s))

/-- A field with a default, which is written all the same. -/
def defaulted (name : String) (c : Codec α) (get : σ → α) (set : σ → α → σ) : Field σ where
  name
  mandatory := false
  read v s := set s <$> c.decode v
  write s := some (c.encode (get s))

def optional (name : String) (c : Codec α) (get : σ → Option α) (set : σ → Option α → σ) :
    Field σ where
  name
  mandatory := false
  read v s := set s <$> c.option.decode v
  write s := (get s).map c.encode

def many (name : String) (c : Codec α) (get : σ → List α) (set : σ → List α → σ) : Field σ where
  name
  mandatory := false
  read v s := set s <$> c.list.decode v
  write s := if (get s).isEmpty then none else some (c.list.encode (get s))

end Field

structure Record (σ : Type) where
  title : String
  blank : σ
  fields : List (Field σ)

namespace Record

variable {σ : Type}

def names (r : Record σ) : List String := r.fields.map Field.name

def field? (r : Record σ) (name : String) : Option (Field σ) :=
  r.fields.find? fun f => f.name == name

def readEntries (r : Record σ) : List (String × Value) → σ → Except DecodeError σ
  | [], s => .ok s
  | (key, v) :: entries, s =>
    match r.field? key with
    | none => .error (.unknownField key r.names)
    | some f => f.read v s >>= r.readEntries entries

def missing? (r : Record σ) (entries : Mapping) : Option (Field σ) :=
  r.fields.find? fun f => f.mandatory && !Mapping.has entries f.name

/-- How many elements a fixed row has, in words. -/
def elements (n : Nat) : String := if n = 1 then "1 element" else s!"{n} elements"

def excess : String := "fewer elements in array"

/-- Fields in order from a sequence of `total` items, of which `done` are read. -/
def readItems (r : Record σ) (total : Nat) :
    List (Field σ) → Nat → List Value → σ → Except DecodeError σ
  | [], _, [], s => .ok s
  | [], _, _ :: _, _ => .error (.invalidLength total excess)
  | f :: fields, done, [], s =>
    if f.mandatory then
      .error (.invalidLength done s!"struct {r.title} with {elements r.fields.length}")
    else r.readItems total fields (done + 1) [] s
  | f :: fields, done, v :: items, s => f.read v s >>= r.readItems total fields (done + 1) items

def decode (r : Record σ) : Value → Except DecodeError σ
  | .map entries => do
    let s ← r.readEntries entries r.blank
    match r.missing? entries with
    | some f => .error (.missingField f.name)
    | none => pure s
  | .seq items => r.readItems items.length r.fields 0 items r.blank
  | v => Codec.mismatch v s!"struct {r.title}"

def encode (r : Record σ) (s : σ) : Value :=
  .map (r.fields.filterMap fun f => (f.write s).map (f.name, ·))

def codec (r : Record σ) : Codec σ := ⟨r.decode, r.encode⟩

end Record

end WorkloadSpec
