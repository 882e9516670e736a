import WorkloadSpec.Decode.Error
import WorkloadSpec.Value.Mapping

/-!
Readers and writers of typed values. A codec writes what it reads; its reader
also takes other spellings, such as an integer where a float is due.
-/
namespace WorkloadSpec

structure Codec (α : Type) where
  decode : Value → Except DecodeError α
  encode : α → Value

namespace Codec

def mismatch {α : Type} (v : Value) (expected : String) : Except DecodeError α :=
  .error (.invalidType (.ofValue v) expected)

def value : Codec Value := ⟨.ok, id⟩

def bool : Codec Bool where
  decode
    | .bool b => .ok b
    | v => mismatch v "a boolean"
  encode := .bool

def string : Codec String where
  decode
    | .str s => .ok s
    | v => mismatch v "a string"
  encode := .str

def double : Codec Double where
  decode v :=
    match v.double? with
    | some x => .ok x
    | none => mismatch v "f64"
  encode := .float

/-- Integers from zero up to a bound. -/
def natural {α : Type} (bound : Nat) (title : String) (ofNat : Nat → α) (toNat : α → Nat) :
    Codec α where
  decode
    | .int n =>
      if 0 ≤ n ∧ n < bound then .ok (ofNat n.toNat)
      else .error (.invalidValue (.int n) title)
    | v => mismatch v title
  encode a := .int (toNat a)

def natural32 : Codec UInt32 := natural 0x100000000 "u32" .ofNat UInt32.toNat

def natural64 : Codec UInt64 := natural 0x10000000000000000 "u64" .ofNat UInt64.toNat

/-- A count, which has the width of an address. -/
def count : Codec UInt64 := natural 0x10000000000000000 "usize" .ofNat UInt64.toNat

def mapping : Codec Mapping where
  decode
    | .map entries => .ok entries
    | v => mismatch v "a map"
  encode := .map

def option {α : Type} (c : Codec α) : Codec (Option α) where
  decode
    | .null => .ok none
    | v => some <$> c.decode v
  encode := Value.ofOption c.encode

def list {α : Type} (c : Codec α) : Codec (List α) where
  decode
    | .seq items => items.mapM c.decode
    | v => mismatch v "a sequence"
  encode xs := .seq (xs.map c.encode)

/-- Entries in ascending order of their keys. -/
def sortByKey {α : Type} (entries : List (String × α)) : List (String × α) :=
  entries.mergeSort fun a b => a.1 ≤ b.1

/-- A mapping whose order does not count. -/
def sortedMap {α : Type} (c : Codec α) : Codec (List (String × α)) where
  decode
    | .map entries => sortByKey <$> entries.mapM fun (k, v) => do pure (k, ← c.decode v)
    | v => mismatch v "a map"
  encode entries := .map (entries.map fun (k, a) => (k, c.encode a))

/-- A variant is given by name or as a mapping of its name to its content. -/
def selection : Value → Except DecodeError (String × Option Value)
  | .str name => .ok (name, none)
  | .map [(name, content)] => .ok (name, some content)
  | .map _ => .error (.invalidValue .map "map with a single key")
  | v => mismatch v "string or map"

/-- One of some names without content. Several spellings may mean the same. -/
def choice {α : Type} (spellings : List (String × α)) (name : α → String) : Codec α where
  decode v := do
    let (spelling, content) ← selection v
    match spellings.lookup spelling with
    | none => .error (.unknownVariant spelling (spellings.map Prod.fst))
    | some a =>
      match content with
      | none | some .null => .ok a
      | some content => mismatch content "unit"
  encode a := .str (name a)

end Codec

end WorkloadSpec
