import WorkloadSpec.Decode.Record
import WorkloadSpec.Number.Power

/-!
The candidate values of one hyperparameter: a list, a range with a step, or a
number of points between two ends, evenly spaced or evenly spaced as exponents
of ten. Sizes are counted without producing the values and stay within 64 bits.
-/
namespace WorkloadSpec

/-- The greatest count. -/
def countLimit : Nat := 0xFFFFFFFFFFFFFFFF

inductive Axis where
  | values (candidates : List Value)
  /-- The end is not included. -/
  | range (start stop step : Float)
  /-- Both ends are included. -/
  | linspace (start stop : Float) (num : UInt32)
  | logspace (start stop : Float) (num : UInt32)

namespace Axis

/-- The least count that is not below a number, zero for what is no number. -/
def ceilCount (x : Float) : Nat :=
  match Double.ofFloat? x with
  | some d => min d.ceilNat countLimit
  | none => if 0.0 < x then countLimit else 0

def size : Axis → Nat
  | values candidates => candidates.length
  | range start stop step => if step ≤ 0.0 then 0 else ceilCount ((stop - start) / step)
  | linspace _ _ num => num.toNat
  | logspace _ _ num => num.toNat

/-- Point `index` of `num` points from `start` to `stop`. -/
def point (start stop : Float) (num : UInt32) (index : Nat) : Float :=
  if num ≤ 1 then start
  else start + (stop - start) / Float.ofNat (num.toNat - 1) * Float.ofNat index

/-- Whole numbers of less than 63 bits become integers; what is no number is null. -/
def number (x : Float) : Value :=
  match Double.ofFloat? x with
  | none => .null
  | some d =>
    match d.toInt? with
    | some n => if n.natAbs < 0x8000000000000000 then .int n else .float d
    | none => .float d

def valueAt? (axis : Axis) (index : Nat) : Option Value :=
  if axis.size ≤ index then none
  else
    match axis with
    | values candidates => candidates[index]?
    | range start _ step => some (number (start + step * Float.ofNat index))
    | linspace start stop num => some (number (point start stop num index))
    | logspace start stop num => some (number (Power.powerOfTen (point start stop num index)))

/-- All candidates, in order. -/
def toList (axis : Axis) : List Value := (List.range axis.size).filterMap axis.valueAt?

theorem isSome_valueAt? {axis : Axis} {index : Nat} :
    (axis.valueAt? index).isSome = true ↔ index < axis.size := by
  unfold valueAt?
  split
  · next h => simp; omega
  · next h =>
    refine ⟨fun _ => by omega, fun hi => ?_⟩
    cases axis with
    | values candidates => simpa [size] using hi
    | _ => rfl

theorem length_toList (axis : Axis) : axis.toList.length = axis.size := by
  have h : ∀ index ∈ List.range axis.size, (axis.valueAt? index).isSome = true :=
    fun index hi => isSome_valueAt?.2 (List.mem_range.1 hi)
  rw [toList, List.length_filterMap_eq_countP, List.countP_eq_length.2 h, List.length_range]

def names : List String := ["values", "range", "linspace", "logspace"]

/-- Three numbers in a row; `title` names the row. -/
def triple {α : Type} (title : String) (last : Codec α) :
    Option Value → Except DecodeError (Float × Float × α)
  | none => .error (.invalidType .bareVariant "tuple variant")
  | some (.seq []) => .error (.invalidType .null s!"tuple variant MatrixConfig::{title}")
  | some (.seq items) => do
    let element {β : Type} (i : Nat) (c : Codec β) : Except DecodeError β :=
      match items[i]? with
      | some v => c.decode v
      | none => .error (.invalidLength i s!"tuple variant MatrixConfig::{title} with 3 elements")
    let a ← element 0 .double
    let b ← element 1 .double
    let c ← element 2 last
    if 3 < items.length then .error (.invalidLength items.length Record.excess)
    else pure (a.val, b.val, c)
  | some v => Codec.mismatch v "tuple variant"

def decode (v : Value) : Except DecodeError Axis := do
  let (name, content) ← Codec.selection v
  match name with
  | "values" =>
    match content with
    | none => .error (.invalidType .bareVariant "newtype variant")
    | some v => values <$> Codec.value.list.decode v
  | "range" =>
    let (start, stop, step) ← triple "Range" .double content
    pure (range start stop step.val)
  | "linspace" =>
    let (start, stop, num) ← triple "Linspace" .natural32 content
    pure (linspace start stop num)
  | "logspace" =>
    let (start, stop, num) ← triple "Logspace" .natural32 content
    pure (logspace start stop num)
  | _ => .error (.unknownVariant name names)

/-- Bounds that are no finite number are written as null. -/
def bound (x : Float) : Value := Value.ofOption Value.float (Double.ofFloat? x)

def encode : Axis → Value
  | values candidates => .map [("values", .seq candidates)]
  | range start stop step => .map [("range", .seq [bound start, bound stop, bound step])]
  | linspace start stop num =>
    .map [("linspace", .seq [bound start, bound stop, .int num.toNat])]
  | logspace start stop num =>
    .map [("logspace", .seq [bound start, bound stop, .int num.toNat])]

def codec : Codec Axis := ⟨decode, encode⟩

end Axis

end WorkloadSpec
