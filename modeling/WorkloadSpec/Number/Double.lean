/-!
Finite binary64 numbers. A document never holds an infinity or a NaN, so
finiteness is part of the type; arithmetic that may leave the finite range is
done on `Float` and comes back through `ofFloat?`. `Double.binary` gives the
exact value as a sign, a mantissa and a power of two.
-/
namespace WorkloadSpec

structure Double where
  val : Float
  finite : val.isFinite = true
  deriving DecidableEq

/-- The value is `mantissa * 2 ^ exponent`, negated when `negative`. -/
structure Binary where
  negative : Bool
  mantissa : Nat
  exponent : Int
  deriving DecidableEq, Repr

/-- The leading one of a mantissa, which the bit pattern leaves out. -/
def Binary.leadingOne : Nat := 0x10000000000000

namespace Double

def zero : Double := ⟨0.0, by decide⟩

instance : Inhabited Double := ⟨zero⟩

def ofFloat? (x : Float) : Option Double :=
  if h : x.isFinite = true then some ⟨x, h⟩ else none

/-- The nearest double, ties to even. Integers of up to 1023 bits have one. -/
def ofInt (n : Int) : Double := (ofFloat? (Float.ofInt n)).getD zero

/-- Numeric equality, by which the two zeros are equal. -/
def same (x y : Double) : Bool := x.val == y.val

/-- The fields of the bit pattern: a zero exponent field marks a subnormal, whose
mantissa lacks the leading one. -/
def binary (x : Double) : Binary :=
  let bits := x.val.toBits.toNat
  let field := bits / Binary.leadingOne % 0x800
  let fraction := bits % Binary.leadingOne
  { negative := bits / 0x8000000000000000 == 1
    mantissa := if field = 0 then fraction else Binary.leadingOne + fraction
    exponent := ((if field = 0 then 1 else field : Nat) : Int) - 1075 }

/-- The least natural number that is not below the value; zero for negative values. -/
def ceilNat (x : Double) : Nat :=
  let b := x.binary
  if b.negative then 0
  else if 0 ≤ b.exponent then b.mantissa * Nat.pow 2 b.exponent.toNat
  else
    let scale := Nat.pow 2 (-b.exponent).toNat
    (b.mantissa + scale - 1) / scale

/-- The integer a double is equal to, if it is a whole number. -/
def toInt? (x : Double) : Option Int :=
  let b := x.binary
  let magnitude : Option Nat :=
    if 0 ≤ b.exponent then some (b.mantissa * Nat.pow 2 b.exponent.toNat)
    else
      let scale := Nat.pow 2 (-b.exponent).toNat
      if b.mantissa % scale = 0 then some (b.mantissa / scale) else none
  magnitude.map fun n => if b.negative then -(n : Int) else n

theorem ofFloat?_val (x : Double) : ofFloat? x.val = some x := by
  simp [ofFloat?, x.finite]

open Float.Model in
/-- A double is equal to itself, being no NaN. -/
theorem same_self (x : Double) : x.same x = true := by
  obtain ⟨⟨m⟩, hm⟩ := x
  change m.unpack.isFinite = true at hm
  change m.unpack.beq m.unpack = true
  generalize m.unpack = u at hm ⊢
  cases u with
  | infinity sign => cases hm
  | notANumber => cases hm
  | zero sign => rfl
  | finite sign mantissa exponent =>
    have hexponent : compare exponent exponent = .eq := Std.ReflCmp.compare_self
    have hmantissa : compare mantissa mantissa = .eq := Std.ReflCmp.compare_self
    cases sign with
    | negative =>
      change (some ((compare exponent exponent).then (compare mantissa mantissa)).swap ==
        some Ordering.eq) = true
      rw [hexponent, hmantissa]
      rfl
    | positive =>
      change (some ((compare exponent exponent).then (compare mantissa mantissa)) ==
        some Ordering.eq) = true
      rw [hexponent, hmantissa]
      rfl

end Double

end WorkloadSpec
