import WorkloadSpec.Number.Double

/-!
The shortest decimal that reads back as a given double. A double stands for
every real that rounds to it; the numbers tried are the neighbours of its value
on the grids of one digit, two digits and so on, and the first grid with a
neighbour inside the rounding interval wins. All comparisons are exact.
-/
namespace WorkloadSpec

/-- The value is `digits * 10 ^ exponent`. -/
structure Decimal where
  digits : Nat
  exponent : Int
  deriving DecidableEq, Repr

namespace Binary

/-- A quarter of a unit of the last place is the common measure of the value and
of both ends of its interval, whose lower half is narrower at a power of two. -/
structure Interval where
  low : Nat
  value : Nat
  high : Nat
  closed : Bool
  exponent : Int

def interval (b : Binary) : Interval :=
  let narrow := b.mantissa = Binary.leadingOne ∧ -1074 < b.exponent
  { low := 4 * b.mantissa - (if narrow then 1 else 2)
    value := 4 * b.mantissa
    high := 4 * b.mantissa + 2
    closed := b.mantissa % 2 = 0
    exponent := b.exponent - 2 }

namespace Interval

/-- `scales i k` puts quarters of `i` and multiples of `10 ^ k` on one scale. -/
def scales (i : Interval) (k : Int) : Nat × Nat :=
  (Nat.pow 2 i.exponent.toNat * Nat.pow 10 (-k).toNat,
    Nat.pow 10 k.toNat * Nat.pow 2 (-i.exponent).toNat)

/-- Whether `c * 10 ^ k` rounds to the value. -/
def admits (i : Interval) (k : Int) (c : Nat) : Bool :=
  let (quarter, unit) := i.scales k
  if i.closed then i.low * quarter ≤ c * unit && c * unit ≤ i.high * quarter
  else i.low * quarter < c * unit && c * unit < i.high * quarter

/-- The neighbour of the value among the multiples of `10 ^ k` that rounds to it;
the nearer of two, and the even one when they are equally near. -/
def neighbour? (i : Interval) (k : Int) : Option Nat :=
  let (quarter, unit) := i.scales k
  let below := i.value * quarter / unit
  let rest := i.value * quarter - below * unit
  let upFirst := unit < 2 * rest || (unit == 2 * rest && below % 2 == 1)
  let order := if upFirst then [below + 1, below] else [below, below + 1]
  order.find? fun c => c != 0 && i.admits k c

/-- Tries the grids `10 ^ k`, `10 ^ (k - 1)` and so on. -/
def search (i : Interval) : Nat → Int → Option Decimal
  | 0, _ => none
  | tries + 1, k =>
    match i.neighbour? k with
    | some c => some ⟨c, k⟩
    | none => i.search tries (k - 1)

end Interval

/-- An upper bound, at most two too large, of the exponent of the first digit. -/
def leadingBound (b : Binary) : Int :=
  ((Nat.log2 b.mantissa : Int) + b.exponent + 1) * 30103 / 100000 + 1

end Binary

namespace Decimal

def stripZeros : Nat → Decimal → Decimal
  | 0, d => d
  | steps + 1, d =>
    if d.digits ≠ 0 ∧ d.digits % 10 = 0 then stripZeros steps ⟨d.digits / 10, d.exponent + 1⟩
    else d

end Decimal

/-- Seventeen digits always suffice, so the search has room for its upper bound. -/
def Binary.shortest (b : Binary) : Decimal :=
  if b.mantissa = 0 then ⟨0, 0⟩
  else ((b.interval.search 20 b.leadingBound).getD ⟨0, 0⟩).stripZeros 20

end WorkloadSpec
