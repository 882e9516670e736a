import WorkloadSpec.Number.Double

/-!
Powers of ten. A whole exponent is reached by squaring, with one reciprocal at
the end for negative ones, which fixes the rounding of every step; any other
exponent is left to the platform's power function.
-/
namespace WorkloadSpec.Power

/-- `r * a ^ n` by repeated squaring, multiplying from the lowest bit up. -/
def squaring (r a : Float) (n : Nat) : Float :=
  let r := if n % 2 = 1 then r * a else r
  if n / 2 = 0 then r else squaring r (a * a) (n / 2)
termination_by n
decreasing_by omega

/-- Whole exponents are held within 32 bits. -/
def wholePower (base : Float) (n : Int) : Float :=
  let n := max (-0x80000000) (min 0x7FFFFFFF n)
  let p := squaring 1.0 base n.natAbs
  if n < 0 then 1.0 / p else p

def powerOfTen (exponent : Float) : Float :=
  match (Double.ofFloat? exponent).bind Double.toInt? with
  | some n => wholePower 10.0 n
  | none => Float.pow 10.0 exponent

end WorkloadSpec.Power
