import WorkloadSpec.Number.Shortest

/-!
How a double is written. The digits are always the shortest that read back; a
`NumberLayout` says where positional notation ends and how an exponent is
marked.
-/
namespace WorkloadSpec

/-- Numbers whose first digit has an exponent from `least` to `greatest` are
written positionally. -/
structure NumberLayout where
  least : Int
  greatest : Int
  /-- Whether a positive exponent has a sign. -/
  signedExponent : Bool

namespace NumberLayout

def zeros (n : Nat) : String := "".pushn '0' n

/-- Positional notation of `digits * 10 ^ exponent`, always with a point. -/
def positional (digits : String) (exponent : Int) : String :=
  if 0 ≤ exponent then digits ++ zeros exponent.toNat ++ ".0"
  else
    let places := (-exponent).toNat
    if places < digits.length then
      (digits.take (digits.length - places)).toString ++ "." ++
        (digits.drop (digits.length - places)).toString
    else "0." ++ zeros (places - digits.length) ++ digits

def scientific (layout : NumberLayout) (digits : String) (leading : Int) : String :=
  let fraction := (digits.drop 1).toString
  let mantissa :=
    if fraction.isEmpty then digits else (digits.take 1).toString ++ "." ++ fraction
  let sign := if leading < 0 then "-" else if layout.signedExponent then "+" else ""
  mantissa ++ "e" ++ sign ++ toString leading.natAbs

def magnitude (layout : NumberLayout) (d : Decimal) : String :=
  if d.digits = 0 then "0.0"
  else
    let digits := toString d.digits
    let leading := d.exponent + digits.length - 1
    if layout.least ≤ leading ∧ leading ≤ layout.greatest then positional digits d.exponent
    else layout.scientific digits leading

def text (layout : NumberLayout) (x : Double) : String :=
  let b := x.binary
  (if b.negative then "-" else "") ++ layout.magnitude b.shortest

end NumberLayout

end WorkloadSpec
