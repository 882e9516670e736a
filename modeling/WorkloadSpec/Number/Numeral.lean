import WorkloadSpec.Number.Double

/-!
Numerals read from text: digits in a base, and decimal fractions with an
exponent. A decimal is rounded once, correctly, to the nearest double.
-/
namespace WorkloadSpec.Numeral

def digit? (base : Nat) (c : Char) : Option Nat :=
  let n :=
    if '0' ≤ c ∧ c ≤ '9' then c.toNat - '0'.toNat
    else if 'a' ≤ c ∧ c ≤ 'z' then c.toNat - 'a'.toNat + 10
    else if 'A' ≤ c ∧ c ≤ 'Z' then c.toNat - 'A'.toNat + 10
    else base
  if n < base then some n else none

/-- The value of a nonempty string of digits. -/
def natural? (base : Nat) (cs : List Char) : Option Nat :=
  if cs.isEmpty then none
  else cs.foldlM (fun n c => (digit? base c).map (n * base + ·)) 0

/-- Digits after an optional sign. -/
def integer? (base : Nat) : List Char → Option Int
  | '-' :: cs => (natural? base cs).map fun n => -(n : Int)
  | '+' :: cs => (natural? base cs).map Int.ofNat
  | cs => (natural? base cs).map Int.ofNat

/-- `digits * 10 ^ exponent` rounded to the nearest double, infinite when it is too
large. Exponents far outside the range are settled without computing the power. -/
def round (digits : Nat) (exponent : Int) : Float :=
  let leading := exponent + (Nat.log2 digits : Int) * 30103 / 100000
  if digits = 0 ∨ leading < -400 then 0.0
  else if 400 < leading then Float.ofBits 0x7FF0000000000000
  else if 0 ≤ exponent then Float.ofScientific digits false exponent.toNat
  else Float.ofScientific digits true (-exponent).toNat

/-- The parts of a decimal: digits, an optional fraction, an optional exponent. One
digit at least stands before or after the point. -/
def decimal? (cs : List Char) : Option Float :=
  let (negative, cs) :=
    match cs with
    | '-' :: r => (true, r)
    | '+' :: r => (false, r)
    | _ => (false, cs)
  let whole := cs.takeWhile Char.isDigit
  let cs := cs.dropWhile Char.isDigit
  let (fraction, cs) :=
    match cs with
    | '.' :: r => (r.takeWhile Char.isDigit, r.dropWhile Char.isDigit)
    | _ => ([], cs)
  let exponent? : Option Int :=
    match cs with
    | [] => some 0
    | c :: r => if c = 'e' ∨ c = 'E' then integer? 10 r else none
  match natural? 10 (whole ++ fraction), exponent? with
  | some digits, some exponent =>
    let x := round digits (exponent - fraction.length)
    some (if negative then -x else x)
  | _, _ => none

end WorkloadSpec.Numeral
