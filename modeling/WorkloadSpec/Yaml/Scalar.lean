import WorkloadSpec.Value
import WorkloadSpec.Number.Numeral

/-!
What an untagged plain scalar stands for. Numbers have a sign, a base mark for
bases other than ten, and in base ten no leading zero; what looks like nothing
else is text.
-/
namespace WorkloadSpec.Yaml

inductive PlainScalar where
  | null
  | bool (b : Bool)
  | int (n : Int)
  | float (x : Float)
  | text

namespace PlainScalar

def null? (s : String) : Bool := ["null", "Null", "NULL", "~"].contains s

def bool? (s : String) : Option Bool :=
  if ["true", "True", "TRUE"].contains s then some true
  else if ["false", "False", "FALSE"].contains s then some false
  else none

/-- Digits after a zero, which are never a number. -/
def isPadded (cs : List Char) : Bool :=
  let digits :=
    match cs with
    | '-' :: r => r
    | '+' :: r => r
    | _ => cs
  digits.head? == some '0' && digits.length != 1 && digits.all Char.isDigit

/-- An unsigned integer: a base mark and digits, or decimal digits. -/
def magnitude? : List Char → Option Nat
  | '0' :: 'x' :: r => Numeral.natural? 16 r
  | '0' :: 'o' :: r => Numeral.natural? 8 r
  | '0' :: 'b' :: r => Numeral.natural? 2 r
  | cs => if isPadded cs then none else Numeral.natural? 10 cs

/-- One more than the greatest integer of 128 bits. -/
def wideLimit : Nat := 0x100000000000000000000000000000000

/-- An integer of at most 128 bits. -/
def int? (cs : List Char) : Option Int :=
  let positive (cs : List Char) : Option Int :=
    (magnitude? cs).bind fun n => if n < wideLimit then some n else none
  match cs with
  | '-' :: r => (magnitude? r).bind fun n => if 2 * n ≤ wideLimit then some (-n) else none
  | '+' :: r => positive r
  | cs => positive cs

/-- A decimal within the range of doubles, or the name of an infinity or NaN. -/
def float? (s : String) : Option Float :=
  let unsigned :=
    match s.toList with
    | '+' :: r => r
    | cs => cs
  if s.startsWith "+" ∧ unsigned.head?.any (fun c => c == '+' || c == '-') then none
  else if [".inf", ".Inf", ".INF"].contains (String.ofList unsigned) then some (1.0 / 0.0)
  else if ["-.inf", "-.Inf", "-.INF"].contains s then some (-1.0 / 0.0)
  else if [".nan", ".NaN", ".NAN"].contains s then some (0.0 / 0.0)
  else (Numeral.decimal? unsigned).filter Float.isFinite

def read (s : String) : PlainScalar :=
  if s.isEmpty ∨ null? s then null
  else
    match bool? s, int? s.toList with
    | some b, _ => bool b
    | none, some n => int n
    | none, none =>
      if isPadded s.toList then text
      else
        match float? s with
        | some x => float x
        | none => text

end PlainScalar

/-- An infinity or a NaN is no document value and reads as null. -/
def floatValue (x : Float) : Value := Value.ofOption Value.float (Double.ofFloat? x)

/-- The value of a plain scalar whose text is `s`. -/
def plainValue? (s : String) : Option Value :=
  match PlainScalar.read s with
  | .null => some .null
  | .bool b => some (.bool b)
  | .int n => Value.ofInt? n
  | .float x => some (floatValue x)
  | .text => some (.str s)

end WorkloadSpec.Yaml
