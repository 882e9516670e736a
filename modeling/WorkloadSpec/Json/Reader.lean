import WorkloadSpec.Value.Mapping
import WorkloadSpec.Number.Numeral

/-!
Values read from JSON text. A number without fraction and exponent that fits 64
bits is an integer, any other number a float. Of a repeated key the first place
and the last value count. Every step of the reader costs one unit of fuel and
reads at least one character, so the length of the text is enough.
-/
namespace WorkloadSpec.Json

def skipBlanks (cs : List Char) : List Char :=
  cs.dropWhile fun c => c == ' ' || c == '\n' || c == '\t' || c == '\r'

/-- Pairs of surrogate units become one character; a lone one is refused. -/
def joinUnits : List Nat → Option (List Char)
  | [] => some []
  | [n] => if n.isValidChar then some [Char.ofNat n] else none
  | high :: low :: rest =>
    if 0xD800 ≤ high ∧ high < 0xDC00 ∧ 0xDC00 ≤ low ∧ low < 0xE000 then
      (joinUnits rest).map (Char.ofNat (0x10000 + (high - 0xD800) * 0x400 + (low - 0xDC00)) :: ·)
    else if high.isValidChar then (joinUnits (low :: rest)).map (Char.ofNat high :: ·)
    else none

def shortEscape? (c : Char) : Option Nat :=
  if c = '"' ∨ c = '\\' ∨ c = '/' then some c.toNat
  else if c = 'b' then some 8
  else if c = 'f' then some 12
  else if c = 'n' then some 10
  else if c = 'r' then some 13
  else if c = 't' then some 9
  else none

/-- The code units up to the closing quote, and what follows it. -/
def stringUnits : List Nat → List Char → Option (List Nat × List Char)
  | _, [] => none
  | units, '"' :: rest => some (units.reverse, rest)
  | units, '\\' :: 'u' :: a :: b :: c :: d :: rest =>
    match Numeral.natural? 16 [a, b, c, d] with
    | some n => stringUnits (n :: units) rest
    | none => none
  | units, '\\' :: c :: rest =>
    match shortEscape? c with
    | some n => stringUnits (n :: units) rest
    | none => none
  | units, c :: rest => if c.toNat < 0x20 then none else stringUnits (c.toNat :: units) rest

def string? (cs : List Char) : Option (String × List Char) :=
  match stringUnits [] cs with
  | some (units, rest) => (joinUnits units).map fun chars => (String.ofList chars, rest)
  | none => none

def numberChars (c : Char) : Bool :=
  c.isDigit || c == '-' || c == '+' || c == '.' || c == 'e' || c == 'E'

def number? (cs : List Char) : Option Value :=
  let float := ((Numeral.decimal? cs).bind Double.ofFloat?).map Value.float
  if cs.all fun c => c.isDigit || c == '-' then
    match Numeral.integer? 10 cs with
    | some n => Value.ofInt? n <|> float
    | none => none
  else float

def keyword? (word : String) (v : Value) (cs : List Char) : Option (Value × List Char) :=
  if word.toList.isPrefixOf cs then some (v, cs.drop word.length) else none

mutual

def value? : Nat → List Char → Option (Value × List Char)
  | 0, _ => none
  | fuel + 1, cs =>
    match skipBlanks cs with
    | '"' :: rest => (string? rest).map fun (s, rest) => (.str s, rest)
    | '[' :: rest =>
      match skipBlanks rest with
      | ']' :: rest => some (.seq [], rest)
      | rest => items? fuel [] rest
    | '\x7b' :: rest =>
      match skipBlanks rest with
      | '\x7d' :: rest => some (.map [], rest)
      | rest => entries? fuel [] rest
    | 't' :: rest => keyword? "rue" (.bool true) rest
    | 'f' :: rest => keyword? "alse" (.bool false) rest
    | 'n' :: rest => keyword? "ull" .null rest
    | cs => (number? (cs.takeWhile numberChars)).map fun v => (v, cs.dropWhile numberChars)

def items? : Nat → List Value → List Char → Option (Value × List Char)
  | 0, _, _ => none
  | fuel + 1, done, cs =>
    match value? fuel cs with
    | none => none
    | some (v, rest) =>
      match skipBlanks rest with
      | ',' :: rest => items? fuel (v :: done) rest
      | ']' :: rest => some (.seq (v :: done).reverse, rest)
      | _ => none

def entries? : Nat → List (String × Value) → List Char → Option (Value × List Char)
  | 0, _, _ => none
  | fuel + 1, done, cs =>
    match skipBlanks cs with
    | '"' :: rest =>
      match string? rest with
      | none => none
      | some (key, rest) =>
        match skipBlanks rest with
        | ':' :: rest =>
          match value? fuel rest with
          | none => none
          | some (v, rest) =>
            match skipBlanks rest with
            | ',' :: rest => entries? fuel ((key, v) :: done) rest
            | '\x7d' :: rest => some (.map (Mapping.ofEntries ((key, v) :: done).reverse), rest)
            | _ => none
        | _ => none
    | _ => none

end

def parse? (text : String) : Option Value :=
  let cs := text.toList
  match value? (2 * cs.length + 2) cs with
  | some (v, rest) => if (skipBlanks rest).isEmpty then some v else none
  | none => none

end WorkloadSpec.Json
