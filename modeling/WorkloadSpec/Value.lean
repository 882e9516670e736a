import WorkloadSpec.Number.Double

/-!
Document values. A mapping is a list of entries in written order; the readers
never produce a repeated key. Integers and floats are different values even
when they are numerically equal.
-/
namespace WorkloadSpec

inductive Value where
  | null
  | bool (b : Bool)
  | int (n : Int)
  | float (x : Double)
  | str (s : String)
  | seq (items : List Value)
  | map (entries : List (String × Value))
  deriving Inhabited

abbrev Mapping := List (String × Value)

namespace Value

/-- The shape of a value, as messages name it. -/
def shape : Value → String
  | null => "null"
  | bool _ => "a boolean"
  | int _ => "an integer"
  | float _ => "a float"
  | str _ => "a string"
  | seq _ => "a sequence"
  | map _ => "a mapping"

def isNull : Value → Bool
  | null => true
  | _ => false

def isNumber : Value → Bool
  | int _ | float _ => true
  | _ => false

/-- The double nearest to a number. -/
def double? : Value → Option Double
  | int n => some (Double.ofInt n)
  | float x => some x
  | _ => none

/-- An integer within 64 signed bits. -/
def int64? : Value → Option Int64
  | int n => if -0x8000000000000000 ≤ n ∧ n < 0x8000000000000000 then some (Int64.ofInt n) else none
  | _ => none

/-- A document holds integers of 64 bits, with a sign or without one. -/
def ofInt? (n : Int) : Option Value :=
  if -0x8000000000000000 ≤ n ∧ n < 0x10000000000000000 then some (.int n) else none

def ofOption {α : Type} (f : α → Value) : Option α → Value
  | some a => f a
  | none => null

mutual

/-- Equality of documents: the order of a mapping's entries does not count, and
floats are compared as numbers. -/
def same : Value → Value → Bool
  | null, null => true
  | bool a, bool b => a == b
  | int a, int b => a == b
  | float x, float y => x.same y
  | str s, str t => s == t
  | seq vs, seq ws => sameItems vs ws
  | map es, map fs => es.length == fs.length && sameEntries es fs
  | _, _ => false

def sameItems : List Value → List Value → Bool
  | [], [] => true
  | v :: vs, w :: ws => same v w && sameItems vs ws
  | _, _ => false

/-- Whether every entry of the first list has an equal one in the second. -/
def sameEntries : List (String × Value) → List (String × Value) → Bool
  | [], _ => true
  | (k, v) :: es, fs =>
    (match fs.lookup k with
      | some w => same v w
      | none => false) && sameEntries es fs

end

@[simp] theorem isNull_iff {v : Value} : v.isNull = true ↔ v = null := by
  cases v <;> simp [isNull]

end Value

end WorkloadSpec
