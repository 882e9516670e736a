import WorkloadSpec.Operator.Error
import WorkloadSpec.Value.Mapping

/-!
Operators as they are written: a mapping with the key `for`, or else with the
key `if`. Any other value is plain. What an operator holds is smaller than the
operator, so values can be expanded by going down.
-/
namespace WorkloadSpec

def isWordChar (c : Char) : Bool := c.isAlphanum || c == '_'

def isWord (cs : List Char) : Bool := !cs.isEmpty && cs.all isWordChar

/-- A word that does not begin with a digit. -/
def isBinding (cs : List Char) : Bool := isWord cs && !(cs.head?.any Char.isDigit)

inductive Operator where
  /-- One yield of the body for each item. -/
  | loop (binding : String) (iterable body : Value)
  | branch (condition body : Value) (otherwise : Option Value)

namespace Operator

/-- Refuses keys that the operator does not have. -/
def checkKeys (entries : Mapping) (operator : String) (allowed : List String) :
    Except OperatorError Unit :=
  match (Mapping.keys entries).find? fun key => !allowed.contains key with
  | some key => .error (.malformed (.unexpectedKey key operator allowed))
  | none => .ok ()

def part (entries : Mapping) (operator key : String) : Except OperatorError Value :=
  match entries.lookup key with
  | some v => .ok v
  | none => .error (.malformed (.missingKey operator key))

def readLoop (entries : Mapping) : Except OperatorError Operator := do
  checkKeys entries "for" ["for", "in", "do"]
  let binding ← part entries "for" "for"
  let iterable ← part entries "for" "in"
  let body ← part entries "for" "do"
  match binding with
  | .str name =>
    if isBinding name.toList then pure (loop name iterable body)
    else .error (.malformed (.notABinding binding))
  | _ => .error (.malformed (.notABinding binding))

def readBranch (entries : Mapping) : Except OperatorError Operator := do
  checkKeys entries "if" ["if", "do", "else"]
  let condition ← part entries "if" "if"
  let body ← part entries "if" "do"
  pure (branch condition body (entries.lookup "else"))

/-- The operator a value is, or nothing for a plain value. -/
def read? : Value → Except OperatorError (Option Operator)
  | .map entries =>
    if Mapping.has entries "for" then some <$> readLoop entries
    else if Mapping.has entries "if" then some <$> readBranch entries
    else .ok none
  | _ => .ok none

end Operator

mutual

/-- Whether there is an operator anywhere in a value. -/
def holdsOperators : Value → Bool
  | .map entries =>
    Mapping.has entries "for" || Mapping.has entries "if" || entriesHoldOperators entries
  | .seq items => itemsHoldOperators items
  | _ => false

def itemsHoldOperators : List Value → Bool
  | [] => false
  | v :: vs => holdsOperators v || itemsHoldOperators vs

def entriesHoldOperators : List (String × Value) → Bool
  | [] => false
  | (_, v) :: es => holdsOperators v || entriesHoldOperators es

end

theorem itemsHoldOperators_eq_false {vs : List Value} :
    itemsHoldOperators vs = false ↔ ∀ v ∈ vs, holdsOperators v = false := by
  induction vs with
  | nil => simp [itemsHoldOperators]
  | cons v vs ih => simp [itemsHoldOperators, ih]

theorem entriesHoldOperators_eq_false {es : List (String × Value)} :
    entriesHoldOperators es = false ↔ ∀ e ∈ es, holdsOperators e.2 = false := by
  induction es with
  | nil => simp [entriesHoldOperators]
  | cons e es ih => simp [entriesHoldOperators, ih]

theorem holdsOperators_seq_eq_false {vs : List Value} :
    holdsOperators (.seq vs) = false ↔ ∀ v ∈ vs, holdsOperators v = false := by
  rw [holdsOperators, itemsHoldOperators_eq_false]

theorem holdsOperators_map_eq_false {es : Mapping} :
    holdsOperators (.map es) = false ↔
      "for" ∉ Mapping.keys es ∧ "if" ∉ Mapping.keys es ∧
        ∀ e ∈ es, holdsOperators e.2 = false := by
  rw [holdsOperators, Bool.or_eq_false_iff, Bool.or_eq_false_iff, entriesHoldOperators_eq_false,
    ← Bool.not_eq_true, ← Bool.not_eq_true, Mapping.has_iff_mem_keys, Mapping.has_iff_mem_keys,
    and_assoc]

end WorkloadSpec
