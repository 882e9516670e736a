import WorkloadSpec.Operator.Template

/-!
Expanding a value against a document. In a sequence an operator puts its yields
in its place; as the value of a key or as a whole section a loop becomes a
sequence, and a branch its single yield, a sequence of several, or nothing.
Data that is looked up is not expanded, so expansion goes down the value only.
-/
namespace WorkloadSpec

/-- Whether a condition holds. -/
def truth? : Value → Option Bool
  | .bool b => some b
  | .int n => some (n != 0)
  | .str s =>
    let word := s.toLower
    if ["true", "yes", "on", "1"].contains word then some true
    else if ["false", "no", "off", "0"].contains word then some false
    else none
  | _ => none

def condition (document : Mapping) (scope : Scope) (v : Value) : Except OperatorError Bool := do
  let (text, found) ←
    match v with
    | .str s => pure (Reference.bare s, ← resolveReference document scope (Reference.bare s))
    | v => pure (Json.compact v, v)
  match truth? found with
  | some b => pure b
  | none => .error (.type text "a boolean-like scalar" found.shape)

namespace Operator

theorem sizeOf_lookup {entries : Mapping} {key : String} {v : Value}
    (h : entries.lookup key = some v) : sizeOf v < sizeOf entries := by
  induction entries with
  | nil => simp at h
  | cons e es ih =>
    obtain ⟨k, w⟩ := e
    rw [Mapping.lookup_cons] at h
    split at h
    · obtain rfl := Option.some.inj h
      simp only [List.cons.sizeOf_spec, Prod.mk.sizeOf_spec]
      omega
    · have := ih h
      simp only [List.cons.sizeOf_spec]
      omega

theorem part_eq_ok {entries : Mapping} {operator key : String} {v : Value}
    (h : part entries operator key = .ok v) : entries.lookup key = some v := by
  unfold part at h
  split at h
  · next hl => rw [hl]; exact congrArg some (Except.ok.inj h)
  · cases h

/-- What an operator holds is smaller than the value it is written as. -/
def smaller (v : Value) : Operator → Prop
  | loop _ iterable body => sizeOf iterable < sizeOf v ∧ sizeOf body < sizeOf v
  | branch _ body otherwise =>
    sizeOf body < sizeOf v ∧ ∀ other, otherwise = some other → sizeOf other < sizeOf v

theorem smaller_of_readLoop {entries : Mapping} {op : Operator}
    (h : readLoop entries = .ok op) : op.smaller (.map entries) := by
  unfold readLoop at h
  simp only [bind, Except.bind] at h
  split at h
  · cases h
  split at h
  · cases h
  split at h
  · cases h
  next hin =>
  split at h
  · cases h
  next hdo =>
  have hi := sizeOf_lookup (part_eq_ok hin)
  have hd := sizeOf_lookup (part_eq_ok hdo)
  split at h
  · split at h
    · obtain rfl := Except.ok.inj h
      simp only [smaller, Value.map.sizeOf_spec]
      omega
    · cases h
  · cases h

theorem smaller_of_readBranch {entries : Mapping} {op : Operator}
    (h : readBranch entries = .ok op) : op.smaller (.map entries) := by
  unfold readBranch at h
  simp only [bind, Except.bind] at h
  split at h
  · cases h
  split at h
  · cases h
  split at h
  · cases h
  next hdo =>
  have hd := sizeOf_lookup (part_eq_ok hdo)
  obtain rfl := Except.ok.inj h
  refine ⟨by simp only [Value.map.sizeOf_spec]; omega, fun other ho => ?_⟩
  have := sizeOf_lookup ho
  simp only [Value.map.sizeOf_spec]
  omega

theorem smaller_of_read? {v : Value} {op : Operator} (h : read? v = .ok (some op)) :
    op.smaller v := by
  cases v with
  | map entries =>
    simp only [read?] at h
    split at h
    · cases hl : readLoop entries with
      | error e => simp [hl, Functor.map, Except.map] at h
      | ok o =>
        simp only [hl, Functor.map, Except.map, Except.ok.injEq, Option.some.injEq] at h
        exact h ▸ smaller_of_readLoop hl
    · split at h
      · cases hb : readBranch entries with
        | error e => simp [hb, Functor.map, Except.map] at h
        | ok o =>
          simp only [hb, Functor.map, Except.map, Except.ok.injEq, Option.some.injEq] at h
          exact h ▸ smaller_of_readBranch hb
      · simp at h
  | _ => simp [read?] at h

end Operator

/-- What a branch yields, where one value is wanted. -/
def single : List Value → Option Value
  | [] => none
  | [v] => some v
  | vs => some (.seq vs)

mutual

/-- The values a value yields: a plain value itself, an operator any number. -/
def expand (document : Mapping) (scope : Scope) (v : Value) : Except OperatorError (List Value) :=
  match h : Operator.read? v with
  | .error e => .error e
  | .ok none => (fun w => [w]) <$> expandPlain document scope v
  | .ok (some (.loop binding items body)) => do
    have := Operator.smaller_of_read? h
    let found ← iterable document scope items
    let yields ← found.mapM fun item => expand document ((binding, item) :: scope) body
    pure yields.flatten
  | .ok (some (.branch test body otherwise)) => do
    have := Operator.smaller_of_read? h
    if ← condition document scope test then expand document scope body
    else
      match _h : otherwise with
      | some other => expand document scope other
      | none => pure []
termination_by (sizeOf v, 1)
decreasing_by
  · exact Prod.Lex.right _ (by omega)
  · exact Prod.Lex.left _ _ this.1
  · exact Prod.Lex.left _ _ this.2
  · exact Prod.Lex.left _ _ this.1
  · exact Prod.Lex.left _ _ (this.2 _ ‹_›)

/-- The value in the place of a mapping's value or of a section. -/
def expandSlot (document : Mapping) (scope : Scope) (v : Value) :
    Except OperatorError (Option Value) :=
  match Operator.read? v with
  | .error e => .error e
  | .ok none => some <$> expandPlain document scope v
  | .ok (some (.loop _ _ _)) => (fun vs => some (.seq vs)) <$> expand document scope v
  | .ok (some (.branch _ _ _)) => single <$> expand document scope v
termination_by (sizeOf v, 2)

/-- A value that is no operator itself. -/
def expandPlain (document : Mapping) (scope : Scope) (v : Value) : Except OperatorError Value :=
  match v with
  | .str s => (Template.ofString s).render document scope
  | .seq items => .seq <$> expandItems document scope items
  | .map entries => .map <$> expandEntries document scope entries
  | v => .ok v
termination_by (sizeOf v, 0)

def expandItems (document : Mapping) (scope : Scope) (items : List Value) :
    Except OperatorError (List Value) :=
  match items with
  | [] => .ok []
  | v :: vs => do
    let yields ← expand document scope v
    let rest ← expandItems document scope vs
    pure (yields ++ rest)
termination_by (sizeOf items, 0)

/-- Entries with nothing for a value are dropped. -/
def expandEntries (document : Mapping) (scope : Scope) (entries : Mapping) :
    Except OperatorError Mapping :=
  match entries with
  | [] => .ok []
  | (key, v) :: es => do
    let slot ← expandSlot document scope v
    let rest ← expandEntries document scope es
    pure ((slot.map (key, ·)).toList ++ rest)
termination_by (sizeOf entries, 0)

/-- The items a loop goes over: those of a sequence, referred to or written out. -/
def iterable (document : Mapping) (scope : Scope) (v : Value) :
    Except OperatorError (List Value) :=
  match v with
  | .str s => do
    match ← resolveReference document scope (Reference.bare s) with
    | .seq items => pure items
    | found => .error (.type (Reference.bare s) "a sequence" found.shape)
  | .seq items => expandItems document scope items
  | v => .error (.type (Json.compact v) "a sequence" v.shape)
termination_by (sizeOf v, 1)

end

/-- A section with its operators expanded; one that yields nothing is null. -/
def expandSection (document : Mapping) (v : Value) : Except OperatorError Value :=
  (·.getD .null) <$> expandSlot document [] v

end WorkloadSpec
