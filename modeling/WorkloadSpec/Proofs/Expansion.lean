import WorkloadSpec.Operator.Expand
import WorkloadSpec.Proofs.Outcome

/-!
How a value is expanded, by what it is: a refused operator, a loop, a branch, or a
plain value. Each form has one equation, and what holds of the parts a form is
expanded through holds of the form; with the two, nothing else has to look into the
expansion itself.
-/
namespace WorkloadSpec

variable {document : Mapping} {scope : Scope} {v : Value}

namespace Operator

theorem read?_map_eq_none {entries : Mapping} :
    read? (.map entries) = .ok none ↔
      "for" ∉ Mapping.keys entries ∧ "if" ∉ Mapping.keys entries := by
  rw [read?, ← Mapping.has_iff_mem_keys, ← Mapping.has_iff_mem_keys]
  cases hfor : Mapping.has entries "for" with
  | true => cases readLoop entries <;> simp [Functor.map, Except.map]
  | false =>
    cases hif : Mapping.has entries "if" with
    | true => cases readBranch entries <;> simp [Functor.map, Except.map]
    | false => simp

/-- A value is made of the parts it is expanded through, down to texts and scalars. -/
theorem induction {motive : Value → Prop}
    (malformed : ∀ v e, read? v = .error e → motive v)
    (loop : ∀ v binding items body, read? v = .ok (some (.loop binding items body)) →
      motive items → motive body → motive v)
    (branch : ∀ v test body otherwise, read? v = .ok (some (.branch test body otherwise)) →
      motive body → (∀ other, otherwise = some other → motive other) → motive v)
    (null : motive .null) (bool : ∀ b, motive (.bool b)) (int : ∀ n, motive (.int n))
    (float : ∀ x, motive (.float x)) (str : ∀ s, motive (.str s))
    (seq : ∀ items, (∀ v ∈ items, motive v) → motive (.seq items))
    (map : ∀ entries, read? (.map entries) = .ok none → (∀ e ∈ entries, motive e.2) →
      motive (.map entries)) (v : Value) : motive v := by
  induction hn : sizeOf v using Nat.strongRecOn generalizing v with
  | ind n ih =>
    subst hn
    have ih : ∀ w, sizeOf w < sizeOf v → motive w := fun w hw => ih _ hw w rfl
    cases hread : read? v with
    | error e => exact malformed v e hread
    | ok form =>
      match form with
      | some (.loop binding items body) =>
        have hsmall := smaller_of_read? hread
        exact loop v binding items body hread (ih _ hsmall.1) (ih _ hsmall.2)
      | some (.branch test body otherwise) =>
        have hsmall := smaller_of_read? hread
        exact branch v test body otherwise hread (ih _ hsmall.1)
          fun other ho => ih _ (hsmall.2 other ho)
      | none =>
        cases v with
        | null => exact null
        | bool b => exact bool b
        | int n => exact int n
        | float x => exact float x
        | str s => exact str s
        | seq items =>
          refine seq items fun w hw => ih w ?_
          have hlt := List.sizeOf_lt_of_mem hw
          simp only [Value.seq.sizeOf_spec]
          omega
        | map entries =>
          refine map entries hread fun e he => ih e.2 ?_
          have hlt := List.sizeOf_lt_of_mem he
          have hpair : sizeOf e.2 < sizeOf e := by
            cases e
            simp only [Prod.mk.sizeOf_spec]
            omega
          simp only [Value.map.sizeOf_spec]
          omega

end Operator

theorem expand_malformed {e : OperatorError} (h : Operator.read? v = .error e) :
    expand document scope v = .error e := by
  rw [expand]
  split
  case h_1 _ hread =>
    cases h.symm.trans hread
    rfl
  all_goals
    next hread => cases h.symm.trans hread

theorem expand_plain (h : Operator.read? v = .ok none) :
    expand document scope v = (fun w => [w]) <$> expandPlain document scope v := by
  rw [expand]
  split
  case h_2 hread =>
    cases h.symm.trans hread
    rfl
  all_goals
    next hread => cases h.symm.trans hread

theorem expand_loop {binding : String} {items body : Value}
    (h : Operator.read? v = .ok (some (.loop binding items body))) :
    expand document scope v = (do
      let found ← iterable document scope items
      let yields ← found.mapM fun item => expand document ((binding, item) :: scope) body
      pure yields.flatten) := by
  rw [expand]
  split
  case h_3 _ _ _ hread =>
    cases h.symm.trans hread
    rfl
  all_goals
    next hread => cases h.symm.trans hread

theorem expand_branch {test body : Value} {otherwise : Option Value}
    (h : Operator.read? v = .ok (some (.branch test body otherwise))) :
    expand document scope v = (do
      if ← condition document scope test then expand document scope body
      else
        match otherwise with
        | some other => expand document scope other
        | none => pure []) := by
  rw [expand]
  split
  case h_4 _ _ _ hread =>
    cases h.symm.trans hread
    cases otherwise <;> rfl
  all_goals
    next hread => cases h.symm.trans hread

theorem expandSlot_plain (h : Operator.read? v = .ok none) :
    expandSlot document scope v = some <$> expandPlain document scope v := by
  rw [expandSlot, h]

/-- In the place of a mapping's value or of a section a loop is the sequence of its yields. -/
theorem expandSlot_loop {binding : String} {items body : Value}
    (h : Operator.read? v = .ok (some (.loop binding items body))) :
    expandSlot document scope v = (fun ws => some (.seq ws)) <$> expand document scope v := by
  rw [expandSlot, h]

/-- What is no loop is the single one of its yields, if there is one. -/
theorem expandSlot_eq_single
    (h : ∀ binding items body, Operator.read? v ≠ .ok (some (.loop binding items body))) :
    expandSlot document scope v = single <$> expand document scope v := by
  rw [expandSlot]
  split
  · next hread =>
    rw [expand_malformed hread]
    rfl
  · next hread =>
    rw [expand_plain hread]
    cases expandPlain document scope v <;> rfl
  · next hread => exact absurd hread (h _ _ _)
  · rfl

/-- What stands in a place is known from the yields alone. -/
theorem expandSlot_congr {other : Mapping} {inner : Scope}
    (h : expand document scope v = expand other inner v) :
    expandSlot document scope v = expandSlot other inner v := by
  by_cases hloop : ∃ binding items body,
      Operator.read? v = .ok (some (.loop binding items body))
  · obtain ⟨binding, items, body, hread⟩ := hloop
    rw [expandSlot_loop hread, expandSlot_loop hread, h]
  · have hread : ∀ binding items body,
        Operator.read? v ≠ .ok (some (.loop binding items body)) :=
      fun binding items body hread => hloop ⟨binding, items, body, hread⟩
    rw [expandSlot_eq_single hread, expandSlot_eq_single hread, h]

theorem expandItems_append (before after : List Value) :
    expandItems document scope (before ++ after) = (do
      let ys ← expandItems document scope before
      let zs ← expandItems document scope after
      pure (ys ++ zs)) := by
  induction before with
  | nil =>
    rw [expandItems]
    cases h : expandItems document scope after <;> simp [h, bind, Except.bind, pure, Except.pure]
  | cons v before ih =>
    rw [List.cons_append, expandItems, expandItems, ih]
    cases expand document scope v with
    | error e => rfl
    | ok ws =>
      cases expandItems document scope before with
      | error e => rfl
      | ok ys =>
        cases expandItems document scope after with
        | error e => rfl
        | ok zs => exact congrArg Except.ok (List.append_assoc ws ys zs).symm

theorem expandEntries_append (before after : Mapping) :
    expandEntries document scope (before ++ after) = (do
      let ys ← expandEntries document scope before
      let zs ← expandEntries document scope after
      pure (ys ++ zs)) := by
  induction before with
  | nil =>
    rw [expandEntries]
    cases h : expandEntries document scope after <;> simp [h, bind, Except.bind, pure, Except.pure]
  | cons e before ih =>
    obtain ⟨key, v⟩ := e
    rw [List.cons_append, expandEntries, expandEntries, ih]
    cases expandSlot document scope v with
    | error e => rfl
    | ok slot =>
      cases expandEntries document scope before with
      | error e => rfl
      | ok ys =>
        cases expandEntries document scope after with
        | error e => rfl
        | ok zs => exact congrArg Except.ok (List.append_assoc _ ys zs).symm

theorem expandPlain_scalar (hstr : ∀ s, v ≠ .str s) (hseq : ∀ vs, v ≠ .seq vs)
    (hmap : ∀ es, v ≠ .map es) : expandPlain document scope v = .ok v := by
  rw [expandPlain]
  · exact hstr
  · exact hseq
  · exact hmap

end WorkloadSpec
