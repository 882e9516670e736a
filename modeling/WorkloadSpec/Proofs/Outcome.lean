import Mathlib.Data.List.Forall2
import WorkloadSpec.Error

/-!
How the outcomes of steps are taken apart. A chain of steps yields a value just
when every step does, and a list of steps just when each of its steps does. Later
proofs open a function with these and never by its cases. What a search finds, and where a
list of steps fails, is the first element that has a property.
-/
namespace WorkloadSpec

/-- The first element of a list that has a property. -/
structure FirstOf {α : Type} (p : α → Prop) (xs : List α) (x : α) : Prop where
  holds : p x
  none_before : ∃ before after, xs = before ++ x :: after ∧ ∀ y ∈ before, ¬p y

theorem find?_eq_some_iff_firstOf {α : Type} {p : α → Prop} {q : α → Bool} {xs : List α} {x : α}
    (hq : ∀ x, q x = true ↔ p x) : xs.find? q = some x ↔ FirstOf p xs x := by
  have hnot : ∀ x, (!q x) = true ↔ ¬p x := fun x => by
    rw [← hq x, Bool.not_eq_true', Bool.not_eq_true]
  simp only [List.find?_eq_some_iff_append, hq, hnot]
  constructor
  · rintro ⟨hx, before, after, hxs, hbefore⟩
    exact ⟨hx, before, after, hxs, hbefore⟩
  · rintro ⟨hx, before, after, hxs, hbefore⟩
    exact ⟨hx, before, after, hxs, hbefore⟩

theorem FirstOf.unique {α : Type} {p : α → Prop} {xs : List α} {x y : α} (hx : FirstOf p xs x)
    (hy : FirstOf p xs y) : x = y := by
  classical
  have hq : ∀ x, decide (p x) = true ↔ p x := fun _ => decide_eq_true_iff
  exact Option.some.inj
    (((find?_eq_some_iff_firstOf hq).2 hx).symm.trans ((find?_eq_some_iff_firstOf hq).2 hy))

theorem FirstOf.mem {α : Type} {p : α → Prop} {xs : List α} {x : α} (h : FirstOf p xs x) :
    x ∈ xs := by
  obtain ⟨-, before, after, rfl, -⟩ := h
  exact List.mem_append_right before List.mem_cons_self

/-- What does not hold of all elements fails at a first one. -/
theorem not_forall_iff_exists_firstOf {α : Type} {p : α → Prop} {xs : List α} :
    (¬∀ x ∈ xs, p x) ↔ ∃ x, FirstOf (¬p ·) xs x := by
  classical
  have hq : ∀ x, decide (¬p x) = true ↔ ¬p x := fun _ => decide_eq_true_iff
  simp only [← find?_eq_some_iff_firstOf hq, ← Option.isSome_iff_exists, List.find?_isSome, hq,
    not_forall, exists_prop]

theorem not_firstOf_nil {α : Type} {p : α → Prop} {x : α} : ¬FirstOf p [] x := by
  rintro ⟨-, before, after, hxs, -⟩
  cases before <;> cases hxs

theorem firstOf_cons {α : Type} {p : α → Prop} {xs : List α} {x y : α} :
    FirstOf p (y :: xs) x ↔ p y ∧ y = x ∨ ¬p y ∧ FirstOf p xs x := by
  constructor
  · rintro ⟨hx, before, after, hxs, hbefore⟩
    cases before with
    | nil =>
      obtain ⟨rfl, -⟩ := List.cons.inj hxs
      exact .inl ⟨hx, rfl⟩
    | cons z before =>
      obtain ⟨rfl, rfl⟩ := List.cons.inj hxs
      obtain ⟨hy, hbefore⟩ := List.forall_mem_cons.1 hbefore
      exact .inr ⟨hy, hx, before, after, rfl, hbefore⟩
  · rintro (⟨hy, rfl⟩ | ⟨hy, hx, before, after, rfl, hbefore⟩)
    · exact ⟨hy, [], xs, rfl, List.forall_mem_nil _⟩
    · exact ⟨hx, y :: before, after, rfl, List.forall_mem_cons.2 ⟨hy, hbefore⟩⟩

namespace Outcome

variable {ε δ α β : Type}

theorem bind_eq_ok {x : Except ε α} {f : α → Except ε β} {b : β} :
    x >>= f = .ok b ↔ ∃ a, x = .ok a ∧ f a = .ok b := by
  cases x with
  | error e =>
    constructor
    · intro h
      cases h
    · rintro ⟨a, ha, -⟩
      cases ha
  | ok a =>
    constructor
    · intro h
      exact ⟨a, rfl, h⟩
    · rintro ⟨c, hc, h⟩
      exact Except.ok.inj hc ▸ h

/-- A chain of two steps fails as the first does, or as the second does on its result. -/
theorem bind_eq_error {x : Except ε α} {f : α → Except ε β} {e : ε} :
    x >>= f = .error e ↔ x = .error e ∨ ∃ a, x = .ok a ∧ f a = .error e := by
  cases x with
  | error d =>
    constructor
    · intro h
      exact .inl (congrArg Except.error (Except.error.inj h))
    · rintro (h | ⟨a, h, -⟩)
      · exact congrArg Except.error (Except.error.inj h)
      · cases h
  | ok a =>
    constructor
    · intro h
      exact .inr ⟨a, rfl, h⟩
    · rintro (h | ⟨b, h, hb⟩)
      · cases h
      · exact Except.ok.inj h ▸ hb

theorem map_eq_ok {x : Except ε α} {f : α → β} {b : β} :
    f <$> x = .ok b ↔ ∃ a, x = .ok a ∧ f a = b := by
  cases x <;> simp [Functor.map, Except.map]

theorem map_eq_error {x : Except ε α} {f : α → β} {e : ε} :
    f <$> x = .error e ↔ x = .error e := by
  cases x <;> simp [Functor.map, Except.map]

theorem map_preserves {P : β → Prop} {x : Except ε α} {f : α → β} {b : β}
    (hf : ∀ a, x = .ok a → P (f a)) (h : f <$> x = .ok b) : P b := by
  obtain ⟨a, ha, rfl⟩ := map_eq_ok.1 h
  exact hf a ha

theorem mapError_ok {f : ε → δ} {x : Except ε α} {a : α} :
    x.mapError f = .ok a ↔ x = .ok a := by
  cases x with
  | error e =>
    constructor
    · intro h
      cases h
    · intro h
      cases h
  | ok b => exact ⟨fun h => congrArg _ (Except.ok.inj h), fun h => congrArg _ (Except.ok.inj h)⟩

theorem pure_eq_ok {a b : α} : (pure a : Except ε α) = .ok b ↔ a = b :=
  ⟨Except.ok.inj, congrArg _⟩

/-- A check that stops what follows it. -/
theorem guard_bind_eq_ok {c : Prop} [Decidable c] {e : ε} {f : α → Except ε β} {x : Except ε β}
    {b : β} : (if c then Except.error e >>= f else x) = .ok b ↔ ¬c ∧ x = .ok b := by
  by_cases hc : c
  · rw [if_pos hc]
    constructor
    · intro h
      cases h
    · intro h
      exact absurd hc h.1
  · rw [if_neg hc, and_iff_right hc]

theorem guard_eq_ok {c : Prop} [Decidable c] {e : ε} {x : Except ε β} {b : β} :
    (if c then Except.error e else x) = .ok b ↔ ¬c ∧ x = .ok b :=
  guard_bind_eq_ok (f := Except.ok)

theorem forM_eq_ok {f : α → Except ε Unit} {xs : List α} :
    xs.forM f = .ok () ↔ ∀ x ∈ xs, f x = .ok () := by
  induction xs with
  | nil => exact ⟨fun _ x hx => absurd hx List.not_mem_nil, fun _ => rfl⟩
  | cons x xs ih =>
    rw [List.forall_mem_cons, ← ih]
    constructor
    · intro h
      obtain ⟨⟨⟩, hx, hxs⟩ := bind_eq_ok.1 h
      exact ⟨hx, hxs⟩
    · rintro ⟨hx, hxs⟩
      exact bind_eq_ok.2 ⟨(), hx, hxs⟩

theorem toOption_eq_some {x : Except ε α} {a : α} : x.toOption = some a ↔ x = .ok a := by
  cases x <;> simp [Except.toOption]

/-- A document error is carried over as it is. -/
theorem lift_document_eq_ok {x : Except DocumentError α} {a : α} :
    (liftM x : Except ResolutionError α) = .ok a ↔ x = .ok a := mapError_ok

theorem lift_variant_eq_ok {x : Except VariantError α} {a : α} :
    (liftM x : Except ResolutionError α) = .ok a ↔ x = .ok a := mapError_ok

/-- Every item of the input has its result at the same place of the output. -/
theorem mapM_eq_ok {f : α → Except ε β} {xs : List α} {ys : List β} :
    xs.mapM f = .ok ys ↔ List.Forall₂ (fun x y => f x = .ok y) xs ys := by
  induction xs generalizing ys with
  | nil => rw [List.mapM_nil, pure_eq_ok, List.forall₂_nil_left_iff, eq_comm]
  | cons x xs ih =>
    rw [List.mapM_cons, List.forall₂_cons_left_iff]
    simp only [bind_eq_ok, pure_eq_ok, ih]
    constructor
    · rintro ⟨y, hy, zs, hzs, rfl⟩
      exact ⟨y, zs, hy, hzs, rfl⟩
    · rintro ⟨y, zs, hy, hzs, rfl⟩
      exact ⟨y, hy, zs, hzs, rfl⟩

/-- A list of steps fails with the error of the first step that fails. -/
theorem mapM_eq_error {f : α → Except ε β} {xs : List α} {e : ε} :
    xs.mapM f = .error e ↔ ∃ before x after, xs = before ++ x :: after ∧
      (∀ y ∈ before, ∃ b, f y = .ok b) ∧ f x = .error e := by
  induction xs with
  | nil =>
    constructor
    · intro h
      cases h
    · rintro ⟨before, x, after, hxs, -⟩
      cases before <;> cases hxs
  | cons x xs ih =>
    rw [List.mapM_cons]
    cases hx : f x with
    | error d =>
      change (Except.error d : Except ε (List β)) = .error e ↔ _
      constructor
      · intro h
        obtain rfl := Except.error.inj h
        exact ⟨[], x, xs, rfl, fun y hy => absurd hy List.not_mem_nil, hx⟩
      · rintro ⟨before, y, after, hxs, hbefore, hy⟩
        cases before with
        | nil =>
          obtain ⟨rfl, -⟩ := List.cons.inj hxs
          exact congrArg _ (Except.error.inj (hx.symm.trans hy))
        | cons z before =>
          obtain ⟨rfl, -⟩ := List.cons.inj hxs
          obtain ⟨b, hb⟩ := hbefore x List.mem_cons_self
          cases hx.symm.trans hb
    | ok b =>
      have hrest : (do let bs ← xs.mapM f; pure (b :: bs)) = .error e ↔ xs.mapM f = .error e := by
        cases xs.mapM f <;> simp [bind, Except.bind, pure, Except.pure]
      change (do let bs ← xs.mapM f; pure (b :: bs)) = .error e ↔ _
      rw [hrest, ih]
      constructor
      · rintro ⟨before, y, after, rfl, hbefore, hy⟩
        exact ⟨x :: before, y, after, rfl, List.forall_mem_cons.2 ⟨⟨b, hx⟩, hbefore⟩, hy⟩
      · rintro ⟨before, y, after, hxs, hbefore, hy⟩
        cases before with
        | nil =>
          obtain ⟨rfl, -⟩ := List.cons.inj hxs
          cases hx.symm.trans hy
        | cons z before =>
          obtain ⟨-, rfl⟩ := List.cons.inj hxs
          exact ⟨before, y, after, rfl, (List.forall_mem_cons.1 hbefore).2, hy⟩

theorem mapM_eq_error_iff_firstOf {f : α → Except ε β} {xs : List α} {e : ε} :
    xs.mapM f = .error e ↔ ∃ x, FirstOf (fun x => ¬∃ b, f x = .ok b) xs x ∧ f x = .error e := by
  rw [mapM_eq_error]
  constructor
  · rintro ⟨before, x, after, rfl, hbefore, hx⟩
    refine ⟨x, ⟨?_, before, after, rfl, fun y hy => not_not.2 (hbefore y hy)⟩, hx⟩
    rintro ⟨b, hb⟩
    cases hx.symm.trans hb
  · rintro ⟨x, ⟨-, before, after, rfl, hbefore⟩, hx⟩
    exact ⟨before, x, after, rfl, fun y hy => not_not.1 (hbefore y hy), hx⟩

theorem exists_of_mem_forall₂ {R : α → β → Prop} {xs : List α} {ys : List β}
    (h : List.Forall₂ R xs ys) {y : β} (hy : y ∈ ys) : ∃ x ∈ xs, R x y := by
  induction h with
  | nil => exact absurd hy List.not_mem_nil
  | @cons x _ _ _ hr _ ih =>
    rcases List.mem_cons.1 hy with rfl | hy
    · exact ⟨x, List.mem_cons_self, hr⟩
    · obtain ⟨z, hz, hzr⟩ := ih hy
      exact ⟨z, List.mem_cons_of_mem x hz, hzr⟩

theorem exists_of_mapM_option {f : α → Except ε β} {o : Option α} {p : Option β}
    (h : o.mapM f = .ok p) {b : β} (hb : b ∈ p) : ∃ a, f a = .ok b := by
  cases o with
  | none =>
    obtain rfl := pure_eq_ok.1 h
    cases hb
  | some a =>
    obtain ⟨c, hc, rfl⟩ := map_eq_ok.1 h
    obtain rfl := Option.some.inj hb
    exact ⟨a, hc⟩

/-- What every step keeps, a run of steps keeps. -/
theorem foldlM_preserves {P : β → Prop} {f : β → α → Except ε β} {xs : List α} {b c : β}
    (hstep : ∀ x ∈ xs, ∀ s t, P s → f s x = .ok t → P t) (hb : P b)
    (h : xs.foldlM f b = .ok c) : P c := by
  induction xs generalizing b with
  | nil => exact Except.ok.inj h ▸ hb
  | cons x xs ih =>
    rw [List.foldlM_cons] at h
    obtain ⟨s, hs, hrest⟩ := bind_eq_ok.1 h
    exact ih (fun y hy => hstep y (List.mem_cons_of_mem x hy))
      (hstep x List.mem_cons_self b s hb hs) hrest

/-- Steps that may change places lead to the same end in any order. -/
theorem foldlM_perm {f : β → α → Except ε β} {xs ys : List α} (hperm : xs.Perm ys)
    (hcomm : ∀ x ∈ xs, ∀ y ∈ xs, x ≠ y → ∀ s u t, f s x = .ok u → f u y = .ok t →
      ∃ w, f s y = .ok w ∧ f w x = .ok t)
    {s t : β} (h : xs.foldlM f s = .ok t) : ys.foldlM f s = .ok t := by
  induction hperm generalizing s with
  | nil => exact h
  | @cons x xs ys _ ih =>
    rw [List.foldlM_cons] at h ⊢
    obtain ⟨u, hu, hrest⟩ := bind_eq_ok.1 h
    refine bind_eq_ok.2 ⟨u, hu, ih (fun y hy z hz => ?_) hrest⟩
    exact hcomm y (List.mem_cons_of_mem x hy) z (List.mem_cons_of_mem x hz)
  | swap x y xs =>
    by_cases hxy : y = x
    · exact hxy ▸ h
    · rw [List.foldlM_cons] at h ⊢
      obtain ⟨u, hu, h⟩ := bind_eq_ok.1 h
      obtain ⟨v, hv, hrest⟩ := bind_eq_ok.1 h
      obtain ⟨w, hw, hwv⟩ :=
        hcomm y List.mem_cons_self x (List.mem_cons_of_mem y List.mem_cons_self) hxy s u v hu hv
      exact bind_eq_ok.2 ⟨w, hw, bind_eq_ok.2 ⟨v, hwv, hrest⟩⟩
  | trans hxs _ ihx ihy =>
    refine ihy (fun x hx y hy => ?_) (ihx hcomm h)
    exact hcomm x (hxs.mem_iff.2 hx) y (hxs.mem_iff.2 hy)

end Outcome

end WorkloadSpec
