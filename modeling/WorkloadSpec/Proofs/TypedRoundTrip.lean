import WorkloadSpec.Proofs.LossRoundTrip
import WorkloadSpec.Proofs.OptimizerRoundTrip

/-!
Typed losses and optimizers are read back from what is written of them, whatever options are set
and wherever the value comes from. There is one exception. A name that is unset is not written,
and where a form goes by a name of its own, what is read has that name; so a loss of this form
without a name comes back with one. No selection makes such a loss, but one can be built.
-/
namespace WorkloadSpec

namespace Loss

variable {l k : Loss}

/-- A loss without a name whose form goes by one when none is given. -/
def Nameless (l : Loss) : Prop := l.name = none ∧ ∃ dim, l.form = .kullbackLeiberDivergence dim

theorem defaultName_eq_none {form : LossForm} (h : ∀ dim, form ≠ .kullbackLeiberDivergence dim) :
    form.defaultName = none := by
  cases form with
  | kullbackLeiberDivergence dim => exact absurd rfl (h dim)
  | _ => rfl

/-- Any other loss goes by the name that it has. -/
theorem named_of_not_nameless (h : ¬l.Nameless) : l.named = l := by
  have hname : l.name.or l.form.defaultName = l.name := by
    cases hn : l.name with
    | some name => exact Option.some_or
    | none =>
      have hform : ∀ dim, l.form ≠ .kullbackLeiberDivergence dim := by
        intro dim hdim
        exact h ⟨hn, dim, hdim⟩
      rw [defaultName_eq_none hform]
      rfl
  rw [named, hname]

theorem Nameless.named_name (h : l.Nameless) :
    l.named.name = some "KullbackLeiberDivergence" := by
  obtain ⟨hname, dim, hform⟩ := h
  rw [named, hname, hform]
  rfl

/-- Under the name it goes by it is another loss. -/
theorem Nameless.not_same (h : l.Nameless) (hk : k.Same l.named) : ¬k.Same l := by
  intro hsame
  have hgiven : k.name = some "KullbackLeiberDivergence" := hk.name.trans h.named_name
  have hunset : k.name = none := hsame.name.trans h.1
  rw [hunset] at hgiven
  cases hgiven

theorem same_iff_not_nameless (hk : k.Same l.named) : k.Same l ↔ ¬l.Nameless := by
  constructor
  · intro hsame hnameless
    exact hnameless.not_same hk hsame
  · intro h
    rwa [named_of_not_nameless h] at hk

/-- A selection always gives a name where the form goes by one. -/
theorem not_nameless_of_make {raw : Value} (h : family.make raw = .ok l) : ¬l.Nameless := by
  intro hnameless
  have hgiven : l.name = some "KullbackLeiberDivergence" := by
    rw [← hnameless.named_name, named_of_make h]
  rw [hnameless.1] at hgiven
  cases hgiven

/-- A divergence with all options as they are by default. -/
def divergence : Loss := { form := .kullbackLeiberDivergence 2, weights := .ofInt 1 }

theorem nameless_divergence : divergence.Nameless := ⟨rfl, 2, rfl⟩

end Loss

/-- What is written of a loss or an optimizer is read back, and what is read is equal to it, its
doubles compared as numbers. Only a loss without a name, of the form that goes by one of its own,
comes back as something else, namely under that name; and no selection makes such a loss. -/
theorem typed_variants_read_back :
    (∀ l : Loss, ∃ k, Loss.family.make l.toValue = .ok k ∧ k.Same l.named ∧
      (k.Same l ↔ ¬l.Nameless)) ∧
    (∀ raw l, Loss.family.make raw = .ok l → ¬l.Nameless) ∧
    ∀ o : Optimizer, ∃ p, Optimizer.family.make o.toValue = .ok p ∧ p.Same o := by
  refine ⟨fun l => ?_, fun raw l h => Loss.not_nameless_of_make h, fun o => ?_⟩
  · obtain ⟨k, hmake, hnamed, -⟩ := l.exists_make_toValue
    exact ⟨k, hmake, hnamed, Loss.same_iff_not_nameless hnamed⟩
  · obtain ⟨p, hmake, hsame, -⟩ := o.exists_make_toValue
    exact ⟨p, hmake, hsame⟩

/-- Not every typed value is read back: a divergence that is built without a name is not. -/
theorem exists_variant_not_read_back :
    ¬((∀ l : Loss, ∃ k, Loss.family.make l.toValue = .ok k ∧ k.Same l) ∧
      ∀ o : Optimizer, ∃ p, Optimizer.family.make o.toValue = .ok p ∧ p.Same o) := by
  rintro ⟨hlosses, -⟩
  obtain ⟨k, hmake, hsame⟩ := hlosses Loss.divergence
  obtain ⟨j, hmade, hnamed, -⟩ := Loss.divergence.exists_make_toValue
  obtain rfl := Except.ok.inj (hmade.symm.trans hmake)
  exact Loss.nameless_divergence.not_same hnamed hsame

/-- The divergence comes back with a name, and then again as it is. -/
theorem typed_variants_read_back_divergence :
    Loss.divergence.Nameless ∧ ∃ k, Loss.family.make Loss.divergence.toValue = .ok k ∧
      ¬k.Same Loss.divergence ∧ k.name = some "KullbackLeiberDivergence" ∧
      ∃ j, Loss.family.make k.toValue = .ok j ∧ j.Same k := by
  obtain ⟨hlosses, hselected, -⟩ := typed_variants_read_back
  obtain ⟨k, hmake, hnamed, hiff⟩ := hlosses Loss.divergence
  obtain ⟨j, hmakes, -, hsame⟩ := hlosses k
  refine ⟨Loss.nameless_divergence, k, hmake, ?_, ?_, j, hmakes, hsame.2 (hselected _ k hmake)⟩
  · intro hk
    exact hiff.1 hk Loss.nameless_divergence
  · exact hnamed.name.trans Loss.nameless_divergence.named_name

end WorkloadSpec
