import WorkloadSpec.Proofs.MinimalForm

/-!
What typed access gives of a field that has come back from a minimal form. A double
comes back numerically equal and everything else as it was, but for a name, which comes
back as the default name when it was unset.
-/
namespace WorkloadSpec

open Variant Member

theorem Value.int64?_toInt (n : Int64) : (Value.int n.toInt).int64? = some n := by
  rw [Value.int64?, if_pos ⟨n.le_toInt, n.toInt_lt⟩, Int64.ofInt_toInt]

theorem Value.eq_of_int64? {v : Value} {n : Int64} (h : v.int64? = some n) :
    v = .int n.toInt := by
  cases v with
  | int k =>
    have hbounds : -0x8000000000000000 ≤ k ∧ k < 0x8000000000000000 := by
      by_contra hout
      rw [Value.int64?, if_neg hout] at h
      cases h
    rw [Value.int64?, if_pos hbounds] at h
    rw [← Option.some.inj h, Int64.toInt_ofInt_of_le hbounds.1 hbounds.2]
  | _ => cases h

namespace Variant

variable {f : FieldSpec} {j : Instance} {name : String} {w : Value}

/-- The field may hold `v`, and its default says the same as itself. -/
structure Sound (f : FieldSpec) (v : Value) : Prop where
  allows : f.allows v = true
  reflexive : ∀ d, f.default = some d → agrees d d = true

theorem Sound.required {kind : FieldKind} {v : Value} (h : kind.accepts v = true) :
    Sound (.required name kind) v where
  allows := Bool.or_eq_true_iff.2 (Or.inr h)
  reflexive := by
    intro d hd
    cases hd

theorem Sound.float (d x : Double) : Sound (.defaulted name .float (.float d)) (.float x) where
  allows := rfl
  reflexive := by
    rintro _ ⟨⟩
    exact d.same_self

theorem Sound.bool (c b : Bool) : Sound (.defaulted name .bool (.bool c)) (.bool b) where
  allows := rfl
  reflexive := by
    rintro _ ⟨⟩
    exact beq_self_eq_true c

theorem eq_null_of_agrees {v : Value} (h : agrees .null v = true) : v = .null := by
  cases v with
  | null => rfl
  | _ => cases h

/-- A name between others that are all different is none of them. -/
theorem not_mem_around {front own back : List String} (h : (front ++ own ++ back).Nodup)
    (hname : name ∈ own) : name ∉ front ++ back := by
  obtain ⟨hfront, -, hlast⟩ := List.nodup_append.1 h
  obtain ⟨-, -, hfirst⟩ := List.nodup_append.1 hfront
  intro hmem
  rcases List.mem_append.1 hmem with hmem | hmem
  · exact hfirst name hmem name hname rfl
  · exact hlast name (List.mem_append_right front hname) name hmem rfl

theorem held_of_get? (h : j.get? f.name = some w) : held j f = w := by
  rw [held, h]
  rfl

theorem ReadsBack.double {x d : Double} (hd : f.default = some (.float d))
    (h : ReadsBack j f (.float x)) :
    ∃ y, j.double f.name = .ok y ∧ y.same x = true ∧ held j f = .float y := by
  obtain ⟨w, hw, hback⟩ := h
  obtain ⟨y, rfl, hsame⟩ : ∃ y, w = .float y ∧ y.same x = true := by
    rcases hback with ⟨rfl, -⟩ | ⟨hdefault, hagrees | ⟨-, hnull⟩⟩
    · exact ⟨x, rfl, x.same_self⟩
    · obtain rfl := Option.some.inj (hd.symm.trans hdefault)
      exact ⟨d, rfl, hagrees⟩
    · cases hnull
  refine ⟨y, ?_, hsame, held_of_get? hw⟩
  rw [Instance.double, Instance.get, hw]
  rfl

theorem ReadsBack.bool {b c : Bool} (hd : f.default = some (.bool c))
    (h : ReadsBack j f (.bool b)) : j.bool f.name = .ok b ∧ held j f = .bool b := by
  obtain ⟨w, hw, hback⟩ := h
  obtain rfl : w = .bool b := by
    rcases hback with ⟨rfl, -⟩ | ⟨hdefault, hagrees | ⟨-, hnull⟩⟩
    · rfl
    · obtain rfl := Option.some.inj (hd.symm.trans hdefault)
      exact congrArg Value.bool (eq_of_beq hagrees)
    · cases hnull
  refine ⟨?_, held_of_get? hw⟩
  rw [Instance.bool, Instance.get, hw]
  rfl

theorem ReadsBack.int64 {n : Int64} (hd : f.default = none)
    (h : ReadsBack j f (.int n.toInt)) : j.int64 f.name = .ok n ∧ held j f = .int n.toInt := by
  obtain ⟨w, hw, ⟨rfl, -⟩ | ⟨hdefault, -⟩⟩ := h
  · refine ⟨?_, held_of_get? hw⟩
    rw [Instance.int64, Instance.get, hw]
    refine Outcome.bind_eq_ok.2 ⟨_, rfl, ?_⟩
    simp only [Value.int64?_toInt]
    rfl
  · rw [hd] at hdefault
    cases hdefault

theorem Tensor.ofValue?_toValue (t : Tensor) : Tensor.ofValue? t.toValue = some t := by
  cases t with
  | name layer => rfl
  | output layer node tensor =>
    rw [Tensor.toValue, Tensor.ofValue?, Value.int64?_toInt, Value.int64?_toInt]
    rfl

/-- Only what is written for a tensor reads as it. -/
theorem Tensor.eq_toValue_of_ofValue? {v : Value} {t : Tensor} (h : Tensor.ofValue? v = some t) :
    v = t.toValue := by
  unfold Tensor.ofValue? at h
  split at h
  · exact Option.some.inj h ▸ rfl
  · obtain ⟨node, hnode, h⟩ := Option.bind_eq_some_iff.1 h
    obtain ⟨tensor, htensor, h⟩ := Option.bind_eq_some_iff.1 h
    rw [Value.eq_of_int64? hnode, Value.eq_of_int64? htensor, ← Option.some.inj h]
    rfl
  · cases h

theorem tensor?_of_get? {t : Tensor} (h : j.get? name = some w)
    (hw : Tensor.ofValue? w = some t) : j.tensor? name = .ok (some t) := by
  rw [Instance.tensor?, h]
  cases w with
  | null => cases hw
  | _ => simp only [hw]

theorem ReadsBack.tensor? {t : Option Tensor} (hd : f.default = some .null)
    (h : ReadsBack j f (Value.ofOption Tensor.toValue t)) :
    j.tensor? f.name = .ok t ∧ held j f = Value.ofOption Tensor.toValue t := by
  obtain ⟨w, hw, hback⟩ := h
  obtain rfl : w = Value.ofOption Tensor.toValue t := by
    rcases hback with ⟨rfl, -⟩ | ⟨hdefault, hagrees | ⟨-, hnull⟩⟩
    · rfl
    · obtain rfl := Option.some.inj (hd.symm.trans hdefault)
      exact (eq_null_of_agrees hagrees).symm
    · exact (Option.some.inj (hdefault.symm.trans hd)).trans hnull.symm
  refine ⟨?_, held_of_get? hw⟩
  cases t with
  | none =>
    rw [Instance.tensor?, hw]
    rfl
  | some t => exact tensor?_of_get? hw t.ofValue?_toValue

/-- A name that is unset comes back as the default name. -/
theorem ReadsBack.string? {n m : Option String} (hd : f.default = some (Value.ofOption .str m))
    (hreduced : f.reduced = true) (h : ReadsBack j f (Value.ofOption .str n)) :
    j.string? f.name = .ok (n.or m) ∧ held j f = Value.ofOption .str (n.or m) := by
  obtain ⟨w, hw, hback⟩ := h
  obtain rfl : w = Value.ofOption .str (n.or m) := by
    rcases hback with ⟨rfl, hnull⟩ | ⟨hdefault, hsays⟩
    · cases n with
      | none => exact absurd rfl (hnull hreduced)
      | some s => rfl
    · obtain rfl := Option.some.inj (hd.symm.trans hdefault)
      cases n with
      | none => rfl
      | some s =>
        have hagrees : agrees (Value.ofOption .str m) (.str s) = true :=
          hsays.resolve_right fun h => by cases h.2
        cases m with
        | none => cases hagrees
        | some t => exact congrArg Value.str (eq_of_beq hagrees)
  refine ⟨?_, held_of_get? hw⟩
  rw [Instance.string?, hw]
  cases n.or m <;> rfl

theorem readable_tensor {i : Instance} {t : Option Tensor} (hkind : f.kind = .tensor)
    (hd : f.default = some .null) (h : held i f = Value.ofOption Tensor.toValue t) :
    Readable i f := by
  refine Or.inr ?_
  rw [h, FieldSpec.allows, FieldSpec.isNullable, hd, hkind]
  cases t with
  | none => rfl
  | some t =>
    refine Bool.or_eq_true_iff.2 (Or.inr ?_)
    change (Tensor.ofValue? t.toValue).isSome = true
    rw [Tensor.ofValue?_toValue]
    rfl

theorem readable_string {i : Instance} {n : Option String} (hkind : f.kind = .str)
    (hreduced : f.reduced = true) (hd : f.default.isSome = true)
    (h : held i f = Value.ofOption .str n) : Readable i f := by
  cases n with
  | none => exact Or.inl ⟨by rw [isDropped, hreduced, h]; rfl, hd⟩
  | some s => exact Or.inr (by rw [h, FieldSpec.allows, hkind]; rfl)

end Variant

end WorkloadSpec
