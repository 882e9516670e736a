import WorkloadSpec.Proofs.FieldReading

/-!
The minimal form of what was resolved is its normal form. Resolved again it gives an instance
of the same member, with the same fields in the same order; a number that is default may come
back as the number the default is written as, and every other value comes back as it was.
The minimal form of that instance is the same form. The members of a family only have to
declare distinct names and defaults of the declared kind.
-/
namespace WorkloadSpec

open Variant Member

/-- The same value, or two numbers with the same nearest double. -/
def Value.Alike (v w : Value) : Prop :=
  v = w ∨ ∃ x y, v.double? = some x ∧ w.double? = some y ∧ x.same y = true

namespace Variant

variable {α : Type} {m : Member α} {i j : Instance} {f : FieldSpec} {kind : FieldKind}
  {v w : Value}

theorem Tensor.eq_of_agrees {t u : Tensor} (h : agrees t.toValue u.toValue = true) : t = u := by
  cases t with
  | name layer =>
    cases u with
    | name other => exact congrArg Tensor.name (eq_of_beq h)
    | output => cases h
  | output layer node tensor =>
    cases u with
    | name => cases h
    | output layer' node' tensor' =>
      change ((layer == layer') && ((node.toInt == node'.toInt) &&
        ((tensor.toInt == tensor'.toInt) && true))) = true at h
      simp only [Bool.and_eq_true, beq_iff_eq, Int64.toInt_inj, and_true] at h
      obtain ⟨rfl, rfl, rfl⟩ := h
      rfl

theorem Tensor.agrees_self (t : Tensor) : agrees t.toValue t.toValue = true := by
  cases t with
  | name layer => exact beq_self_eq_true layer
  | output layer node tensor =>
    change ((layer == layer) && ((node.toInt == node.toInt) &&
      ((tensor.toInt == tensor.toInt) && true))) = true
    simp only [beq_self_eq_true, Bool.and_true]

theorem exists_double?_of_isNumber (h : v.isNumber = true) : ∃ x, v.double? = some x := by
  cases v with
  | int n => exact ⟨_, rfl⟩
  | float x => exact ⟨x, rfl⟩
  | _ => cases h

/-- What a kind accepts says the same as itself. -/
theorem FieldKind.agrees_self (h : kind.accepts v = true) : agrees v v = true := by
  have hnumber : v.isNumber = true → agrees v v = true := by
    intro hv
    obtain ⟨x, hx⟩ := exists_double?_of_isNumber hv
    rw [agrees_of_double? hx hx]
    exact x.same_self
  cases kind with
  | float => exact hnumber h
  | int =>
    cases v with
    | int n => exact hnumber rfl
    | _ => cases h
  | bool =>
    cases v with
    | bool b => exact beq_self_eq_true b
    | _ => cases h
  | str =>
    cases v with
    | str s => exact beq_self_eq_true s
    | _ => cases h
  | tensor =>
    obtain ⟨t, ht⟩ := Option.isSome_iff_exists.1 h
    rw [Tensor.eq_toValue_of_ofValue? ht]
    exact t.agrees_self

/-- Of the values of one kind only numbers may say the same and be different. -/
theorem FieldKind.alike_of_agrees (hv : kind.accepts v = true) (hw : kind.accepts w = true)
    (h : agrees v w = true) : v.Alike w := by
  have hnumbers : v.isNumber = true → w.isNumber = true → v.Alike w := by
    intro hv hw
    obtain ⟨x, hx⟩ := exists_double?_of_isNumber hv
    obtain ⟨y, hy⟩ := exists_double?_of_isNumber hw
    rw [agrees_of_double? hx hy] at h
    exact Or.inr ⟨x, y, hx, hy, h⟩
  cases kind with
  | float => exact hnumbers hv hw
  | int =>
    cases v with
    | int n =>
      cases w with
      | int k => exact hnumbers rfl rfl
      | _ => cases hw
    | _ => cases hv
  | bool =>
    cases v with
    | bool b =>
      cases w with
      | bool c => exact Or.inl (congrArg Value.bool (eq_of_beq h))
      | _ => cases hw
    | _ => cases hv
  | str =>
    cases v with
    | str s =>
      cases w with
      | str t => exact Or.inl (congrArg Value.str (eq_of_beq h))
      | _ => cases hw
    | _ => cases hv
  | tensor =>
    obtain ⟨t, ht⟩ := Option.isSome_iff_exists.1 hv
    obtain ⟨u, hu⟩ := Option.isSome_iff_exists.1 hw
    rw [Tensor.eq_toValue_of_ofValue? ht, Tensor.eq_toValue_of_ofValue? hu] at h ⊢
    exact Or.inl (congrArg Tensor.toValue (Tensor.eq_of_agrees h))

theorem FieldSpec.accepts_of_allows (h : f.allows v = true) (hnull : v ≠ .null) :
    f.kind.accepts v = true := by
  rcases Bool.or_eq_true_iff.1 h with hunset | haccepts
  · exact absurd (Value.isNull_iff.1 (Bool.and_eq_true_iff.1 hunset).1) hnull
  · exact haccepts

namespace Member

/-- Defaults other than null are of the kind of their field. -/
def DefaultsAccepted (m : Member α) : Prop :=
  ∀ f ∈ m.fields, ∀ d, f.default = some d → d ≠ .null → f.kind.accepts d = true

theorem DefaultsAccepted.defaultsAgree (h : m.DefaultsAccepted) : m.DefaultsAgree := by
  intro f hf d hd
  by_cases hnull : d = .null
  · rw [hnull]
    rfl
  · exact FieldKind.agrees_self (h f hf d hd hnull)

/-- A default is allowed where it stands. -/
theorem DefaultsAccepted.allows (h : m.DefaultsAccepted) (hf : f ∈ m.fields) {d : Value}
    (hd : f.default = some d) : f.allows d = true := by
  unfold FieldSpec.allows
  by_cases hnull : d = .null
  · rw [FieldSpec.isNullable, hd, hnull]
    rfl
  · rw [h f hf d hd hnull, Bool.or_true]

theorem held_of_resolve {parameters : Mapping} (hnames : m.Distinct)
    (h : m.resolve parameters = .ok i) (hf : f ∈ m.fields) :
    i.get? f.name = some (held i f) ∧ m.fieldValue parameters f = .ok (held i f) := by
  obtain ⟨v, hget, hv⟩ := get?_of_resolve hnames h hf
  rw [held_of_get? hget]
  exact ⟨hget, hv⟩

/-- Resolving gives each field a value that it allows. -/
theorem allows_held {parameters : Mapping} (hnames : m.Distinct) (hdefaults : m.DefaultsAccepted)
    (h : m.resolve parameters = .ok i) (hf : f ∈ m.fields) : f.allows (held i f) = true := by
  obtain ⟨-, hvalue⟩ := held_of_resolve hnames h hf
  rcases allows_of_fieldValue hvalue with hallows | hdefault
  · exact hallows
  · exact hdefaults.allows hf hdefault

/-- An instance that was resolved lists the declared fields. -/
theorem fields_of_resolve {parameters : Mapping} (hnames : m.Distinct)
    (h : m.resolve parameters = .ok i) :
    i.identifier = m.identifier ∧ i.fields = m.fields.map fun f => (f.name, held i f) := by
  have hvalues : ∀ f ∈ m.fields, m.fieldValue parameters f = .ok (held i f) :=
    fun f hf => (held_of_resolve hnames h hf).2
  obtain ⟨entries, hi, hread⟩ := exists_of_resolve h
  have hkeys := nodup_keys_of_fields hnames (hread.imp fun _ _ he => he.1)
  have hentries : List.Forall₂ (fun f e => (f.name, held i f) = e) m.fields entries := by
    have hpaired := (List.forall₂_and_left m.fields entries).2 ⟨hvalues, hread⟩
    refine hpaired.imp fun f e he => ?_
    obtain ⟨hheld, hname, hv⟩ := he
    exact Prod.ext hname (Except.ok.inj (hheld.symm.trans hv))
  rw [← List.forall₂_map_left_iff, List.forall₂_eq_eq_eq] at hentries
  refine ⟨by rw [hi], ?_⟩
  rw [hentries, hi]
  exact Mapping.ofEntries_eq_self hkeys

/-- What a field allows comes back alike. -/
theorem Returns.alike (hdefaults : m.DefaultsAccepted) (hf : f ∈ m.fields)
    (hv : f.allows v = true) (h : Returns f v w) : w.Alike v := by
  rcases h with ⟨rfl, -⟩ | ⟨hd, hsays⟩
  · exact Or.inl rfl
  · by_cases hnull : v = .null
    · have hdefault : f.default = some .null := FieldSpec.default_of_allows_null (hnull ▸ hv)
      exact Or.inl ((Option.some.inj (hd.symm.trans hdefault)).trans hnull.symm)
    · have hagrees : agrees w v = true := hsays.resolve_right fun hunset => hnull hunset.2
      have hw : f.kind.accepts w = true := by
        refine hdefaults f hf w hd ?_
        rintro rfl
        exact hnull (eq_null_of_agrees hagrees)
      have hv : f.kind.accepts v = true := FieldSpec.accepts_of_allows hv hnull
      exact FieldKind.alike_of_agrees hw hv hagrees

end Member

/-- Reducing what was resolved and resolving it again loses nothing: the fields are the same,
in the same order, with alike values, and the reduced form is the same once more. -/
theorem Family.resolve_reduce {family : Family α} {raw : Value}
    (hfamily : ∀ m ∈ family.members, m.Distinct ∧ m.DefaultsAccepted)
    (h : family.resolve raw = .ok i) :
    ∃ j, family.resolve (family.reduce i) = .ok j ∧ j.identifier = i.identifier ∧
      List.Forall₂ (fun e e' => e.1 = e'.1 ∧ e.2.Alike e'.2) j.fields i.fields ∧
      family.reduce j = family.reduce i := by
  obtain ⟨m, hmem, parameters, hm, hresolve⟩ := exists_of_resolve h
  obtain ⟨hnames, hdefaults⟩ := hfamily m hmem
  obtain ⟨hidentifier, hfields⟩ := fields_of_resolve hnames hresolve
  have hallows : ∀ f ∈ m.fields, f.allows (held i f) = true :=
    fun f hf => allows_held hnames hdefaults hresolve hf
  have hreadable : ∀ f ∈ m.fields, Readable i f := fun f hf => Or.inr (hallows f hf)
  refine ⟨m.reread i, ?_, hidentifier.symm, ?_, ?_⟩
  · rw [← hidentifier] at hm
    exact resolve_reduce_eq hm hnames hreadable
  · rw [hfields, reread, List.forall₂_map_left_iff, List.forall₂_map_right_iff,
      List.forall₂_same]
    intro f hf
    exact ⟨rfl, (returns_restored hf (hreadable f hf)).alike hdefaults hf (hallows f hf)⟩
  · rw [Family.reduce, Family.reduce, hidentifier, reread, hm]
    refine reduce_restored hdefaults.defaultsAgree hreadable fun f hf => ?_
    exact held_of_get? (get?_reread hnames hf)

/-- A member whose default is an integer where any number will do. -/
def constant : Member Double where
  identifier := "Constant"
  fields := [.defaulted "value" .float (.int 1),
    { FieldSpec.optional "layer" .tensor with reduced := true }]
  build i := i.double "value"

def initializers : Family Double := ⟨"initializer", [constant]⟩

/-- A float that says the same as the default comes back as the integer that the default is. -/
theorem Family.resolve_reduce_constant :
    (Family.empty "initializer").register constant = .ok initializers ∧
      (∀ m ∈ initializers.members, m.Distinct ∧ m.DefaultsAccepted) ∧
      ∃ i j, initializers.resolve (.map [("Constant", .map [("value", .float (.ofInt 1))])]) =
          .ok i ∧
        i.fields = [("value", .float (.ofInt 1)), ("layer", .null)] ∧
        initializers.reduce i = .str "Constant" ∧
        initializers.resolve (initializers.reduce i) = .ok j ∧
        j.fields = [("value", .int 1), ("layer", .null)] ∧
        List.Forall₂ (fun e e' => e.1 = e'.1 ∧ e.2.Alike e'.2) j.fields i.fields ∧
        initializers.reduce j = .str "Constant" := by
  have hfamily : ∀ m ∈ initializers.members, m.Distinct ∧ m.DefaultsAccepted := by
    have hnames : (constant.fields.map FieldSpec.name).Nodup := by decide
    refine List.forall_mem_singleton.2 ⟨hnames, ?_⟩
    refine List.forall_mem_cons.2 ⟨?_, List.forall_mem_singleton.2 ?_⟩
    · rintro d ⟨⟩ -
      rfl
    · rintro d ⟨⟩ hnull
      exact absurd rfl hnull
  have hresolve : initializers.resolve (.map [("Constant", .map [("value", .float (.ofInt 1))])]) =
      .ok ⟨"Constant", [("value", .float (.ofInt 1)), ("layer", .null)]⟩ := rfl
  have hreduce : initializers.reduce
      ⟨"Constant", [("value", .float (.ofInt 1)), ("layer", .null)]⟩ = .str "Constant" := by
    rfl
  obtain ⟨j, hj, -, halike, hsame⟩ := Family.resolve_reduce hfamily hresolve
  have hfields : j.fields = [("value", .int 1), ("layer", .null)] := by
    rw [hreduce] at hj
    cases hj
    rfl
  exact ⟨rfl, hfamily, _, j, hresolve, rfl, hreduce, hj, hfields, halike, hsame.trans hreduce⟩

end Variant

end WorkloadSpec
