import Mathlib.Data.List.Nodup
import WorkloadSpec.Proofs.Outcome
import WorkloadSpec.Variant.Family

/-!
The minimal form of an instance, read again. A field that was left out comes back as
its default and every other one as it was, so that the minimal form of what was read
is the same once more.
-/
namespace WorkloadSpec.Variant

open Mapping

variable {α : Type}

theorem agrees_of_double? {v w : Value} {x y : Double} (hv : v.double? = some x)
    (hw : w.double? = some y) : agrees v w = x.same y := by
  unfold agrees
  rw [hv, hw]

theorem FieldSpec.isDefault_eq_true {f : FieldSpec} {v : Value} :
    f.isDefault v = true ↔ ∃ d, f.default = some d ∧ agrees d v = true := by
  unfold isDefault
  rw [Option.any_eq_true]

theorem FieldKind.accepts_null (kind : FieldKind) : kind.accepts .null = false := by
  cases kind <;> rfl

/-- Null is allowed only where it is the default. -/
theorem FieldSpec.default_of_allows_null {f : FieldSpec} (h : f.allows .null = true) :
    f.default = some .null := by
  rw [allows, FieldKind.accepts_null, Bool.or_false] at h
  obtain ⟨d, hd, hnull⟩ := (Option.any_eq_true _ _).1 (Bool.and_eq_true_iff.1 h).2
  rw [hd, Value.isNull_iff.1 hnull]

namespace Member

variable {m : Member α} {i j : Instance} {f : FieldSpec}

/-- No two fields have the same name. -/
def Distinct (m : Member α) : Prop := (m.fields.map FieldSpec.name).Nodup

theorem keys_of_fields {entries : Mapping} {fields : List FieldSpec}
    (h : List.Forall₂ (fun f e => f.name = e.1) fields entries) :
    keys entries = fields.map FieldSpec.name := by
  have hnames : List.Forall₂ Eq (fields.map FieldSpec.name) (entries.map Prod.fst) :=
    List.forall₂_map_left_iff.2 (List.forall₂_map_right_iff.2 h)
  rw [List.forall₂_eq_eq_eq] at hnames
  exact hnames.symm

theorem nodup_keys_of_fields {entries : Mapping} (hnames : m.Distinct)
    (h : List.Forall₂ (fun f e => f.name = e.1) m.fields entries) : (keys entries).Nodup := by
  rw [keys_of_fields h]
  exact hnames

theorem isNone_field?_iff {key : String} :
    (m.field? key).isNone = true ↔ key ∉ m.fields.map FieldSpec.name := by
  rw [Option.isNone_iff_eq_none, field?, List.find?_eq_none, List.mem_map, not_exists]
  refine forall_congr' fun f => ?_
  rw [beq_iff_eq, not_and]

/-- The first parameter that is no field is refused before any field is looked at. -/
theorem resolve_of_unknown {parameters : Mapping} {key : String}
    (h : FirstOf (· ∉ m.fields.map FieldSpec.name) (keys parameters) key) :
    m.resolve parameters = .error (.unknownField m.identifier key) := by
  have hkey := (find?_eq_some_iff_firstOf fun _ => isNone_field?_iff).2 h
  rw [keys, List.find?_map] at hkey
  obtain ⟨e, he, rfl⟩ := Option.map_eq_some_iff.1 hkey
  have he : parameters.find? (fun e => (m.field? e.1).isNone) = some e := he
  unfold resolve
  rw [he]
  rfl

theorem resolve_of_declared {parameters : Mapping}
    (h : ∀ key ∈ keys parameters, key ∈ m.fields.map FieldSpec.name) :
    m.resolve parameters = (fun entries => ⟨m.identifier, ofEntries entries⟩) <$>
      m.fields.mapM fun f => Prod.mk f.name <$> m.fieldValue parameters f := by
  have hknown : parameters.find? (fun e => (m.field? e.1).isNone) = none :=
    List.find?_eq_none.2 fun e he hnone =>
      isNone_field?_iff.1 hnone (h e.1 (List.mem_map_of_mem he))
  unfold resolve
  rw [hknown]
  rfl

theorem resolve_eq_ok {parameters : Mapping} : m.resolve parameters = .ok i ↔
    (∀ key ∈ keys parameters, key ∈ m.fields.map FieldSpec.name) ∧
      ∃ entries, i = ⟨m.identifier, ofEntries entries⟩ ∧
        List.Forall₂ (fun f e => f.name = e.1 ∧ m.fieldValue parameters f = .ok e.2)
          m.fields entries := by
  have hentry : ∀ (f : FieldSpec) (e : String × Value),
      Prod.mk f.name <$> m.fieldValue parameters f = .ok e ↔
        f.name = e.1 ∧ m.fieldValue parameters f = .ok e.2 := by
    intro f e
    simp only [Outcome.map_eq_ok, Prod.ext_iff]
    constructor
    · rintro ⟨v, hv, hname, rfl⟩
      exact ⟨hname, hv⟩
    · rintro ⟨hname, hv⟩
      exact ⟨e.2, hv, hname, rfl⟩
  by_cases hdeclared : ∀ key ∈ keys parameters, key ∈ m.fields.map FieldSpec.name
  · rw [resolve_of_declared hdeclared, and_iff_right hdeclared]
    simp only [Outcome.map_eq_ok, Outcome.mapM_eq_ok, hentry, and_comm, eq_comm (a := i)]
  · obtain ⟨key, hkey⟩ := not_forall_iff_exists_firstOf.1 hdeclared
    rw [resolve_of_unknown hkey]
    simp only [reduceCtorEq, hdeclared, false_and]

theorem exists_of_resolve {parameters : Mapping} (h : m.resolve parameters = .ok i) :
    ∃ entries, i = ⟨m.identifier, ofEntries entries⟩ ∧
      List.Forall₂ (fun f e => f.name = e.1 ∧ m.fieldValue parameters f = .ok e.2)
        m.fields entries :=
  (resolve_eq_ok.1 h).2

/-- A resolved selection has every declared field, with the value that the parameters
give it. -/
theorem get?_of_resolve {parameters : Mapping} (hnames : m.Distinct)
    (h : m.resolve parameters = .ok i) (hf : f ∈ m.fields) :
    ∃ v, i.get? f.name = some v ∧ m.fieldValue parameters f = .ok v := by
  obtain ⟨entries, rfl, hread⟩ := exists_of_resolve h
  have hkeys := nodup_keys_of_fields hnames (hread.imp fun _ _ he => he.1)
  obtain ⟨e, he, hname, hv⟩ := Outcome.exists_of_mem_forall₂ hread.flip hf
  refine ⟨e.2, ?_, hv⟩
  rw [Instance.get?, ofEntries_eq_self hkeys, hname]
  exact lookup_of_mem hkeys he

theorem allows_of_fieldValue {parameters : Mapping} {v : Value}
    (h : m.fieldValue parameters f = .ok v) : f.allows v = true ∨ f.default = some v := by
  unfold fieldValue at h
  split at h
  · split at h
    · next hallows => exact Or.inl (Except.ok.inj h ▸ hallows)
    · cases h
  · next hdefault => exact Or.inr (Except.ok.inj h ▸ hdefault)
  · cases h

/-- The fields the minimal form keeps. -/
def kept (m : Member α) (i : Instance) : List FieldSpec := m.fields.filter fun f => !isDropped i f

/-- Whether the minimal form is the identifier alone. -/
def isBare (m : Member α) (i : Instance) : Bool :=
  (m.kept i).all fun f => f.isDefault (held i f)

/-- The parameters of the minimal form. -/
def parameters (m : Member α) (i : Instance) : Mapping :=
  if m.isBare i then [] else (m.kept i).map fun f => (f.name, held i f)

/-- What a field is read as from the minimal form. -/
def restored (m : Member α) (i : Instance) (f : FieldSpec) : Value :=
  if m.isBare i ∨ isDropped i f then f.default.getD .null else held i f

/-- The instance that is read from the minimal form. -/
def reread (m : Member α) (i : Instance) : Instance :=
  ⟨m.identifier, m.fields.map fun f => (f.name, m.restored i f)⟩

/-- A field can be read again when it is left out and has a default, or else holds
what it allows. -/
def Readable (i : Instance) (f : FieldSpec) : Prop :=
  (isDropped i f = true ∧ f.default.isSome = true) ∨ f.allows (held i f) = true

theorem mem_kept : f ∈ m.kept i ↔ f ∈ m.fields ∧ isDropped i f = false := by
  rw [kept, List.mem_filter, Bool.not_eq_true']

theorem kept_congr (h : ∀ f ∈ m.fields, isDropped j f = isDropped i f) : m.kept j = m.kept i :=
  List.filter_congr fun f hf => by rw [h f hf]

theorem isBare_congr (hkept : m.kept j = m.kept i)
    (h : ∀ f ∈ m.kept i, f.isDefault (held j f) = f.isDefault (held i f)) :
    m.isBare j = m.isBare i := by
  rw [isBare, isBare, hkept, Bool.eq_iff_iff, List.all_eq_true, List.all_eq_true]
  exact forall₂_congr fun f hf => by rw [h f hf]

theorem default_isSome_of_isDropped (h : Readable i f) (hdropped : isDropped i f = true) :
    f.default.isSome = true := by
  rcases h with ⟨-, h⟩ | h
  · exact h
  · obtain ⟨-, hd⟩ := Bool.and_eq_true_iff.1 hdropped
    rcases Bool.or_eq_true_iff.1 hd with hnull | hdefault
    · rw [Value.isNull_iff.1 hnull] at h
      rw [FieldSpec.default_of_allows_null h]
      rfl
    · obtain ⟨d, hd, -⟩ := FieldSpec.isDefault_eq_true.1 hdefault
      rw [hd]
      rfl

theorem default_isSome_of_isBare (hf : f ∈ m.fields) (h : Readable i f)
    (hbare : m.isBare i = true) : f.default.isSome = true := by
  cases hdropped : isDropped i f with
  | true => exact default_isSome_of_isDropped h hdropped
  | false =>
    have hdefault := List.all_eq_true.1 hbare f (mem_kept.2 ⟨hf, hdropped⟩)
    obtain ⟨d, hd, -⟩ := FieldSpec.isDefault_eq_true.1 hdefault
    rw [hd]
    rfl

theorem keys_kept :
    keys ((m.kept i).map fun f => (f.name, held i f)) = (m.kept i).map FieldSpec.name := by
  rw [keys, List.map_map]
  rfl

theorem nodup_kept (hnames : m.Distinct) :
    (keys ((m.kept i).map fun f => (f.name, held i f))).Nodup := by
  rw [keys_kept]
  exact hnames.sublist (List.filter_sublist.map FieldSpec.name)

theorem reduce_eq : m.reduce i = if m.isBare i then .str m.identifier else
    .map [(m.identifier, .map (ofEntries ((m.kept i).map fun f => (f.name, held i f))))] := rfl

theorem select_reduce (family : Family α) (hnames : m.Distinct) :
    family.select (m.reduce i) = .ok (m.identifier, m.parameters i) := by
  rw [reduce_eq, ofEntries_eq_self (nodup_kept hnames), parameters]
  split <;> rfl

theorem mem_keys_parameters {key : String} (h : key ∈ keys (m.parameters i)) :
    ∃ f ∈ m.kept i, f.name = key := by
  unfold parameters at h
  split at h
  · exact absurd h List.not_mem_nil
  · rw [keys_kept] at h
    exact List.mem_map.1 h

/-- Of the fields only those that are kept have parameters, with the values they hold. -/
theorem lookup_parameters (hnames : m.Distinct) (hf : f ∈ m.fields) :
    (m.parameters i).lookup f.name =
      if m.isBare i ∨ isDropped i f then none else some (held i f) := by
  unfold parameters
  by_cases hbare : m.isBare i = true
  · rw [if_pos hbare, if_pos (Or.inl hbare)]
    rfl
  · rw [if_neg hbare]
    by_cases hdropped : isDropped i f = true
    · rw [if_pos (Or.inr hdropped)]
      rw [← Option.not_isSome_iff_eq_none]
      intro hhas
      have hmem := has_iff_mem_keys.1 hhas
      rw [keys_kept] at hmem
      obtain ⟨g, hg, hname⟩ := List.mem_map.1 hmem
      obtain ⟨hg, hkept⟩ := mem_kept.1 hg
      have hsame : g = f := List.inj_on_of_nodup_map hnames hg hf hname
      rw [hsame, hdropped] at hkept
      cases hkept
    · rw [if_neg (not_or.2 ⟨hbare, hdropped⟩)]
      have hkept := mem_kept.2 ⟨hf, Bool.eq_false_iff.2 hdropped⟩
      exact lookup_of_mem (nodup_kept hnames) (List.mem_map.2 ⟨f, hkept, rfl⟩)

theorem fieldValue_parameters (hnames : m.Distinct) (hf : f ∈ m.fields)
    (h : Readable i f) : m.fieldValue (m.parameters i) f = .ok (m.restored i f) := by
  unfold fieldValue restored
  rw [lookup_parameters hnames hf]
  by_cases hout : m.isBare i = true ∨ isDropped i f = true
  · rw [if_pos hout, if_pos hout]
    have hsome : f.default.isSome = true :=
      hout.elim (default_isSome_of_isBare hf h) (default_isSome_of_isDropped h)
    obtain ⟨d, hd⟩ := Option.isSome_iff_exists.1 hsome
    rw [hd]
    rfl
  · rw [if_neg hout, if_neg hout]
    have hallows : f.allows (held i f) = true :=
      h.resolve_left fun hdropped => hout (Or.inr hdropped.1)
    exact if_pos hallows

theorem nodup_reread (hnames : m.Distinct) :
    (keys (m.reread i).fields).Nodup := by
  rw [reread, keys, List.map_map]
  exact hnames

theorem get?_reread (hnames : m.Distinct) (hf : f ∈ m.fields) :
    (m.reread i).get? f.name = some (m.restored i f) :=
  lookup_of_mem (nodup_reread hnames) (List.mem_map.2 ⟨f, hf, rfl⟩)

theorem resolve_parameters (hnames : m.Distinct)
    (h : ∀ f ∈ m.fields, Readable i f) :
    m.resolve (m.parameters i) = .ok (m.reread i) := by
  refine resolve_eq_ok.2 ⟨fun key hkey => ?_, (m.reread i).fields, ?_, ?_⟩
  · obtain ⟨f, hf, rfl⟩ := mem_keys_parameters hkey
    exact List.mem_map_of_mem (mem_kept.1 hf).1
  · rw [ofEntries_eq_self (nodup_reread hnames)]
    rfl
  · rw [reread, List.forall₂_map_right_iff, List.forall₂_same]
    exact fun f hf => ⟨rfl, fieldValue_parameters hnames hf (h f hf)⟩

/-- How a field that held `v` comes back from the minimal form: with the same value, or
with its default where that says the same or nothing was held. -/
def Returns (f : FieldSpec) (v w : Value) : Prop :=
  (w = v ∧ (f.reduced = true → v ≠ .null)) ∨
    f.default = some w ∧ (agrees w v = true ∨ f.reduced = true ∧ v = .null)

theorem returns_restored (hf : f ∈ m.fields) (h : Readable i f) :
    Returns f (held i f) (m.restored i f) := by
  unfold restored
  by_cases hdropped : isDropped i f = true
  · obtain ⟨d, hd⟩ := Option.isSome_iff_exists.1 (default_isSome_of_isDropped h hdropped)
    obtain ⟨hreduced, hsilent⟩ := Bool.and_eq_true_iff.1 hdropped
    rw [if_pos (Or.inr hdropped), hd]
    refine Or.inr ⟨hd, ?_⟩
    rcases Bool.or_eq_true_iff.1 hsilent with hnull | hdefault
    · exact Or.inr ⟨hreduced, Value.isNull_iff.1 hnull⟩
    · obtain ⟨e, he, hagrees⟩ := FieldSpec.isDefault_eq_true.1 hdefault
      exact Or.inl (Option.some.inj (hd.symm.trans he) ▸ hagrees)
  · by_cases hbare : m.isBare i = true
    · have hkept := mem_kept.2 ⟨hf, Bool.eq_false_iff.2 hdropped⟩
      obtain ⟨d, hd, hagrees⟩ := FieldSpec.isDefault_eq_true.1 (List.all_eq_true.1 hbare f hkept)
      rw [if_pos (Or.inl hbare), hd]
      exact Or.inr ⟨hd, Or.inl hagrees⟩
    · rw [if_neg (not_or.2 ⟨hbare, hdropped⟩)]
      refine Or.inl ⟨rfl, fun hreduced hnull => hdropped ?_⟩
      rw [isDropped, hreduced, hnull]
      rfl

/-- A default says the same as itself. -/
def DefaultsAgree (m : Member α) : Prop :=
  ∀ f ∈ m.fields, ∀ d, f.default = some d → agrees d d = true

theorem isDefault_restored (hself : m.DefaultsAgree) (hf : f ∈ m.fields) (h : Readable i f)
    (hout : m.isBare i = true ∨ isDropped i f = true) :
    f.isDefault (m.restored i f) = true := by
  have hsome : f.default.isSome = true :=
    hout.elim (default_isSome_of_isBare hf h) (default_isSome_of_isDropped h)
  obtain ⟨d, hd⟩ := Option.isSome_iff_exists.1 hsome
  rw [restored, if_pos hout, hd]
  exact FieldSpec.isDefault_eq_true.2 ⟨d, hd, hself f hf d hd⟩

theorem isDropped_restored (hself : m.DefaultsAgree) (hf : f ∈ m.fields) (h : Readable i f)
    (hj : held j f = m.restored i f) : isDropped j f = isDropped i f := by
  by_cases hout : m.isBare i = true ∨ isDropped i f = true
  · have hj : isDropped j f = f.reduced := by
      rw [isDropped, hj, isDefault_restored hself hf h hout, Bool.or_true, Bool.and_true]
    rw [hj]
    cases hdropped : isDropped i f with
    | true => exact (Bool.and_eq_true_iff.1 hdropped).1
    | false =>
      -- The form is bare, so the field holds its default and is kept for not being reduced.
      have hbare := hout.resolve_right (hdropped ▸ Bool.false_ne_true)
      have hdefault := List.all_eq_true.1 hbare f (mem_kept.2 ⟨hf, hdropped⟩)
      rwa [isDropped, hdefault, Bool.or_true, Bool.and_true] at hdropped
  · rw [isDropped, hj, restored, if_neg hout]
    rfl

/-- What was read from a minimal form has that minimal form. -/
theorem reduce_restored (hself : m.DefaultsAgree) (h : ∀ f ∈ m.fields, Readable i f)
    (hj : ∀ f ∈ m.fields, held j f = m.restored i f) : m.reduce j = m.reduce i := by
  have hkept : m.kept j = m.kept i :=
    kept_congr fun f hf => isDropped_restored hself hf (h f hf) (hj f hf)
  by_cases hbare : m.isBare i = true
  · have hbare' : m.isBare j = true := by
      refine List.all_eq_true.2 fun f hf => ?_
      have hf := (mem_kept.1 hf).1
      rw [hj f hf]
      exact isDefault_restored hself hf (h f hf) (Or.inl hbare)
    rw [reduce_eq, reduce_eq, if_pos hbare, if_pos hbare']
  · have hheld : ∀ f ∈ m.kept i, held j f = held i f := by
      intro f hf
      obtain ⟨hf, hdropped⟩ := mem_kept.1 hf
      rw [hj f hf, restored, if_neg (not_or.2 ⟨hbare, hdropped ▸ Bool.false_ne_true⟩)]
    have hbare' : m.isBare j = m.isBare i := isBare_congr hkept fun f hf => by rw [hheld f hf]
    have hentries : (m.kept i).map (fun f => (f.name, held j f)) =
        (m.kept i).map fun f => (f.name, held i f) :=
      List.map_congr_left fun f hf => by rw [hheld f hf]
    rw [reduce_eq, reduce_eq, hbare', hkept, hentries]

end Member

theorem Family.reduce_ne_null (family : Family α) (i : Instance) : family.reduce i ≠ .null := by
  unfold reduce
  split
  · rw [Member.reduce_eq]
    split <;> simp
  · simp

theorem Family.identifier_of_member? {family : Family α} {m : Member α} {identifier : String}
    (h : family.member? identifier = some m) : m.identifier = identifier := by
  unfold member? at h
  simpa using List.find?_some h

theorem Family.member_eq_ok {family : Family α} {m : Member α} {identifier : String} :
    family.member identifier = .ok m ↔ family.member? identifier = some m := by
  unfold member
  cases family.member? identifier with
  | none => simp only [reduceCtorEq]
  | some n => simp only [Except.ok.injEq, Option.some.injEq]

/-- A selection that resolves names a member, which resolves some parameters to the same. -/
theorem Family.exists_of_resolve {family : Family α} {raw : Value} {i : Instance}
    (h : family.resolve raw = .ok i) :
    ∃ m ∈ family.members, ∃ parameters, family.member? m.identifier = some m ∧
      m.resolve parameters = .ok i := by
  obtain ⟨⟨identifier, parameters⟩, -, h⟩ := Outcome.bind_eq_ok.1 h
  obtain ⟨m, hm, h⟩ := Outcome.bind_eq_ok.1 h
  have hm := member_eq_ok.1 hm
  exact ⟨m, List.mem_of_find?_eq_some hm, parameters, (identifier_of_member? hm).symm ▸ hm, h⟩

/-- What is made of a selection is built by a member from what it resolves to. -/
theorem Family.exists_of_make {family : Family α} {raw : Value} {a : α}
    (h : family.make raw = .ok a) : ∃ m parameters i, family.member? m.identifier = some m ∧
      m.resolve parameters = .ok i ∧ m.build i = .ok a := by
  obtain ⟨i, hresolve, hbuild⟩ := Outcome.bind_eq_ok.1 h
  obtain ⟨m, -, parameters, hm, hresolve⟩ := exists_of_resolve hresolve
  obtain ⟨n, hn, hbuild⟩ := Outcome.bind_eq_ok.1 hbuild
  have hsame : n = m := by
    obtain ⟨entries, rfl, -⟩ := Member.exists_of_resolve hresolve
    exact Option.some.inj ((member_eq_ok.1 hn).symm.trans hm)
  exact ⟨m, parameters, i, hm, hresolve, hsame ▸ hbuild⟩

/-- A minimal form is read as the instance whose fields have come back. -/
theorem Family.resolve_reduce_eq {family : Family α} {m : Member α} {i : Instance}
    (hm : family.member? i.identifier = some m) (hnames : m.Distinct)
    (h : ∀ f ∈ m.fields, Member.Readable i f) :
    family.resolve (family.reduce i) = .ok (m.reread i) := by
  have hmember : family.member m.identifier = .ok m :=
    member_eq_ok.2 (identifier_of_member? hm ▸ hm)
  rw [Family.reduce, hm]
  exact Outcome.bind_eq_ok.2 ⟨_, Member.select_reduce family hnames,
    Outcome.bind_eq_ok.2 ⟨m, hmember, Member.resolve_parameters hnames h⟩⟩

/-- A minimal form makes what is built from the instance it is read as. -/
theorem Family.make_reduce {family : Family α} {m : Member α} {i : Instance}
    (hm : family.member? i.identifier = some m) (hnames : m.Distinct)
    (h : ∀ f ∈ m.fields, Member.Readable i f) :
    family.make (family.reduce i) = m.build (m.reread i) := by
  have hmember : family.member m.identifier = .ok m :=
    member_eq_ok.2 (identifier_of_member? hm ▸ hm)
  rw [Family.make, resolve_reduce_eq hm hnames h]
  change family.build (m.reread i) = m.build (m.reread i)
  have hmember : family.member (m.reread i).identifier = .ok m := hmember
  rw [Family.build, hmember]
  rfl

/-- A field that held `v` holds in `j` what it may come back with. -/
def ReadsBack (j : Instance) (f : FieldSpec) (v : Value) : Prop :=
  ∃ w, j.get? f.name = some w ∧ Member.Returns f v w

/-- A minimal form makes what is built from an instance whose fields have come back.
Whatever holds the same as that instance has the same minimal form. -/
theorem Family.exists_reread {family : Family α} {m : Member α} {i : Instance}
    (hm : family.member? i.identifier = some m) (hnames : m.Distinct)
    (hself : m.DefaultsAgree) (h : ∀ f ∈ m.fields, Member.Readable i f) :
    ∃ j, family.make (family.reduce i) = m.build j ∧
      (∀ f ∈ m.fields, ReadsBack j f (Member.held i f)) ∧
      ∀ k, k.identifier = i.identifier → (∀ f ∈ m.fields, Member.held k f = Member.held j f) →
        family.reduce k = family.reduce i := by
  refine ⟨m.reread i, make_reduce hm hnames h, fun f hf => ?_, fun k hk hheld => ?_⟩
  · exact ⟨_, Member.get?_reread hnames hf, Member.returns_restored hf (h f hf)⟩
  · rw [Family.reduce, Family.reduce, hk, hm]
    refine Member.reduce_restored hself h fun f hf => ?_
    rw [hheld f hf, Member.held, Member.get?_reread hnames hf]
    rfl

end WorkloadSpec.Variant
