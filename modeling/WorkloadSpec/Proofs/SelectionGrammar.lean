import WorkloadSpec.Proofs.LayerOrder
import WorkloadSpec.Proofs.MinimalForm

/-!
The grammar of selections. A selection names a member, alone or as the one key of a mapping,
and may give parameters. Which parameters a member takes, what they make of its fields and
what is wrong with a selection that is refused is said through keys and look-up, and resolving
decides just that. Of the parameters only what is found under each name counts, so they may
stand in any order; their order shows in one refusal alone, which names the first that is no
field.
-/
namespace WorkloadSpec.Variant

open Mapping

/-- A value that may be given: one of the kind, or null where null is the default. -/
def FieldSpec.Fits (f : FieldSpec) (v : Value) : Prop :=
  f.kind.accepts v = true ∨ v = .null ∧ f.default = some .null

/-- The value that a field is to have: the given one, or without it the default. -/
def FieldSpec.Takes (f : FieldSpec) (parameters : Mapping) (v : Value) : Prop :=
  parameters.lookup f.name = some v ∨ f.name ∉ keys parameters ∧ f.default = some v

/-- What is wrong with the parameters where one field is concerned. -/
inductive FieldSpec.Refuses (f : FieldSpec) (identifier : String) (parameters : Mapping) :
    VariantError → Prop
  | wrongType {v : Value} (hv : parameters.lookup f.name = some v) (h : ¬f.Fits v) :
    f.Refuses identifier parameters (.fieldType identifier f.name f.kind.describe v.shape)
  | missing (hnot : f.name ∉ keys parameters) (h : f.default = none) :
    f.Refuses identifier parameters (.missingField identifier f.name)

/-- Parameters that a member takes: all are fields, all fit, and none is missing. -/
structure Member.Accepts {α : Type} (m : Member α) (parameters : Mapping) : Prop where
  declared : ∀ key ∈ keys parameters, key ∈ m.fields.map FieldSpec.name
  fits : ∀ f ∈ m.fields, ∀ v, parameters.lookup f.name = some v → f.Fits v
  given : ∀ f ∈ m.fields, f.default = none → f.name ∈ keys parameters

/-- The instance lists the declared fields in their order, with the values they are to have. -/
structure Member.Completes {α : Type} (m : Member α) (parameters : Mapping) (i : Instance) :
    Prop where
  identifier : i.identifier = m.identifier
  fields : List.Forall₂ (fun f e => f.name = e.1 ∧ f.Takes parameters e.2) m.fields i.fields

/-- What is wrong with parameters: the first of them that is no field, or else the first field
that they do not suit. -/
inductive Member.Refuses {α : Type} (m : Member α) (parameters : Mapping) : VariantError → Prop
  | unknownField {key : String}
    (h : FirstOf (· ∉ m.fields.map FieldSpec.name) (keys parameters) key) :
    m.Refuses parameters (.unknownField m.identifier key)
  | field {f : FieldSpec} {e : VariantError}
    (hdeclared : ∀ key ∈ keys parameters, key ∈ m.fields.map FieldSpec.name)
    (hf : FirstOf (fun f => ∃ e, f.Refuses m.identifier parameters e) m.fields f)
    (h : f.Refuses m.identifier parameters e) : m.Refuses parameters e

/-- The forms of a selection, with the identifier and the parameters that each one gives. -/
inductive IsSelection : Value → String → Mapping → Prop
  | bare (identifier : String) : IsSelection (.str identifier) identifier []
  | unset (identifier : String) : IsSelection (.map [(identifier, .null)]) identifier []
  | parameters (identifier : String) (parameters : Mapping) :
    IsSelection (.map [(identifier, .map parameters)]) identifier parameters

/-- What is wrong with the form of a selection. -/
inductive Family.RefusesForm {α : Type} (family : Family α) : Value → VariantError → Prop
  | severalSelectors {entries : Mapping} (h : 1 < entries.length) :
    family.RefusesForm (.map entries) (.severalSelectors family.name (keys entries))
  | empty : family.RefusesForm (.map []) (.invalidSelector family.name .empty)
  | parameters {identifier : String} {v : Value} (hnull : v ≠ .null)
    (hmap : ∀ parameters, v ≠ .map parameters) :
    family.RefusesForm (.map [(identifier, v)])
      (.invalidSelector family.name (.parameters identifier v.shape))
  | shape {v : Value} (hname : ∀ identifier, v ≠ .str identifier)
    (hmap : ∀ entries, v ≠ .map entries) :
    family.RefusesForm v (.invalidSelector family.name (.shape v.shape))

/-- What is wrong with a selection, in the order of the checks. Each comes with what rules out
those before it. -/
inductive Family.Refuses {α : Type} (family : Family α) (raw : Value) : VariantError → Prop
  | form {e : VariantError} (h : family.RefusesForm raw e) : family.Refuses raw e
  | unknownVariant {identifier : String} {parameters : Mapping}
    (hraw : IsSelection raw identifier parameters) (h : identifier ∉ family.identifiers) :
    family.Refuses raw (.unknownVariant family.name identifier family.identifiers)
  | member {identifier : String} {parameters : Mapping} {m : Member α} {e : VariantError}
    (hraw : IsSelection raw identifier parameters) (hm : family.member? identifier = some m)
    (h : m.Refuses parameters e) : family.Refuses raw e

variable {α : Type} {m : Member α} {f : FieldSpec} {family : Family α} {parameters : Mapping}
  {raw v : Value} {identifier : String} {i : Instance} {e : VariantError}

namespace FieldSpec

theorem allows_iff : f.allows v = true ↔ f.Fits v := by
  rw [allows, Bool.or_eq_true, Bool.and_eq_true, Value.isNull_iff, isNullable,
    Option.any_eq_true, or_comm]
  simp only [Value.isNull_iff, exists_eq_right, Fits]

/-- Of a field only what is found under its name counts. -/
theorem takes_congr {others : Mapping} (h : parameters.lookup f.name = others.lookup f.name) :
    f.Takes parameters v ↔ f.Takes others v := by
  simp only [Takes, ← has_iff_mem_keys, has, h]

end FieldSpec

namespace Member

theorem fieldValue_eq_ok : m.fieldValue parameters f = .ok v ↔
    f.Takes parameters v ∧ ∀ w, parameters.lookup f.name = some w → f.Fits w := by
  unfold FieldSpec.Takes
  rw [← has_iff_mem_keys, has, fieldValue]
  cases parameters.lookup f.name with
  | none => cases f.default <;> simp
  | some w =>
    simp only [Option.some.injEq, Option.isSome_some, not_true_eq_false, false_and, or_false,
      forall_eq', ← FieldSpec.allows_iff]
    cases f.allows w <;> simp

theorem fieldValue_eq_error : m.fieldValue parameters f = .error e ↔
    f.Refuses m.identifier parameters e := by
  constructor
  · intro h
    unfold fieldValue at h
    split at h
    · next w hw =>
      split at h
      · cases h
      · next hnot =>
        cases h
        exact .wrongType hw fun hfits => hnot (FieldSpec.allows_iff.2 hfits)
    · cases h
    · next hnone hdefault =>
      cases h
      exact .missing (not_mem_keys_of_lookup hnone) hdefault
  · intro h
    cases h with
    | wrongType hw hnot =>
      rw [fieldValue, hw]
      exact if_neg fun hallows => hnot (FieldSpec.allows_iff.1 hallows)
    | missing hnot hdefault =>
      rw [← has_iff_mem_keys, has, Option.not_isSome_iff_eq_none] at hnot
      rw [fieldValue, hnot, hdefault]

/-- A field that gets no value is refused. -/
theorem exists_refuses_iff : (∃ e, f.Refuses m.identifier parameters e) ↔
    ¬∃ v, m.fieldValue parameters f = .ok v := by
  simp only [← fieldValue_eq_error]
  cases m.fieldValue parameters f <;> simp

/-- The first field without a value decides, once all parameters are fields. -/
theorem resolve_eq_error_of_declared
    (hdeclared : ∀ key ∈ keys parameters, key ∈ m.fields.map FieldSpec.name) :
    m.resolve parameters = .error e ↔
      ∃ f, FirstOf (fun f => ∃ e, f.Refuses m.identifier parameters e) m.fields f ∧
        f.Refuses m.identifier parameters e := by
  have hvalue : ∀ f : FieldSpec,
      (∃ entry, Prod.mk f.name <$> m.fieldValue parameters f = .ok entry) ↔
        ∃ v, m.fieldValue parameters f = .ok v := by
    intro f
    cases m.fieldValue parameters f <;> simp [Functor.map, Except.map]
  rw [resolve_of_declared hdeclared, Outcome.map_eq_error, Outcome.mapM_eq_error_iff_firstOf]
  simp only [hvalue, ← exists_refuses_iff, Outcome.map_eq_error, fieldValue_eq_error]

theorem resolve_eq_error : m.resolve parameters = .error e ↔ m.Refuses parameters e := by
  by_cases hdeclared : ∀ key ∈ keys parameters, key ∈ m.fields.map FieldSpec.name
  · rw [resolve_eq_error_of_declared hdeclared]
    constructor
    · rintro ⟨f, hf, h⟩
      exact .field hdeclared hf h
    · intro h
      cases h with
      | unknownField hkey => exact absurd (hdeclared _ hkey.mem) hkey.holds
      | field _ hf h => exact ⟨_, hf, h⟩
  · obtain ⟨key, hkey⟩ := not_forall_iff_exists_firstOf.1 hdeclared
    rw [resolve_of_unknown hkey]
    constructor
    · intro h
      cases h
      exact .unknownField hkey
    · intro h
      cases h with
      | unknownField hother => rw [hkey.unique hother]
      | field hall => exact absurd hall hdeclared

/-- Parameters that are accepted are not refused. -/
theorem Accepts.not_refuses (h : m.Accepts parameters) : ¬m.Refuses parameters e := by
  intro hrefuses
  cases hrefuses with
  | unknownField hkey => exact hkey.holds (h.declared _ hkey.mem)
  | field _ hf hfield =>
    cases hfield with
    | wrongType hv hnot => exact hnot (h.fits _ hf.mem _ hv)
    | missing hnot hdefault => exact hnot (h.given _ hf.mem hdefault)

theorem accepts_and_completes_of_resolve (hnames : m.Distinct)
    (h : m.resolve parameters = .ok i) : m.Accepts parameters ∧ m.Completes parameters i := by
  obtain ⟨hdeclared, entries, rfl, hread⟩ := resolve_eq_ok.1 h
  have hkeys := nodup_keys_of_fields hnames (hread.imp fun _ _ he => he.1)
  have hvalue : ∀ f ∈ m.fields, ∃ v, m.fieldValue parameters f = .ok v := fun f hf => by
    obtain ⟨e, -, -, hv⟩ := Outcome.exists_of_mem_forall₂ hread.flip hf
    exact ⟨e.2, hv⟩
  refine ⟨⟨hdeclared, fun f hf v hv => ?_, fun f hf hdefault => ?_⟩, rfl, ?_⟩
  · obtain ⟨w, hw⟩ := hvalue f hf
    exact (fieldValue_eq_ok.1 hw).2 v hv
  · obtain ⟨w, hw⟩ := hvalue f hf
    rcases (fieldValue_eq_ok.1 hw).1 with hgiven | ⟨-, hdefault'⟩
    · exact mem_keys_of_lookup hgiven
    · cases hdefault.symm.trans hdefault'
  · rw [ofEntries_eq_self hkeys]
    exact hread.imp fun _ _ he => ⟨he.1, (fieldValue_eq_ok.1 he.2).1⟩

theorem resolve_of_completes (hnames : m.Distinct) (h : m.Accepts parameters)
    (hi : m.Completes parameters i) : m.resolve parameters = .ok i := by
  have hkeys := nodup_keys_of_fields hnames (hi.fields.imp fun _ _ he => he.1)
  refine resolve_eq_ok.2 ⟨h.declared, i.fields, ?_, ?_⟩
  · rw [ofEntries_eq_self hkeys, ← hi.identifier]
  · have hpaired := (List.forall₂_and_left m.fields i.fields).2 ⟨h.fits, hi.fields⟩
    exact hpaired.imp fun _ _ he => ⟨he.2.1, fieldValue_eq_ok.2 ⟨he.2.2, he.1⟩⟩

theorem resolve_eq_ok_iff (hnames : m.Distinct) : m.resolve parameters = .ok i ↔
    m.Accepts parameters ∧ m.Completes parameters i :=
  ⟨accepts_and_completes_of_resolve hnames, fun h => resolve_of_completes hnames h.1 h.2⟩

/-- What is accepted can be completed. -/
theorem Accepts.exists_resolve (h : m.Accepts parameters) :
    ∃ i, m.resolve parameters = .ok i := by
  cases hresolve : m.resolve parameters with
  | error e => exact absurd (resolve_eq_error.1 hresolve) h.not_refuses
  | ok i => exact ⟨i, rfl⟩

/-- Only what is found under each name counts. -/
theorem Accepts.congr {others : Mapping}
    (hsame : ∀ key, parameters.lookup key = others.lookup key) (h : m.Accepts parameters) :
    m.Accepts others := by
  have hkeys : ∀ key, key ∈ keys others ↔ key ∈ keys parameters := fun key => by
    rw [← has_iff_mem_keys, ← has_iff_mem_keys, has, has, hsame]
  refine ⟨fun key hkey => h.declared key ((hkeys key).1 hkey), fun f hf v hv => ?_,
    fun f hf hdefault => (hkeys f.name).2 (h.given f hf hdefault)⟩
  rw [← hsame] at hv
  exact h.fits f hf v hv

theorem Completes.congr {others : Mapping}
    (hsame : ∀ key, parameters.lookup key = others.lookup key) (h : m.Completes parameters i) :
    m.Completes others i :=
  ⟨h.identifier, h.fields.imp fun f _ he =>
    ⟨he.1, (FieldSpec.takes_congr (hsame f.name)).1 he.2⟩⟩

/-- Parameters resolve to the same in any order. -/
theorem resolve_perm {others : Mapping} (hnames : m.Distinct) (hkeys : (keys parameters).Nodup)
    (hperm : parameters.Perm others) (h : m.resolve parameters = .ok i) :
    m.resolve others = .ok i := by
  have hsame := lookup_perm hkeys hperm
  obtain ⟨haccepts, hcompletes⟩ := (resolve_eq_ok_iff hnames).1 h
  exact resolve_of_completes hnames (haccepts.congr hsame) (hcompletes.congr hsame)

end Member

namespace Family

theorem select_eq_ok :
    family.select raw = .ok (identifier, parameters) ↔ IsSelection raw identifier parameters := by
  constructor
  · intro h
    unfold select at h
    split at h <;> cases h
    · exact .bare identifier
    · exact .parameters identifier parameters
    · exact .unset identifier
  · intro h
    cases h <;> rfl

theorem select_several {first second : String × Value} {rest : Mapping} :
    family.select (.map (first :: second :: rest)) =
      .error (.severalSelectors family.name (keys (first :: second :: rest))) := by
  obtain ⟨identifier, v⟩ := first
  cases v <;> rfl

theorem select_eq_error : family.select raw = .error e ↔ family.RefusesForm raw e := by
  constructor
  · intro h
    cases raw with
    | str identifier => cases h
    | map entries =>
      rcases entries with _ | ⟨⟨identifier, v⟩, _ | ⟨second, rest⟩⟩
      · cases h
        exact .empty
      · cases v <;> cases h <;> exact .parameters (by simp) (by simp)
      · rw [select_several] at h
        cases h
        exact .severalSelectors (by simp)
    | _ =>
      cases h
      exact .shape (by simp) (by simp)
  · intro h
    cases h with
    | @severalSelectors entries h =>
      rcases entries with _ | ⟨first, _ | ⟨second, rest⟩⟩
      · exact absurd h (by simp)
      · exact absurd h (by simp)
      · exact select_several
    | empty => rfl
    | @parameters identifier v hnull hmap =>
      cases v with
      | null => exact absurd rfl hnull
      | map parameters => exact absurd rfl (hmap parameters)
      | _ => rfl
    | shape hname hmap =>
      cases raw with
      | str identifier => exact absurd rfl (hname identifier)
      | map entries => exact absurd rfl (hmap entries)
      | _ => rfl

theorem member_eq_error : family.member identifier = .error e ↔
    identifier ∉ family.identifiers ∧
      e = .unknownVariant family.name identifier family.identifiers := by
  rw [← isSome_member?, member]
  cases family.member? identifier with
  | none => simp [eq_comm]
  | some m => simp

theorem resolve_eq_ok : family.resolve raw = .ok i ↔ ∃ identifier parameters m,
    IsSelection raw identifier parameters ∧ family.member? identifier = some m ∧
      m.resolve parameters = .ok i := by
  simp only [resolve, Outcome.bind_eq_ok, Prod.exists, select_eq_ok, member_eq_ok,
    exists_and_left]

/-- A selection is refused with the error of the first check that it does not pass. -/
theorem resolve_eq_error : family.resolve raw = .error e ↔ family.Refuses raw e := by
  simp only [resolve, Outcome.bind_eq_error, Prod.exists, select_eq_ok, select_eq_error,
    member_eq_ok, member_eq_error, Member.resolve_eq_error]
  constructor
  · rintro (h | ⟨identifier, parameters, hraw, ⟨hnot, rfl⟩ | ⟨m, hm, h⟩⟩)
    · exact .form h
    · exact .unknownVariant hraw hnot
    · exact .member hraw hm h
  · intro h
    cases h with
    | form h => exact .inl h
    | unknownVariant hraw hnot => exact .inr ⟨_, _, hraw, .inl ⟨hnot, rfl⟩⟩
    | member hraw hm h => exact .inr ⟨_, _, hraw, .inr ⟨_, hm, h⟩⟩

/-- A selection in any order of its parameters resolves to the same. -/
theorem resolve_perm {parameters others : Mapping} (hnames : ∀ m ∈ family.members, m.Distinct)
    (hkeys : (keys parameters).Nodup) (hperm : parameters.Perm others)
    (h : family.resolve (.map [(identifier, .map parameters)]) = .ok i) :
    family.resolve (.map [(identifier, .map others)]) = .ok i := by
  obtain ⟨_, _, m, hraw, hm, h⟩ := resolve_eq_ok.1 h
  cases hraw
  have hdistinct := hnames m (List.mem_of_find?_eq_some hm)
  exact resolve_eq_ok.2 ⟨_, _, m, .parameters _ _, hm, m.resolve_perm hdistinct hkeys hperm h⟩

/-- Resolving takes exactly the selections of a member with parameters that it accepts, and
lists its fields with the given values and the defaults. What it does not take is refused with
the error of the first check that fails. The order of the parameters does not matter, and no
parameters are as good as none. -/
theorem resolve_accepts_grammar (family : Family α) (hnames : ∀ m ∈ family.members, m.Distinct) :
    (∀ raw, (∃ i, family.resolve raw = .ok i) ↔ ∃ identifier parameters m,
      IsSelection raw identifier parameters ∧ family.member? identifier = some m ∧
        m.Accepts parameters) ∧
    (∀ raw i, family.resolve raw = .ok i ↔ ∃ identifier parameters m,
      IsSelection raw identifier parameters ∧ family.member? identifier = some m ∧
        m.Accepts parameters ∧ m.Completes parameters i) ∧
    (∀ raw e, family.resolve raw = .error e ↔ family.Refuses raw e) ∧
    (∀ identifier parameters others, (keys parameters).Nodup → parameters.Perm others →
      ∀ i, family.resolve (.map [(identifier, .map parameters)]) = .ok i ↔
        family.resolve (.map [(identifier, .map others)]) = .ok i) ∧
    ∀ identifier,
      family.resolve (.map [(identifier, .null)]) = family.resolve (.str identifier) ∧
      family.resolve (.map [(identifier, .map [])]) = family.resolve (.str identifier) := by
  have hdistinct : ∀ identifier m, family.member? identifier = some m → m.Distinct :=
    fun _ m hm => hnames m (List.mem_of_find?_eq_some hm)
  have hok : ∀ raw i, family.resolve raw = .ok i ↔ ∃ identifier parameters m,
      IsSelection raw identifier parameters ∧ family.member? identifier = some m ∧
        m.Accepts parameters ∧ m.Completes parameters i := by
    intro raw i
    rw [resolve_eq_ok]
    constructor
    · rintro ⟨identifier, parameters, m, hraw, hm, h⟩
      exact ⟨identifier, parameters, m, hraw, hm,
        (m.resolve_eq_ok_iff (hdistinct identifier m hm)).1 h⟩
    · rintro ⟨identifier, parameters, m, hraw, hm, h⟩
      exact ⟨identifier, parameters, m, hraw, hm,
        (m.resolve_eq_ok_iff (hdistinct identifier m hm)).2 h⟩
  refine ⟨fun raw => ?_, hok, fun _ _ => resolve_eq_error, ?_, fun _ => ⟨rfl, rfl⟩⟩
  · constructor
    · rintro ⟨i, h⟩
      obtain ⟨identifier, parameters, m, hraw, hm, haccepts, -⟩ := (hok raw i).1 h
      exact ⟨identifier, parameters, m, hraw, hm, haccepts⟩
    · rintro ⟨identifier, parameters, m, hraw, hm, haccepts⟩
      obtain ⟨i, h⟩ := haccepts.exists_resolve
      exact ⟨i, resolve_eq_ok.2 ⟨identifier, parameters, m, hraw, hm, h⟩⟩
  · intro identifier parameters others hkeys hperm i
    have hothers := nodup_keys_of_perm hkeys hperm
    exact ⟨resolve_perm hnames hkeys hperm, resolve_perm hnames hothers hperm.symm⟩

/-- A member with a field of each sort: to be given, unset, and with a default. -/
def decay : Member Double where
  identifier := "Decay"
  fields := [.required "rate" .float, .optional "layer" .tensor, .defaulted "steps" .int (.int 1)]
  build i := i.double "rate"

def schedules : Family Double := ⟨"schedule", [decay]⟩

/-- Null is as good as no parameters and leaves a field unset, but is refused where it is not the
default. A parameter that is no field is reported before a field that is missing. -/
theorem resolve_accepts_grammar_decay :
    (∀ m ∈ schedules.members, m.Distinct) ∧
      (∃ i, schedules.resolve
          (.map [("Decay", .map [("steps", .int 3), ("layer", .null), ("rate", .int 2)])]) =
            .ok i ∧
        i.fields = [("rate", .int 2), ("layer", .null), ("steps", .int 3)] ∧
        schedules.resolve
          (.map [("Decay", .map [("rate", .int 2), ("layer", .null), ("steps", .int 3)])]) =
            .ok i) ∧
      schedules.resolve (.map [("Decay", .null)]) = .error (.missingField "Decay" "rate") ∧
      schedules.resolve (.map [("Decay", .map [("steps", .null), ("rate", .int 2)])]) =
        .error (.fieldType "Decay" "steps" "an integer" "null") ∧
      schedules.resolve (.map [("Decay", .map [("steps", .null), ("Rate", .int 2)])]) =
        .error (.unknownField "Decay" "Rate") := by
  have hnames : ∀ m ∈ schedules.members, m.Distinct := by
    have hdecay : (decay.fields.map FieldSpec.name).Nodup := by decide
    exact List.forall_mem_singleton.2 hdecay
  obtain ⟨-, -, herror, hperm, hnone⟩ := resolve_accepts_grammar schedules hnames
  have hreverse := hperm "Decay" [("steps", .int 3), ("layer", .null), ("rate", .int 2)]
    [("rate", .int 2), ("layer", .null), ("steps", .int 3)] (by decide) (List.reverse_perm _).symm
  refine ⟨hnames, ⟨_, rfl, rfl, (hreverse _).1 rfl⟩, (hnone "Decay").1.trans rfl, rfl, ?_⟩
  rw [herror]
  have hfirst : FirstOf (· ∉ decay.fields.map FieldSpec.name) ["steps", "Rate"] "Rate" :=
    ⟨by decide, ["steps"], [], rfl, by decide⟩
  exact .member (.parameters _ _) rfl (.unknownField hfirst)

end Family

end WorkloadSpec.Variant
