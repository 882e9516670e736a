import WorkloadSpec.Proofs.NormalForm
import WorkloadSpec.Proofs.TypedReading

/-!
From a resolved selection the typed value is built. Resolving leaves a value of the declared
kind, or null where that is the default, in every field, and typed access takes each such
value, with one exception: a field for integers takes an integer of 64 bits without a sign,
and access is to one with a sign. So building fails just where an integer is too great, and
the error then says that an integer is expected and an integer was found. A builder is a chain
of accesses, and the property is carried along the chain.
-/
namespace WorkloadSpec

open Variant Member

namespace Variant

variable {α β γ : Type} {m : Member α} {i : Instance} {f : FieldSpec} {fs gs : List FieldSpec}
  {e : VariantError}

/-- The instance has an allowed value for every field, as resolving leaves it. -/
def Filled (fields : List FieldSpec) (i : Instance) : Prop :=
  ∀ f ∈ fields, ∃ v, i.get? f.name = some v ∧ f.allows v = true

/-- A field for integers holds one that does not fit into 64 bits with a sign, and the error
finds fault with it. -/
inductive Overflow (fields : List FieldSpec) (i : Instance) : VariantError → Prop
  | intro {f : FieldSpec} {n : Int} (hf : f ∈ fields) (hkind : f.kind = .int)
    (hv : i.get? f.name = some (.int n)) (hn : (Value.int n).int64? = none) :
    Overflow fields i
      (.fieldType i.identifier f.name FieldKind.int.describe (Value.int n).shape)

/-- Of a filled instance everything is read but integers that do not fit. -/
def Extracts (fields : List FieldSpec) (read : Instance → Except VariantError γ) : Prop :=
  ∀ i, Filled fields i →
    ((∃ c, read i = .ok c) ∧ ∀ e, ¬Overflow fields i e) ∨
      ∃ e, read i = .error e ∧ Overflow fields i e

theorem Overflow.mono (h : Overflow fs i e) (hsub : fs ⊆ gs) : Overflow gs i e := by
  obtain ⟨hf, hkind, hv, hn⟩ := h
  exact .intro (hsub hf) hkind hv hn

theorem Overflow.of_append (h : Overflow (fs ++ gs) i e) : Overflow fs i e ∨ Overflow gs i e := by
  obtain ⟨hf, hkind, hv, hn⟩ := h
  exact (List.mem_append.1 hf).imp (fun hf => .intro hf hkind hv hn)
    fun hf => .intro hf hkind hv hn

theorem Filled.mono (h : Filled gs i) (hsub : fs ⊆ gs) : Filled fs i :=
  fun f hf => h f (hsub hf)

namespace Extracts

/-- It does not matter in which order fields are declared and read. -/
theorem perm {read : Instance → Except VariantError γ} (h : Extracts fs read)
    (hperm : fs.Perm gs) : Extracts gs read := by
  intro i hi
  rcases h i (hi.mono hperm.subset) with ⟨hread, hfits⟩ | ⟨e, hread, hover⟩
  · exact .inl ⟨hread, fun e hover => hfits e (hover.mono hperm.symm.subset)⟩
  · exact .inr ⟨e, hread, hover.mono hperm.subset⟩

theorem pure (c : γ) : Extracts [] fun _ => (Pure.pure c : Except VariantError γ) :=
  fun _ _ => .inl ⟨⟨c, rfl⟩, fun _ ⟨hf, _, _, _⟩ => List.not_mem_nil hf⟩

theorem bind {read : Instance → Except VariantError γ} {next : γ → Instance → Except VariantError β}
    (h : Extracts fs read) (hnext : ∀ c, Extracts gs (next c)) :
    Extracts (fs ++ gs) fun i => read i >>= fun c => next c i := by
  intro i hi
  have hfirst := hi.mono (List.subset_append_left fs gs)
  have hsecond := hi.mono (List.subset_append_right fs gs)
  rcases h i hfirst with ⟨⟨c, hc⟩, hfits⟩ | ⟨e, he, hover⟩
  · rcases hnext c i hsecond with ⟨⟨b, hb⟩, hfits'⟩ | ⟨e, he, hover⟩
    · exact .inl ⟨⟨b, Outcome.bind_eq_ok.2 ⟨c, hc, hb⟩⟩,
        fun e hover => hover.of_append.elim (hfits e) (hfits' e)⟩
    · exact .inr ⟨e, Outcome.bind_eq_error.2 (.inr ⟨c, hc, he⟩),
        hover.mono (List.subset_append_right fs gs)⟩
  · exact .inr ⟨e, Outcome.bind_eq_error.2 (.inl he), hover.mono (List.subset_append_left fs gs)⟩

/-- Access that never fails, to a field that is not for integers. -/
theorem of_ok {read : Instance → Except VariantError γ} (hkind : f.kind ≠ .int)
    (h : ∀ i, Filled [f] i → ∃ c, read i = .ok c) : Extracts [f] read := by
  refine fun i hi => .inl ⟨h i hi, ?_⟩
  rintro e ⟨hf, hint, -, -⟩
  obtain rfl := List.mem_singleton.1 hf
  exact hkind hint

end Extracts

theorem Filled.accepts_or_null (h : Filled [f] i) :
    ∃ v, i.get? f.name = some v ∧ (v = .null ∨ f.kind.accepts v = true) := by
  obtain ⟨v, hv, hallows⟩ := h f (List.mem_singleton_self f)
  refine ⟨v, hv, ?_⟩
  by_cases hnull : v = .null
  · exact .inl hnull
  · exact .inr (FieldSpec.accepts_of_allows hallows hnull)

theorem Filled.accepts (h : Filled [f] i) (hset : f.isNullable = false) :
    ∃ v, i.get? f.name = some v ∧ f.kind.accepts v = true := by
  obtain ⟨v, hv, hallows⟩ := h f (List.mem_singleton_self f)
  rw [FieldSpec.allows, hset, Bool.and_false, Bool.false_or] at hallows
  exact ⟨v, hv, hallows⟩

theorem get_eq_ok {v : Value} {field : String} (h : i.get? field = some v) :
    i.get field = .ok v := by
  rw [Instance.get, h]

theorem extracts_double (hkind : f.kind = .float) (hset : f.isNullable = false) :
    Extracts [f] (·.double f.name) := by
  refine .of_ok (by rw [hkind]; decide) fun i hi => ?_
  obtain ⟨v, hv, haccepts⟩ := hi.accepts hset
  rw [hkind] at haccepts
  obtain ⟨x, hx⟩ := exists_double?_of_isNumber haccepts
  refine ⟨x, Outcome.bind_eq_ok.2 ⟨v, get_eq_ok hv, ?_⟩⟩
  rw [hx]
  rfl

theorem extracts_bool (hkind : f.kind = .bool) (hset : f.isNullable = false) :
    Extracts [f] (·.bool f.name) := by
  refine .of_ok (by rw [hkind]; decide) fun i hi => ?_
  obtain ⟨v, hv, haccepts⟩ := hi.accepts hset
  rw [hkind] at haccepts
  cases v with
  | bool b => exact ⟨b, Outcome.bind_eq_ok.2 ⟨_, get_eq_ok hv, rfl⟩⟩
  | _ => cases haccepts

theorem extracts_string? (hkind : f.kind = .str) : Extracts [f] (·.string? f.name) := by
  refine .of_ok (by rw [hkind]; decide) fun i hi => ?_
  obtain ⟨v, hv, hnull | haccepts⟩ := hi.accepts_or_null
  · refine ⟨none, ?_⟩
    rw [Instance.string?, hv, hnull]
  · rw [hkind] at haccepts
    cases v with
    | str s =>
      refine ⟨some s, ?_⟩
      rw [Instance.string?, hv]
    | _ => cases haccepts

theorem extracts_tensor? (hkind : f.kind = .tensor) : Extracts [f] (·.tensor? f.name) := by
  refine .of_ok (by rw [hkind]; decide) fun i hi => ?_
  obtain ⟨v, hv, hnull | haccepts⟩ := hi.accepts_or_null
  · refine ⟨none, ?_⟩
    rw [Instance.tensor?, hv, hnull]
  · rw [hkind] at haccepts
    obtain ⟨t, ht⟩ := Option.isSome_iff_exists.1 haccepts
    exact ⟨some t, tensor?_of_get? hv ht⟩

/-- The one access that can fail: an integer is accepted by its kind and read by its size. -/
theorem extracts_int64 (hkind : f.kind = .int) (hset : f.isNullable = false) :
    Extracts [f] (·.int64 f.name) := by
  intro i hi
  obtain ⟨v, hv, haccepts⟩ := hi.accepts hset
  rw [hkind] at haccepts
  obtain ⟨n, rfl⟩ : ∃ n, v = .int n := by
    cases v with
    | int n => exact ⟨n, rfl⟩
    | _ => cases haccepts
  cases hn : (Value.int n).int64? with
  | some k =>
    refine .inl ⟨⟨k, Outcome.bind_eq_ok.2 ⟨_, get_eq_ok hv, ?_⟩⟩, ?_⟩
    · rw [hn]
      rfl
    · rintro e ⟨hf, -, hw, hnone⟩
      obtain rfl := List.mem_singleton.1 hf
      obtain rfl := Value.int.inj (Option.some.inj (hv.symm.trans hw))
      rw [hn] at hnone
      cases hnone
  | none =>
    refine .inr ⟨_, Outcome.bind_eq_error.2 (.inr ⟨_, get_eq_ok hv, ?_⟩),
      .intro (List.mem_singleton_self f) hkind hv hn⟩
    rw [hn]
    rfl

/-- Members whose fields have distinct names and defaults of the declared kind, and whose
builder reads all that they declare. -/
structure Member.Buildable (m : Member α) : Prop where
  distinct : m.Distinct
  defaults : m.DefaultsAccepted
  extracts : Extracts m.fields m.build

/-- Whether every default but null is of the kind of its field. -/
def Member.acceptsDefaults (m : Member α) : Bool :=
  m.fields.all fun f => f.default.all fun d => d.isNull || f.kind.accepts d

theorem Member.defaultsAccepted_of_acceptsDefaults (h : m.acceptsDefaults = true) :
    m.DefaultsAccepted := by
  intro f hf d hd hnull
  have haccepts := List.all_eq_true.1 h f hf
  rw [hd, Option.all_some, Bool.or_eq_true] at haccepts
  exact haccepts.resolve_left fun h => hnull (Value.isNull_iff.1 h)

/-- Building from what was resolved succeeds just when all integers fit. -/
theorem Family.build_of_resolve {family : Family α} {raw : Value}
    (hfamily : ∀ m ∈ family.members, m.Buildable) (h : family.resolve raw = .ok i) :
    ∃ m ∈ family.members, Mapping.keys i.fields = m.fields.map FieldSpec.name ∧
      (((∃ a, family.build i = .ok a) ∧ ∀ e, ¬Overflow m.fields i e) ∨
        ∃ e, family.build i = .error e ∧ Overflow m.fields i e) := by
  obtain ⟨m, hmem, parameters, hm, hresolve⟩ := exists_of_resolve h
  obtain ⟨hnames, hdefaults, hextracts⟩ := hfamily m hmem
  obtain ⟨hid, hfields⟩ := fields_of_resolve hnames hresolve
  have hkeys : Mapping.keys i.fields = m.fields.map FieldSpec.name := by
    rw [hfields, Mapping.keys, List.map_map]
    rfl
  have hfilled : Filled m.fields i := fun f hf =>
    ⟨held i f, (held_of_resolve hnames hresolve hf).1, allows_held hnames hdefaults hresolve hf⟩
  have hbuild : family.build i = m.build i := by
    have hfound : family.member i.identifier = .ok m := by
      rw [hid]
      exact member_eq_ok.2 hm
    rw [build, hfound]
    rfl
  rw [hbuild]
  exact ⟨m, hmem, hkeys, hextracts i hfilled⟩

end Variant

namespace Loss

theorem extracts {own : List FieldSpec} {name : Value}
    {read : Instance → Except VariantError LossForm} (h : Extracts own read) :
    Extracts (fields own name) (ofInstance read) := by
  let shared : List FieldSpec := [{ FieldSpec.optional "input_layer" .tensor with reduced := true },
    { FieldSpec.optional "output_layer" .tensor with reduced := true },
    .defaulted "weights" .float (.float (Double.ofInt 1))]
  let last : List FieldSpec := [{ FieldSpec.defaulted "name" .str name with reduced := true },
    .defaulted "collect" .bool (.bool true)]
  have hread : Extracts (shared ++ (last ++ own)) (ofInstance read) := by
    rw [← List.append_nil own]
    exact (extracts_tensor? rfl).bind fun _ => (extracts_tensor? rfl).bind fun _ =>
      (extracts_double rfl rfl).bind fun _ => (extracts_string? rfl).bind fun _ =>
      (extracts_bool rfl rfl).bind fun _ => h.bind fun _ => .pure _
  -- The parameters of the form are declared between the shared options and read after them.
  refine hread.perm ?_
  rw [fields, List.append_assoc]
  exact List.perm_append_comm.append_left shared

theorem extracts_of_mem : ∀ m ∈ family.members, Extracts m.fields m.build := by
  simp only [family, List.forall_mem_cons]
  exact ⟨extracts (.pure _), extracts (.pure _),
    extracts ((extracts_double rfl rfl).bind fun _ => .pure _),
    extracts ((extracts_double rfl rfl).bind fun _ => .pure _),
    extracts ((extracts_double rfl rfl).bind fun _ => (extracts_double rfl rfl).bind fun _ =>
      .pure _),
    extracts ((extracts_double rfl rfl).bind fun _ => .pure _),
    extracts ((extracts_double rfl rfl).bind fun _ => .pure _),
    extracts (.pure _), extracts ((extracts_int64 rfl rfl).bind fun _ => .pure _),
    extracts (.pure _), extracts ((extracts_int64 rfl rfl).bind fun _ => .pure _),
    List.forall_mem_nil _⟩

theorem buildable_of_mem : ∀ m ∈ family.members, m.Buildable := by
  have hdefaults : ∀ m ∈ family.members, m.acceptsDefaults = true := by decide
  intro m hm
  exact ⟨distinct_of_mem m hm, Member.defaultsAccepted_of_acceptsDefaults (hdefaults m hm),
    extracts_of_mem m hm⟩

/-- Integers are due under one name only. -/
theorem kind_eq_int_iff :
    ∀ m ∈ family.members, ∀ f ∈ m.fields, f.kind = .int ↔ f.name = "dim" := by
  decide

theorem overflow_iff {m : Member Loss} (hm : m ∈ family.members) {i : Instance}
    (hkeys : Mapping.keys i.fields = m.fields.map FieldSpec.name) {e : VariantError} :
    Overflow m.fields i e ↔ ∃ n, i.get? "dim" = some (.int n) ∧ (Value.int n).int64? = none ∧
      e = .fieldType i.identifier "dim" "an integer" "an integer" := by
  constructor
  · rintro ⟨hf, hkind, hv, hn⟩
    have hname := (kind_eq_int_iff m hm _ hf).1 hkind
    rw [hname] at hv ⊢
    exact ⟨_, hv, hn, rfl⟩
  · rintro ⟨n, hv, hn, rfl⟩
    have hdeclared := Mapping.mem_keys_of_lookup hv
    rw [hkeys] at hdeclared
    obtain ⟨f, hf, hname⟩ := List.mem_map.1 hdeclared
    rw [← hname] at hv ⊢
    exact .intro hf ((kind_eq_int_iff m hm f hf).2 hname) hv hn

end Loss

namespace Optimizer

theorem extracts {identifier : String} {rate : Double} {own : List FieldSpec}
    {read : Instance → Except VariantError Method} (h : Extracts own read) :
    Extracts (member identifier rate own read).fields (ofInstance read) := by
  let first : List FieldSpec := [float "learning_rate" rate]
  let last : List FieldSpec := [{ FieldSpec.optional "name" .str with reduced := true }]
  have hread : Extracts (first ++ (last ++ own)) (ofInstance read) := by
    rw [← List.append_nil own]
    exact (extracts_double rfl rfl).bind fun _ => (extracts_string? rfl).bind fun _ =>
      h.bind fun _ => .pure _
  refine hread.perm ?_
  rw [member, List.append_assoc]
  exact List.perm_append_comm.append_left first

theorem extracts_of_mem : ∀ m ∈ family.members, Extracts m.fields m.build := by
  simp only [family, List.forall_mem_cons]
  exact ⟨extracts (.pure _),
    extracts ((extracts_double rfl rfl).bind fun _ => (extracts_bool rfl rfl).bind fun _ =>
      .pure _),
    extracts ((extracts_double rfl rfl).bind fun _ => (extracts_double rfl rfl).bind fun _ =>
      (extracts_double rfl rfl).bind fun _ => .pure _),
    extracts ((extracts_double rfl rfl).bind fun _ => .pure _),
    extracts ((extracts_double rfl rfl).bind fun _ => (extracts_double rfl rfl).bind fun _ =>
      (extracts_double rfl rfl).bind fun _ => .pure _),
    List.forall_mem_nil _⟩

theorem buildable_of_mem : ∀ m ∈ family.members, m.Buildable := by
  have hdefaults : ∀ m ∈ family.members, m.acceptsDefaults = true := by decide
  intro m hm
  exact ⟨distinct_of_mem m hm, Member.defaultsAccepted_of_acceptsDefaults (hdefaults m hm),
    extracts_of_mem m hm⟩

theorem kind_ne_int : ∀ m ∈ family.members, ∀ f ∈ m.fields, f.kind ≠ .int := by
  decide

end Optimizer

theorem Value.int64?_eq_none {n : Int} : (Value.int n).int64? = none ↔
    ¬(-0x8000000000000000 ≤ n ∧ n < 0x8000000000000000) := by
  rw [int64?]
  split
  · next hfits => exact iff_of_false (Option.some_ne_none _) (not_not_intro hfits)
  · next hout => exact iff_of_true rfl hout

/-- A loss that was resolved can be built if its dimension fits into 64 bits with a sign, and
otherwise the error says that an integer is expected and an integer was found. An optimizer
that was resolved can always be built. -/
theorem resolved_selection_builds (raw : Value) (i : Instance) :
    (Loss.family.resolve raw = .ok i →
      ((∃ l, Loss.family.build i = .ok l) ↔ ∀ n, i.get? "dim" = some (.int n) →
        -0x8000000000000000 ≤ n ∧ n < 0x8000000000000000) ∧
      ∀ e, Loss.family.build i = .error e →
        e = .fieldType i.identifier "dim" "an integer" "an integer") ∧
    (Optimizer.family.resolve raw = .ok i → ∃ o, Optimizer.family.build i = .ok o) := by
  constructor
  · intro h
    obtain ⟨m, hm, hkeys, hbuild⟩ := Family.build_of_resolve Loss.buildable_of_mem h
    simp only [Loss.overflow_iff hm hkeys] at hbuild
    rcases hbuild with ⟨⟨l, hl⟩, hfits⟩ | ⟨e, he, n, hn, hover, rfl⟩
    · refine ⟨⟨fun _ n hn => ?_, fun _ => ⟨l, hl⟩⟩, fun e he => ?_⟩
      · by_contra hout
        exact hfits _ ⟨n, hn, Value.int64?_eq_none.2 hout, rfl⟩
      · rw [hl] at he
        cases he
    · refine ⟨⟨?_, fun hfits => ?_⟩, fun d hd => ?_⟩
      · rintro ⟨l, hl⟩
        rw [hl] at he
        cases he
      · exact absurd (hfits n hn) (Value.int64?_eq_none.1 hover)
      · exact Except.error.inj (hd.symm.trans he)
  · intro h
    obtain ⟨m, hm, -, hbuild⟩ := Family.build_of_resolve Optimizer.buildable_of_mem h
    rcases hbuild with ⟨ho, -⟩ | ⟨e, -, hf, hkind, -, -⟩
    · exact ho
    · exact absurd hkind (Optimizer.kind_ne_int m hm _ hf)

/-- A loss over a dimension. -/
def distance (dim : Int) : Value := .map [("CosineDistance", .map [("dim", .int dim)])]

/-- The greatest dimension that fits is built, the next one is not, and an optimizer takes
integers where floats are due. -/
theorem resolved_selection_builds_at_bound :
    (∃ i l, Loss.family.resolve (distance 0x7fffffffffffffff) = .ok i ∧
      Loss.family.build i = .ok l) ∧
    (∃ i, Loss.family.resolve (distance 0x8000000000000000) = .ok i ∧
      ∀ l, Loss.family.build i ≠ .ok l) ∧
    ∃ i o, Optimizer.family.resolve (.map [("SGD", .map [("learning_rate", .int 1)])]) = .ok i ∧
      Optimizer.family.build i = .ok o := by
  refine ⟨?_, ?_, ?_⟩
  · have hresolve : Loss.family.resolve (distance 0x7fffffffffffffff) = .ok _ := rfl
    obtain ⟨hbuilds, -⟩ := (resolved_selection_builds _ _).1 hresolve
    obtain ⟨l, hl⟩ := hbuilds.2 fun n hn => by
      obtain rfl := Value.int.inj (Option.some.inj hn)
      decide
    exact ⟨_, l, hresolve, hl⟩
  · have hresolve : Loss.family.resolve (distance 0x8000000000000000) = .ok _ := rfl
    obtain ⟨hbuilds, -⟩ := (resolved_selection_builds _ _).1 hresolve
    refine ⟨_, hresolve, fun l hl => ?_⟩
    have hfits := hbuilds.1 ⟨l, hl⟩ 0x8000000000000000 rfl
    exact absurd hfits.2 (by decide)
  · have hresolve : Optimizer.family.resolve
      (.map [("SGD", .map [("learning_rate", .int 1)])]) = .ok _ := rfl
    obtain ⟨o, ho⟩ := (resolved_selection_builds _ _).2 hresolve
    exact ⟨_, o, hresolve, ho⟩

/-- A selection that resolves and cannot be built: an integer is refused for not being one. -/
theorem exists_resolved_selection_unbuilt :
    ¬(∀ raw i, Loss.family.resolve raw = .ok i → ∃ l, Loss.family.build i = .ok l) ∧
    ∃ i, Loss.family.resolve (distance 0x8000000000000000) = .ok i ∧ Loss.family.build i =
      .error (.fieldType "CosineDistance" "dim" "an integer" "an integer") := by
  have hresolve : Loss.family.resolve (distance 0x8000000000000000) = .ok _ := rfl
  refine ⟨fun hbuilds => ?_, _, hresolve, rfl⟩
  obtain ⟨l, hl⟩ := hbuilds _ _ hresolve
  cases hl

end WorkloadSpec
