import WorkloadSpec.Proofs.RunRoundTrip
import WorkloadSpec.Variant.Registry

/-!
A raw loss or optimizer may be made into its typed value, resolved through the registry, or
stand in a run. The three agree: they all take the selection, or all refuse it with the same
error. What the typed value is written as is the minimal form of what was resolved, with a
double for every number where a float is due.
-/
namespace WorkloadSpec

open Variant

namespace Variant

variable {α β : Type} {family : Family α} {g : α → β} {raw : Value}

/-- The same member with another typed value. -/
def Member.map (g : α → β) (m : Member α) : Member β :=
  { identifier := m.identifier, fields := m.fields, build := fun i => g <$> m.build i }

theorem Family.identifiers_map : (family.map g).identifiers = family.identifiers := by
  rw [identifiers, Family.map, List.map_map]
  rfl

theorem Family.member_map (identifier : String) :
    (family.map g).member identifier = Member.map g <$> family.member identifier := by
  have hmember : (family.map g).member? identifier =
      (family.member? identifier).map (Member.map g) := List.find?_map
  rw [member, member, hmember, identifiers_map]
  cases family.member? identifier with
  | none => rfl
  | some m => rfl

/-- Which typed value is built does not bear on what a selection resolves to. -/
theorem Family.resolve_map (raw : Value) : (family.map g).resolve raw = family.resolve raw := by
  have hselect : (family.map g).select raw = family.select raw := rfl
  rw [resolve, resolve, hselect]
  refine bind_congr fun selection => ?_
  obtain ⟨identifier, parameters⟩ := selection
  dsimp only
  rw [member_map, bind_map_left]
  rfl

theorem Family.build_map (i : Instance) : (family.map g).build i = g <$> family.build i := by
  rw [build, build, member_map, bind_map_left, map_bind]
  rfl

/-- A registry takes a selection that can be built. -/
theorem Registry.resolve_eq {r : Registry} {name : String} {forget : α → Unit}
    (h : r.family name = .ok (family.map forget)) (raw : Value) :
    r.resolve name raw = family.resolve raw >>= fun i => (fun _ => i) <$> family.build i := by
  rw [resolve, h]
  change ((family.map forget).resolve raw >>= fun i =>
    (family.map forget).build i >>= fun _ => pure i) = _
  rw [Family.resolve_map]
  refine bind_congr fun i => ?_
  rw [Family.build_map, bind_map_left, bind_pure_comp]

theorem Registry.resolve_of_make {r : Registry} {name : String} {forget : α → Unit} {a : α}
    (h : r.family name = .ok (family.map forget)) (hmake : family.make raw = .ok a) :
    ∃ i, family.resolve raw = .ok i ∧ family.build i = .ok a ∧ r.resolve name raw = .ok i := by
  obtain ⟨i, hi, hbuild⟩ := Outcome.bind_eq_ok.1 hmake
  refine ⟨i, hi, hbuild, ?_⟩
  rw [resolve_eq h]
  exact Outcome.bind_eq_ok.2 ⟨i, hi, Outcome.map_eq_ok.2 ⟨a, hbuild, rfl⟩⟩

theorem Registry.resolve_of_make_error {r : Registry} {name : String} {forget : α → Unit}
    {e : VariantError} (h : r.family name = .ok (family.map forget))
    (hmake : family.make raw = .error e) : r.resolve name raw = .error e := by
  rw [resolve_eq h]
  rw [Family.make] at hmake
  cases hi : family.resolve raw with
  | error d =>
    rw [hi] at hmake
    exact congrArg Except.error (Except.error.inj hmake)
  | ok i =>
    rw [hi] at hmake
    change family.build i = .error e at hmake
    change (fun _ => i) <$> family.build i = .error e
    rw [hmake]
    rfl

end Variant

namespace Run

theorem given_erase (entries : Mapping) (key field : String) :
    given (Mapping.erase entries key) field =
      if field = key then none else given entries field := by
  rw [given, Mapping.lookup_erase]
  split
  · rfl
  · rfl

/-- A known field may be left out. -/
theorem known_of_erase {entries : Mapping} {field : String} (hfield : field ∈ fieldNames)
    (h : Known (Mapping.erase entries field)) : Known entries := by
  refine List.find?_eq_none.2 fun e he hunknown => ?_
  have hne : e.1 ≠ field := by
    rintro rfl
    rw [List.contains_iff_mem.2 hfield] at hunknown
    cases hunknown
  exact List.find?_eq_none.1 h e (List.mem_filter.2 ⟨he, bne_iff_ne.2 hne⟩) hunknown

/-- The mapping has a selection for a field; without it, it reads as the run `r`. -/
structure Selects (entries : Mapping) (field : String) (raw : Value) (r : Run) : Prop where
  field_eq : entries.lookup field = some raw
  ne_null : raw ≠ .null
  rest : ofMapping (Mapping.erase entries field) = .ok r

variable {entries : Mapping} {raw : Value} {r : Run}

theorem Selects.given_eq_some {field : String} (h : Selects entries field raw r) :
    given entries field = some raw := by
  refine given_eq h.field_eq fun v hv => ?_
  obtain rfl := Option.some.inj hv
  exact h.ne_null

theorem ofValue_loss (h : Selects entries "loss" raw r) :
    ofValue (.map entries) = (fun l => some { r with loss := some l }) <$>
      (liftM (Loss.family.make raw) : Except ResolutionError Loss) := by
  have hrest := h.rest
  have hknown := known_of_ofMapping hrest
  rw [ofMapping_eq hknown, given_erase, given_erase, given_erase, if_neg (by decide),
    if_pos rfl, if_neg (by decide)] at hrest
  obtain ⟨cmd, hcmd, hrest⟩ := Outcome.bind_eq_ok.1 hrest
  obtain ⟨loss, hloss, hrest⟩ := Outcome.bind_eq_ok.1 hrest
  obtain ⟨optimizer, hoptimizer, hrest⟩ := Outcome.bind_eq_ok.1 hrest
  obtain rfl := Outcome.pure_eq_ok.1 hrest
  rw [ofValue, ofMapping_eq (known_of_erase (by decide) hknown),
    h.given_eq_some, ofFields, hcmd, hoptimizer, Option.mapM_some]
  cases Loss.family.make raw with
  | error e => rfl
  | ok l => rfl

theorem ofValue_optimizer (h : Selects entries "optimizer" raw r) :
    ofValue (.map entries) = (fun o => some { r with optimizer := some o }) <$>
      (liftM (Optimizer.family.make raw) : Except ResolutionError Optimizer) := by
  have hrest := h.rest
  have hknown := known_of_ofMapping hrest
  rw [ofMapping_eq hknown, given_erase, given_erase, given_erase, if_neg (by decide),
    if_neg (by decide), if_pos rfl] at hrest
  obtain ⟨cmd, hcmd, hrest⟩ := Outcome.bind_eq_ok.1 hrest
  obtain ⟨loss, hloss, hrest⟩ := Outcome.bind_eq_ok.1 hrest
  obtain ⟨optimizer, hoptimizer, hrest⟩ := Outcome.bind_eq_ok.1 hrest
  obtain rfl := Outcome.pure_eq_ok.1 hrest
  rw [ofValue, ofMapping_eq (known_of_erase (by decide) hknown),
    h.given_eq_some, ofFields, hcmd, hloss, Option.mapM_some]
  cases Optimizer.family.make raw with
  | error e => rfl
  | ok o => rfl

end Run

namespace Variant

/-- The three ways of a raw selection from a family whose typed values are written by `write`
and put into a run by `place`: all refuse it with one error, or all take it, and what the typed
value is written as is the minimal form of the instance, in doubles. -/
inductive Agree {α : Type} (family : Family α) (write : α → Value) (place : α → Run → Run)
    (raw : Value) : Prop
  | refused (e : VariantError) (make : family.make raw = .error e)
      (registry : Registry.builtin.resolve family.name raw = .error e)
      (run : ∀ entries r, Run.Selects entries family.name raw r →
        Run.ofValue (.map entries) = .error (.variant e))
  | taken (a : α) (i : Instance) (make : family.make raw = .ok a)
      (registry : Registry.builtin.resolve family.name raw = .ok i)
      (run : ∀ entries r, Run.Selects entries family.name raw r →
        Run.ofValue (.map entries) = .ok (some (place a r)))
      (resolve : family.resolve raw = .ok i)
      (form : write a = family.inDoubles (family.reduce i))

variable {α : Type} {family : Family α} {raw : Value}

/-- In a family of faithful members a typed value has the minimal form that it was read
from, in doubles. -/
theorem Family.reduce_of_build {write : α → Instance} {i : Instance} {a : α}
    (hfaithful : ∀ m ∈ family.members, Faithful write m.identifier m.fields m.build)
    (hnames : ∀ m ∈ family.members, m.Distinct) (hbuild : family.build i = .ok a) :
    family.reduce (write a) = family.inDoubles (family.reduce i) := by
  obtain ⟨m, hm, hbuild⟩ := Outcome.bind_eq_ok.1 hbuild
  have hm := member_eq_ok.1 hm
  have hid := identifier_of_member? hm
  have hmem : m ∈ family.members := List.mem_of_find?_eq_some hm
  have hwritten : (write a).identifier = m.identifier :=
    (hfaithful m hmem).identifier_eq i a hbuild
  have hmirrors : Mirrors m.fields (write a) i := (hfaithful m hmem).mirrors i a hbuild
  rw [← hid] at hm
  rw [reduce, reduce, hwritten, ← hid, hm]
  exact hmirrors.reduce (hnames m hmem) hm

theorem Agree.of_faithful {write : α → Instance} {place : α → Run → Run}
    (hregistry : Registry.builtin.family family.name = .ok (family.map fun _ => ()))
    (hfaithful : ∀ m ∈ family.members, Faithful write m.identifier m.fields m.build)
    (hnames : ∀ m ∈ family.members, m.Distinct)
    (hrun : ∀ entries r, Run.Selects entries family.name raw r →
      Run.ofValue (.map entries) = (fun a => some (place a r)) <$>
        (liftM (family.make raw) : Except ResolutionError α)) :
    Agree family (fun a => family.reduce (write a)) place raw := by
  cases hmake : family.make raw with
  | error e =>
    refine .refused e hmake (Registry.resolve_of_make_error hregistry hmake) fun entries r h => ?_
    rw [hrun entries r h, hmake]
    rfl
  | ok a =>
    obtain ⟨i, hi, hbuild, hresolve⟩ := Registry.resolve_of_make hregistry hmake
    refine .taken a i hmake hresolve (fun entries r h => ?_) hi
      (Family.reduce_of_build hfaithful hnames hbuild)
    rw [hrun entries r h, hmake]
    rfl

/-- However a loss or an optimizer is selected, it is taken or refused alike, and what was
made is written as the minimal form of what was resolved, in doubles. -/
theorem typed_selections_agree (raw : Value) :
    Agree Loss.family Loss.toValue (fun l r => { r with loss := some l }) raw ∧
      Agree Optimizer.family Optimizer.toValue (fun o r => { r with optimizer := some o }) raw :=
  ⟨.of_faithful rfl Loss.faithful_of_mem Loss.distinct_of_mem fun _ _ h => Run.ofValue_loss h,
    .of_faithful rfl Optimizer.faithful_of_mem Optimizer.distinct_of_mem
      fun _ _ h => Run.ofValue_optimizer h⟩

/-- A loss whose clip is given as an integer. -/
def clipped : Value := .map [("HuberLoss", .map [("clip", .int 1)])]

/-- A run that trains with a selected loss. -/
def training (raw : Value) : Mapping := [("cmd", .str "train"), ("loss", raw)]

/-- A dimension too great for 64 signed bits: the field takes it, and the loss does not. -/
def vast : Value := .map [("CosineDistance", .map [("dim", .int 0x8000000000000000)])]

theorem selects_training (raw : Value) (h : raw ≠ .null) :
    Run.Selects (training raw) "loss" raw { cmd := some (.line "train") } where
  field_eq := rfl
  ne_null := h
  rest := rfl

theorem typed_selections_agree_clipped_and_vast :
    (∃ l, Loss.family.make clipped = .ok l ∧
      Run.ofValue (.map (training clipped)) =
        .ok (some { cmd := some (.line "train"), loss := some l }) ∧
      l.toValue = .map [("HuberLoss", .map [("weights", .float (.ofInt 1)),
        ("clip", .float (.ofInt 1)), ("collect", .bool true)])]) ∧
    ∃ e i, Loss.family.resolve vast = .ok i ∧
      Registry.builtin.resolve "loss" vast = .error e ∧
      Run.ofValue (.map (training vast)) = .error (.variant e) := by
  constructor
  · cases (typed_selections_agree clipped).1 with
    | refused e hmake => cases hmake
    | taken l i hmake hregistry hrun hresolve hform =>
      refine ⟨l, hmake, hrun _ _ (selects_training clipped (by simp [clipped])), ?_⟩
      cases hresolve
      exact hform
  · cases (typed_selections_agree vast).1 with
    | refused e hmake hregistry hrun =>
      exact ⟨e, _, rfl, hregistry, hrun _ _ (selects_training vast (by simp [vast]))⟩
    | taken l i hmake => cases hmake

end Variant

end WorkloadSpec
