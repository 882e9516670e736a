import WorkloadSpec.Proofs.History
import WorkloadSpec.Proofs.SettingsRoundTrip
import WorkloadSpec.Proofs.Unmarked

/-!
What it means that a section is required. The merged document is checked for required
sections before operators are expanded, so a section that is absent, or cleared by a layer,
is refused. A section that is there has its settings, unless it is one that may hold
operators and expands to nothing: then there are none, although the section is required.
-/
namespace WorkloadSpec

namespace Mapping

/-- What stands under a key is found again in entries that are paired off in order. -/
theorem exists_lookup_of_forall₂ {R : String × Value → String × Value → Prop}
    {es fs : List (String × Value)} {key : String} {v : Value}
    (h : List.Forall₂ (fun e f => f.1 = e.1 ∧ R e f) es fs) (hv : es.lookup key = some v) :
    ∃ w, fs.lookup key = some w ∧ R (key, v) (key, w) := by
  induction h with
  | nil => cases hv
  | @cons e f es fs hef _ ih =>
    obtain ⟨k, u⟩ := e
    obtain ⟨l, w⟩ := f
    obtain ⟨rfl, hr⟩ : l = k ∧ R (k, u) (l, w) := hef
    rw [lookup_cons] at hv ⊢
    by_cases hk : key = l
    · rw [if_pos hk] at hv ⊢
      obtain rfl := Option.some.inj hv
      exact ⟨w, rfl, hk ▸ hr⟩
    · rw [if_neg hk] at hv ⊢
      exact ih hv

end Mapping

namespace Settings

/-- Sections that have settings. -/
def places : List Section := [.environment, .declarations, .hptuning, .build, .run]

def holds (s : Settings) : Section → Bool
  | .environment => s.environment.isSome
  | .declarations => s.declarations.isSome
  | .hptuning => s.sweep.isSome
  | .build => s.build.isSome
  | .run => s.run.isSome
  | _ => false

theorem isSome_readSection {α : Type} {c : Codec α} {place : Section} {v : Value} {o : Option α}
    (h : readSection place c.option v = .ok o) : o.isSome = !v.isNull := by
  have hdecode := Outcome.mapError_ok.1 h
  cases v with
  | null =>
    cases hdecode
    rfl
  | _ =>
    obtain ⟨a, -, rfl⟩ := Outcome.map_eq_ok.1 hdecode
    rfl

theorem isSome_readDeclarations {v : Value} {o : Option Mapping}
    (h : readDeclarations v = .ok o) : o.isSome = !v.isNull := by
  cases v with
  | null | map =>
    cases h
    rfl
  | _ => cases h

theorem isSome_readSweep {v : Value} {o : Option Sweep} (h : readSweep v = .ok o) :
    o.isSome = !v.isNull := by
  obtain ⟨sweep, hsweep, h⟩ := Outcome.bind_eq_ok.1 h
  have ho : sweep = o := by
    cases sweep with
    | none => exact Outcome.pure_eq_ok.1 h
    | some x =>
      obtain ⟨_, -, h⟩ := Outcome.bind_eq_ok.1 h
      exact Outcome.pure_eq_ok.1 h
  exact ho ▸ isSome_readSection hsweep

theorem isSome_ofValue {v : Value} {o : Option Run} (h : Run.ofValue v = .ok o) :
    o.isSome = !v.isNull := by
  cases v with
  | null =>
    cases h
    rfl
  | map entries =>
    obtain ⟨_, -, rfl⟩ := Outcome.map_eq_ok.1 h
    rfl
  | _ => cases h

variable {s t : Settings} {place other : Section} {v : Value}

/-- A section that is read has settings unless it is null. -/
theorem holds_read_self (hplace : place ∈ places) (h : s.read place v = .ok t) :
    t.holds place = !v.isNull := by
  cases place with
  | environment =>
    obtain ⟨o, ho, h⟩ := Outcome.bind_eq_ok.1 h
    exact Outcome.pure_eq_ok.1 h ▸ isSome_readSection (Outcome.lift_document_eq_ok.1 ho)
  | declarations =>
    obtain ⟨o, ho, h⟩ := Outcome.bind_eq_ok.1 h
    exact Outcome.pure_eq_ok.1 h ▸ isSome_readDeclarations (Outcome.lift_document_eq_ok.1 ho)
  | hptuning =>
    obtain ⟨o, ho, h⟩ := Outcome.bind_eq_ok.1 h
    exact Outcome.pure_eq_ok.1 h ▸ isSome_readSweep (Outcome.lift_document_eq_ok.1 ho)
  | build =>
    obtain ⟨o, ho, h⟩ := Outcome.bind_eq_ok.1 h
    exact Outcome.pure_eq_ok.1 h ▸ isSome_readSection (Outcome.lift_document_eq_ok.1 ho)
  | run =>
    obtain ⟨o, ho, h⟩ := Outcome.bind_eq_ok.1 h
    exact Outcome.pure_eq_ok.1 h ▸ isSome_ofValue ho
  | _ => exact absurd hplace (by decide)

theorem holds_read_other (hne : other ≠ place) (h : s.read place v = .ok t) :
    t.holds other = s.holds other := by
  unfold Settings.read at h
  split at h
  case h_6 => exact Outcome.pure_eq_ok.1 h ▸ rfl
  all_goals
    obtain ⟨o, -, h⟩ := Outcome.bind_eq_ok.1 h
    obtain rfl := Outcome.pure_eq_ok.1 h
    cases other <;> first | rfl | exact absurd rfl hne

/-- The last entry of a section decides; where none is twice, it is the only one. -/
theorem holds_foldlM {entries : Mapping} (hplace : place ∈ places)
    (hentries : (Mapping.keys entries).Nodup) (h : entries.foldlM readEntry s = .ok t) :
    t.holds place = match entries.lookup place.key with
      | some v => !v.isNull
      | none => s.holds place := by
  induction entries generalizing s with
  | nil =>
    obtain rfl := Outcome.pure_eq_ok.1 h
    rfl
  | cons e entries ih =>
    obtain ⟨key, v⟩ := e
    obtain ⟨hkey, hrest⟩ := List.nodup_cons.1 hentries
    rw [List.foldlM_cons] at h
    obtain ⟨u, hu, h⟩ := Outcome.bind_eq_ok.1 h
    rw [ih hrest h, Mapping.lookup_cons]
    by_cases hk : place.key = key
    · subst hk
      have hread : s.read place v = .ok u := by
        rw [readEntry, Section.ofKey?_key] at hu
        exact hu
      have hnone : entries.lookup place.key = none := Mapping.lookup_eq_none_of_not_mem hkey
      rw [if_pos rfl, hnone]
      exact holds_read_self hplace hread
    · have hkept : u.holds place = s.holds place := by
        unfold readEntry at hu
        split at hu
        · next first hfirst =>
          have hne : place ≠ first := by
            rintro rfl
            exact hk (Section.key_of_ofKey? hfirst)
          exact holds_read_other hne hu
        · obtain rfl := Outcome.pure_eq_ok.1 hu
          rfl
      rw [if_neg hk, hkept]

/-- A section has settings just when it is there and not null. -/
theorem holds_ofSections {sections : Mapping} (hplace : place ∈ places)
    (hsections : (Mapping.keys sections).Nodup) (h : ofSections sections = .ok s) :
    s.holds place = (sections.lookup place.key).any (!·.isNull) := by
  rw [ofSections_eq] at h
  rw [holds_foldlM hplace hsections h]
  cases sections.lookup place.key with
  | none => cases place <;> rfl
  | some v => rfl

end Settings

namespace Source

/-- A section that the last layer clears is not in the merged document. -/
theorem not_mem_keys_of_cleared {files : Files} {sources : List Source} {data : Mapping}
    {key : String} (h : read files (sources ++ [.value (.map [(key, .null)])]) = .ok data) :
    key ∉ Mapping.keys data := by
  have hlast : documents files [.value (.map [(key, .null)])] = .ok [[(key, .null)]] := rfl
  rw [read_eq, documents_append, hlast] at h
  obtain ⟨documents, hdocuments, rfl⟩ := Outcome.map_eq_ok.1 h
  obtain ⟨ds, -, hdocuments⟩ := Outcome.bind_eq_ok.1 hdocuments
  obtain rfl := Outcome.pure_eq_ok.1 hdocuments
  have herase : Mapping.merge (ds ++ [[(key, .null)]]) = Mapping.erase (Mapping.merge ds) key := by
    rw [Mapping.merge, List.foldl_append]
    rfl
  have hlookup : (Mapping.erase (Mapping.merge ds) key).lookup key = none := by
    rw [Mapping.lookup_erase, if_pos rfl]
  rw [herase, ← Mapping.has_iff_mem_keys, Mapping.has, hlookup]
  exact Bool.false_ne_true

end Source

namespace Specification

variable {s : Specification} {files : Files} {kind : Kind} {sources : List Source}
  {place : Section} {v : Value}

/-- A section that may hold operators is what it expands to, another one what it is. -/
theorem Settled.exists_lookup_sections (h : s.Settled)
    (hv : s.data.lookup place.key = some v) :
    ∃ w, s.sections.lookup place.key = some w ∧
      (place ∈ s.kind.contract.operator → expandSection s.data v = .ok w) ∧
      (place ∉ s.kind.contract.operator → w = v) := by
  have hpairs : List.Forall₂ (fun e f => f.1 = e.1 ∧ expandEntry s.kind.contract s.data e = .ok f)
      s.data s.sections :=
    (Outcome.mapM_eq_ok.1 h.staged.expanded).imp fun _ _ he => ⟨(expandEntry_keeps he).1, he⟩
  obtain ⟨w, hw, hentry⟩ := Mapping.exists_lookup_of_forall₂ hpairs hv
  refine ⟨w, hw, fun hoperator => ?_, fun hplain => ?_⟩
  · obtain ⟨u, hu, hsame⟩ := (expandEntry_operator_eq_ok hoperator).1 hentry
    obtain ⟨-, rfl⟩ := Prod.mk.inj hsame
    exact hu
  · rw [expandEntry_plain hplain] at hentry
    exact (Prod.mk.inj (Except.ok.inj hentry)).2.symm

/-- A section that is there lacks settings just when it expands to nothing. -/
theorem Settled.holds_eq_false_iff (h : s.Settled) (hplace : place ∈ Settings.places)
    (hv : s.data.lookup place.key = some v) (hnull : v ≠ .null) :
    s.settings.holds place = false ↔
      place ∈ s.kind.contract.operator ∧ expandSection s.data v = .ok .null := by
  obtain ⟨w, hw, hoperator, hplain⟩ := h.exists_lookup_sections hv
  have hdistinct : (Mapping.keys s.sections).Nodup := by
    rw [expandSections_keys h.staged.expanded]
    exact h.clean.distinct
  have hholds : s.settings.holds place = !w.isNull := by
    rw [Settings.holds_ofSections hplace hdistinct h.staged.typed, hw]
    rfl
  rw [hholds, Bool.not_eq_false', Value.isNull_iff]
  by_cases hmem : place ∈ s.kind.contract.operator
  · have hexpand := hoperator hmem
    constructor
    · rintro rfl
      exact ⟨hmem, hexpand⟩
    · rintro ⟨-, hnothing⟩
      exact Except.ok.inj (hexpand.symm.trans hnothing)
  · constructor
    · intro hw
      exact absurd ((hplain hmem).symm.trans hw) hnull
    · rintro ⟨hmem', -⟩
      exact absurd hmem' hmem

/-- A document without a required section is refused. -/
theorem exists_error_of_not_mem {data : Mapping} (hplace : place ∈ kind.contract.required)
    (hread : Source.read files sources = .ok data) (hkey : place.key ∉ Mapping.keys data) :
    ∃ e, resolve files kind sources = .error e := by
  cases h : resolve files kind sources with
  | error e => exact ⟨e, rfl⟩
  | ok s =>
    obtain ⟨hdata, -, hstaged⟩ := resolve_eq_ok.1 h
    obtain rfl := Except.ok.inj (hread.symm.trans hdata)
    exact absurd (Contract.required_of_check hstaged.checked hplace) hkey

theorem exists_error_of_cleared (hplace : place ∈ kind.contract.required) :
    ∃ e, resolve files kind (sources ++ [.value (.map [(place.key, .null)])]) = .error e := by
  cases hread : Source.read files (sources ++ [.value (.map [(place.key, .null)])]) with
  | error e =>
    refine ⟨.document e, ?_⟩
    rw [resolve, hread]
    rfl
  | ok data => exact exists_error_of_not_mem hplace hread (Source.not_mem_keys_of_cleared hread)

end Specification

namespace History

open Specification

/-- A required section has its settings in every specification that there is, unless its
operators leave nothing of it. Absent or cleared, it is refused. -/
theorem holds_required_iff (calls : List Call) (files : Files) (kind : Kind)
    (sources : List Source) :
    (∀ s ∈ run calls, ∀ place ∈ s.kind.contract.required, place ∈ Settings.places →
      ∃ v, s.data.lookup place.key = some v ∧ v ≠ .null ∧
        (s.settings.holds place = false ↔
          place ∈ s.kind.contract.operator ∧ expandSection s.data v = .ok .null)) ∧
    ∀ place ∈ kind.contract.required,
      (∀ data, Source.read files sources = .ok data → place.key ∉ Mapping.keys data →
        ∃ e, resolve files kind sources = .error e) ∧
      ∃ e, resolve files kind (sources ++ [.value (.map [(place.key, .null)])]) = .error e := by
  constructor
  · intro s hs place hrequired hplace
    have hsettled := settled_of_mem_run hs
    have hmem := Contract.required_of_check hsettled.staged.checked hrequired
    obtain ⟨v, hv⟩ := Mapping.exists_lookup hmem
    have hentry : (place.key, v) ∈ s.data := by
      obtain ⟨before, after, hdata, -⟩ := List.lookup_eq_some_iff.1 hv
      rw [hdata]
      exact List.mem_append_right before List.mem_cons_self
    have hnull : v ≠ .null := hsettled.clean.filled _ hentry
    exact ⟨v, hv, hnull, hsettled.holds_eq_false_iff hplace hv hnull⟩
  · intro place hplace
    refine ⟨fun data hread hkey => ?_, exists_error_of_cleared hplace⟩
    exact exists_error_of_not_mem hplace hread hkey

/-- A job whose build is a branch that is not taken. -/
def unbuiltJob : Mapping :=
  [("version", .int 1), ("kind", .str "job"),
    ("build", .map [("if", .bool false), ("do", .map [("image", .str "python:3")])]),
    ("run", .map [("cmd", .str "python main.py")])]

def unbuilt : Specification where
  sources := [.value (.map unbuiltJob)]
  data := unbuiltJob
  header := { version := 1, kind := .job }
  sections := [("version", .int 1), ("kind", .str "job"), ("build", .null),
    ("run", .map [("cmd", .str "python main.py")])]
  settings := { run := some { cmd := some (.line "python main.py") } }

theorem expandSection_untakenBuild : expandSection unbuiltJob
    (.map [("if", .bool false), ("do", .map [("image", .str "python:3")])]) = .ok .null := by
  rw [expandSection, expandSlot_eq_single (by intro _ _ _ h; cases h), expand_branch rfl]
  rfl

theorem expandSection_plainRun : expandSection unbuiltJob (.map [("cmd", .str "python main.py")]) =
    .ok (.map [("cmd", .str "python main.py")]) :=
  expandSection_of_unmarked rfl (by simp; decide)

theorem ofValue_unbuiltJob : ofValue .job (.map unbuiltJob) = .ok unbuilt := by
  have hoperator : Section.build ∈ Kind.job.contract.operator ∧
      Section.run ∈ Kind.job.contract.operator := by decide
  have hbuild := (expandEntry_operator_eq_ok hoperator.1).2 ⟨_, expandSection_untakenBuild, rfl⟩
  have hrun := (expandEntry_operator_eq_ok hoperator.2).2 ⟨_, expandSection_plainRun, rfl⟩
  have hsections : expandSections Kind.job.contract unbuiltJob = .ok unbuilt.sections :=
    Outcome.mapM_eq_ok.2 (.cons rfl (.cons rfl (.cons hbuild (.cons hrun .nil))))
  exact resolve_eq_ok.2 ⟨rfl, rfl, rfl, rfl, rfl, hsections, rfl⟩

theorem unbuilt_mem_run : unbuilt ∈ run [.ofValue .job (.map unbuiltJob)] :=
  mem_run_ofValue ofValue_unbuiltJob

/-- Not every required section has settings: the operators of a job can leave it without
its build. -/
theorem exists_required_unheld : ¬∀ calls, ∀ s ∈ run calls,
    ∀ place ∈ s.kind.contract.required, place ∈ Settings.places →
      s.settings.holds place = true := by
  intro h
  have hheld := h _ unbuilt unbuilt_mem_run .build (by decide) (by decide)
  cases hheld

/-- The job again: its build is not held and its run is, and with the build cleared by a
layer it is refused. -/
theorem holds_required_iff_unbuilt : ∃ s ∈ run [.ofValue .job (.map unbuiltJob)],
    s.settings.holds .build = false ∧ s.settings.holds .run ≠ false ∧
    ∃ e, resolve (fun _ => .error .notFound) .job
      [.value (.map unbuiltJob), .value (.map [("build", .null)])] = .error e := by
  obtain ⟨hheld, hrefused⟩ := holds_required_iff [.ofValue .job (.map unbuiltJob)]
    (fun _ => .error .notFound) .job [.value (.map unbuiltJob)]
  refine ⟨unbuilt, unbuilt_mem_run, ?_, ?_, ?_⟩
  · obtain ⟨v, hv, -, hiff⟩ := hheld unbuilt unbuilt_mem_run .build (by decide) (by decide)
    obtain rfl := Option.some.inj hv
    exact hiff.2 ⟨by decide, expandSection_untakenBuild⟩
  · obtain ⟨v, hv, -, hiff⟩ := hheld unbuilt unbuilt_mem_run .run (by decide) (by decide)
    obtain rfl := Option.some.inj hv
    intro hlost
    have hnothing := (hiff.1 hlost).2
    cases expandSection_plainRun.symm.trans hnothing
  · exact (hrefused .build (by decide)).2

end History

end WorkloadSpec
