import WorkloadSpec.Proofs.Stages

/-!
Histories of specifications. A history is made by calls of the constructors, of which
any may fail and any may start from a result that is already there; files may change
from one call to the next. Every specification of a history has a clean document that
went through all the stages, and from this follows what its users rely on: its
sections are those of its kind, its document says which kind and version it is, and
resolving the document again gives the same specification, for this kind and for no
other.
-/
namespace WorkloadSpec

namespace Mapping

theorem keys_of_forall₂ {es fs : List (String × Value)}
    (h : List.Forall₂ (fun e f => f.1 = e.1) es fs) : keys fs = keys es := by
  induction h with
  | nil => rfl
  | cons he _ ih => exact congrArg₂ List.cons he ih

theorem lookup_of_forall₂ {es fs : List (String × Value)} {key : String}
    (h : List.Forall₂ (fun e f => f.1 = e.1 ∧ (key = e.1 → f = e)) es fs) :
    fs.lookup key = es.lookup key := by
  induction h with
  | nil => rfl
  | @cons e f _ _ he _ ih =>
    rw [lookup_cons, lookup_cons, he.1, ih]
    by_cases hk : key = e.1
    · rw [if_pos hk, if_pos hk, he.2 hk]
    · rw [if_neg hk, if_neg hk]

end Mapping

namespace Specification

variable {s t : Specification} {files : Files} {kind : Kind} {sources : List Source}

/-- The document is merged, and every stage has gone through it. -/
structure Settled (s : Specification) : Prop where
  clean : s.data.Clean
  staged : s.Staged s.kind

theorem settled_of_resolve (h : resolve files kind sources = .ok s) : s.Settled := by
  obtain ⟨hread, -, hstaged⟩ := resolve_eq_ok.1 h
  exact ⟨Source.clean_of_read hread, hstaged.kind_eq.symm ▸ hstaged⟩

theorem settled_of_detect {kind? : Option Kind} (h : detect files kind? sources = .ok s) :
    s.Settled := by
  cases kind? with
  | some kind => exact settled_of_resolve h
  | none =>
    obtain ⟨_, -, hdetect⟩ := Outcome.bind_eq_ok.1 h
    obtain ⟨_, -, hresolve⟩ := Outcome.bind_eq_ok.1 hdetect
    exact settled_of_resolve hresolve

theorem settled_of_convert (hs : s.Settled) (h : s.convert kind = .ok t) : t.Settled := by
  unfold convert at h
  split at h
  · exact Except.ok.inj h ▸ hs
  · exact settled_of_resolve h

theorem settled_of_ofBuild {input : BuildInput} (h : ofBuild input = .ok s) : s.Settled := by
  obtain ⟨_, -, hvalue⟩ := Outcome.bind_eq_ok.1 h
  exact settled_of_resolve hvalue

/-- Expansion keeps the key of a section, and touches no section but `build` and `run`. -/
theorem expandEntry_keeps {data : Mapping} {e e' : String × Value}
    (h : expandEntry kind.contract data e = .ok e') :
    e'.1 = e.1 ∧ (e.1 ≠ Section.build.key → e.1 ≠ Section.run.key → e' = e) := by
  unfold expandEntry at h
  split at h
  · next place hplace =>
    rw [Outcome.mapError_ok] at h
    obtain ⟨v, -, rfl⟩ := Outcome.map_eq_ok.1 h
    obtain ⟨hkey, hoperator⟩ := Option.filter_eq_some_iff.1 hplace
    have hplace' : place = .build ∨ place = .run := by
      simpa [Kind.contract] using hoperator
    refine ⟨rfl, fun hbuild hrun => ?_⟩
    rcases hplace' with rfl | rfl
    · exact absurd (Section.key_of_ofKey? hkey).symm hbuild
    · exact absurd (Section.key_of_ofKey? hkey).symm hrun
  · obtain rfl := Except.ok.inj h
    exact ⟨rfl, fun _ _ => rfl⟩

theorem expandSections_keys {data sections : Mapping}
    (h : expandSections kind.contract data = .ok sections) :
    Mapping.keys sections = Mapping.keys data :=
  Mapping.keys_of_forall₂ ((Outcome.mapM_eq_ok.1 h).imp fun _ _ he => (expandEntry_keeps he).1)

theorem expandSections_lookup {data sections : Mapping}
    (h : expandSections kind.contract data = .ok sections) {key : String}
    (hbuild : key ≠ Section.build.key) (hrun : key ≠ Section.run.key) :
    sections.lookup key = data.lookup key := by
  refine Mapping.lookup_of_forall₂ ((Outcome.mapM_eq_ok.1 h).imp fun e e' he => ?_)
  obtain ⟨hkey, hsame⟩ := expandEntry_keeps he
  exact ⟨hkey, fun hk => hsame (hk ▸ hbuild) (hk ▸ hrun)⟩

/-- What holds of every specification there is. -/
structure Lawful (s : Specification) : Prop where
  distinct : (Mapping.keys s.data).Nodup
  filled : ∀ e ∈ s.data, e.2 ≠ .null
  possible : ∀ key ∈ Mapping.keys s.data, ∃ place ∈ s.kind.contract.possible, place.key = key
  required : ∀ place ∈ s.kind.contract.required, place.key ∈ Mapping.keys s.data
  detected : Kind.detect s.data = .ok s.kind
  version : s.data.lookup Section.version.key = some (.int s.header.version) ∧
    Header.leastVersion ≤ s.header.version ∧ s.header.version ≤ Header.greatestVersion
  keys : Mapping.keys s.sections = Mapping.keys s.data
  plain : ∀ key, key ≠ Section.build.key → key ≠ Section.run.key →
    s.sections.lookup key = s.data.lookup key
  /-- The document resolves to the same specification again. -/
  replay : ofValue s.kind (.map s.data) = .ok { s with sources := [.value (.map s.data)] }
  /-- As a specification of another kind it is refused by the name of its own. -/
  mismatch : ∀ kind, kind ≠ s.kind →
    s.convert kind = .error (.document (.kindMismatch kind s.kind))

theorem Settled.ofValue_eq (h : s.Settled) (kind : Kind) :
    ofValue kind (.map s.data) = ofDocument kind [.value (.map s.data)] s.data := by
  unfold ofValue resolve
  rw [Source.read_value _ h.clean]
  rfl

theorem Settled.replay (h : s.Settled) :
    ofValue s.kind (.map s.data) = .ok { s with sources := [.value (.map s.data)] } := by
  have hs := h.staged
  rw [h.ofValue_eq]
  exact ofDocument_eq_ok.2
    ⟨rfl, rfl, hs.identified, hs.checked, hs.headed, hs.expanded, hs.typed⟩

theorem Settled.mismatch (h : s.Settled) (hkind : kind ≠ s.kind) :
    s.convert kind = .error (.document (.kindMismatch kind s.kind)) := by
  obtain ⟨hversion, hdetect, -⟩ := Header.identify_eq_ok.1 h.staged.identified
  have hid : Header.identify s.data kind = .error (.kindMismatch kind s.kind) := by
    rw [Header.identify_eq hversion hdetect, if_neg (Ne.symm hkind)]
  rw [convert, if_neg (Ne.symm hkind), h.ofValue_eq, ofDocument, hid]
  rfl

theorem Settled.lawful (h : s.Settled) : s.Lawful := by
  obtain ⟨hversion, hdetect, -⟩ := Header.identify_eq_ok.1 h.staged.identified
  exact {
    distinct := h.clean.distinct
    filled := h.clean.filled
    possible := fun _ hkey => Contract.possible_of_check h.staged.checked hkey
    required := fun _ hplace => Contract.required_of_check h.staged.checked hplace
    detected := hdetect
    version := Header.readVersion_eq_ok hversion
    keys := expandSections_keys h.staged.expanded
    plain := fun _ hbuild hrun => expandSections_lookup h.staged.expanded hbuild hrun
    replay := h.replay
    mismatch := fun _ hkind => h.mismatch hkind
  }

end Specification

namespace History

open Specification

/-- A call of a constructor. Results that are there are named by their place. -/
inductive Call where
  | resolve (files : Files) (kind : Kind) (sources : List Source)
  | detect (files : Files) (kind? : Option Kind) (sources : List Source)
  | ofValue (kind : Kind) (v : Value)
  | convert (place : Nat) (kind : Kind)
  | patch (files : Files) (place : Nat) (extra : List Source)
  | ofBuild (input : BuildInput)

/-- The outcome of a call; nothing, when there is no result in the place it names. -/
def Call.outcome? (history : List Specification) :
    Call → Option (Except ResolutionError Specification)
  | resolve files kind sources => some (Specification.resolve files kind sources)
  | detect files kind? sources => some (Specification.detect files kind? sources)
  | ofValue kind v => some (Specification.ofValue kind v)
  | convert place kind => history[place]?.map (·.convert kind)
  | patch files place extra => history[place]?.map (·.patch files extra)
  | ofBuild input => some (Specification.ofBuild input)

/-- A call that fails leaves the history as it is. -/
def record (history : List Specification) (call : Call) : List Specification :=
  history ++ ((call.outcome? history).bind Except.toOption).toList

def run (calls : List Call) : List Specification := calls.foldl record []

theorem settled_of_outcome? {history : List Specification} {call : Call} {s : Specification}
    (hall : ∀ t ∈ history, t.Settled) (h : call.outcome? history = some (.ok s)) :
    s.Settled := by
  cases call with
  | resolve files kind sources => exact settled_of_resolve (Option.some.inj h)
  | detect files kind? sources => exact settled_of_detect (Option.some.inj h)
  | ofValue kind v => exact settled_of_resolve (Option.some.inj h)
  | convert place kind =>
    obtain ⟨t, ht, hconvert⟩ := Option.map_eq_some_iff.1 h
    exact settled_of_convert (hall t (List.mem_of_getElem? ht)) hconvert
  | patch files place extra =>
    obtain ⟨t, -, hpatch⟩ := Option.map_eq_some_iff.1 h
    exact settled_of_resolve hpatch
  | ofBuild input => exact settled_of_ofBuild (Option.some.inj h)

theorem settled_record {history : List Specification} (hall : ∀ t ∈ history, t.Settled)
    (call : Call) : ∀ s ∈ record history call, s.Settled := by
  intro s hs
  rcases List.mem_append.1 hs with hs | hs
  · exact hall s hs
  · obtain ⟨outcome, houtcome, hok⟩ := Option.bind_eq_some_iff.1 (Option.mem_toList.1 hs)
    rw [Outcome.toOption_eq_some] at hok
    exact settled_of_outcome? hall (hok ▸ houtcome)

theorem settled_foldl_record {history : List Specification} (hall : ∀ t ∈ history, t.Settled)
    (calls : List Call) : ∀ s ∈ calls.foldl record history, s.Settled := by
  induction calls generalizing history with
  | nil => exact hall
  | cons call calls ih => exact ih (settled_record hall call)

theorem settled_of_mem_run {calls : List Call} {s : Specification} (h : s ∈ run calls) :
    s.Settled :=
  settled_foldl_record (fun _ ht => absurd ht List.not_mem_nil) calls s h

theorem mem_run_ofValue {kind : Kind} {v : Value} {s : Specification}
    (h : Specification.ofValue kind v = .ok s) : s ∈ run [.ofValue kind v] := by
  rw [run, List.foldl_cons, record, Call.outcome?, h]
  exact List.mem_singleton_self s

/-- Whatever calls are made, in whatever order and with whatever failures, every
specification that comes out of them is lawful. -/
theorem lawful_of_mem_run {calls : List Call} {s : Specification} (h : s ∈ run calls) :
    s.Lawful :=
  (settled_foldl_record (fun _ ht => absurd ht List.not_mem_nil) calls s h).lawful

/-- A history with calls that fail: of an empty document, as another kind, and of a
result that is not there. Its second result has a section cleared. -/
theorem lawful_of_failing_run :
    let files : Files := fun _ => .error .notFound
    let board : Value :=
      .map [("version", .int 1), ("tags", .str "a"), ("kind", .str "tensorboard")]
    ∃ s, s ∈ run [.ofValue .job .null, .resolve files .tensorboard [.value board], .convert 0 .job,
        .patch files 0 [.value (.map [("tags", .null)])], .patch files 7 []] ∧
      Mapping.keys s.data = ["version", "kind"] ∧ s.Lawful := by
  intro files board
  let calls : List Call := [.ofValue .job .null, .resolve files .tensorboard [.value board],
    .convert 0 .job, .patch files 0 [.value (.map [("tags", .null)])], .patch files 7 []]
  obtain ⟨s, hs, hkeys⟩ : ∃ s, (run calls)[1]? = some s ∧
      Mapping.keys s.data = ["version", "kind"] := ⟨_, rfl, rfl⟩
  have hmem : s ∈ run calls := List.mem_of_getElem? hs
  exact ⟨s, hmem, hkeys, lawful_of_mem_run hmem⟩

end History

end WorkloadSpec
