import WorkloadSpec.Proofs.RunRoundTrip
import WorkloadSpec.Proofs.SectionRoundTrip
import WorkloadSpec.Settings

/-!
Typed settings read back. Whatever form of the sections they were read from, what is
written of them reads as the same settings, and is written the same once more. Only the
doubles of a loss or an optimizer may differ, in the sign of a zero that is default.
-/
namespace WorkloadSpec

/-- What a codec writes is read as the section it was. -/
theorem readSection_encode {α : Type} {c : Codec α} {a : α} (place : Section)
    (hnull : c.encode a ≠ .null) (h : c.Restores a) :
    readSection place c.option (c.encode a) = .ok (some a) := by
  rw [readSection, Codec.option_decode hnull, h]
  rfl

namespace Settings

/-- Takes over one entry; what is no section is passed over. -/
def readEntry (s : Settings) (e : String × Value) : Except ResolutionError Settings :=
  match Section.ofKey? e.1 with
  | some place => s.read place e.2
  | none => pure s

theorem ofSections_eq (sections : Mapping) :
    ofSections sections = sections.foldlM readEntry {} := rfl

/-- The same settings; a run may have doubles that are only numerically equal. -/
structure Same (s t : Settings) : Prop where
  environment : s.environment = t.environment
  declarations : s.declarations = t.declarations
  sweep : s.sweep = t.sweep
  build : s.build = t.build
  run : Option.Rel Run.Same s.run t.run

/-- What holds of all settings that were read. -/
structure Regular (s : Settings) : Prop where
  sweep : ∀ x ∈ s.sweep, x.Regular ∧ x.check = .ok ()
  run : ∀ r ∈ s.run, r.Named

/-- An option that is read holds what its codec reads. -/
theorem exists_of_readSection {α : Type} {c : Codec α} {place : Section} {v : Value}
    {o : Option α} (h : readSection place c.option v = .ok o) {a : α} (ha : a ∈ o) :
    c.decode v = .ok a := by
  have hdecode := Outcome.mapError_ok.1 h
  obtain rfl := ha
  cases v with
  | null => cases hdecode
  | _ =>
    obtain ⟨b, hb, hba⟩ := Outcome.map_eq_ok.1 hdecode
    exact Option.some.inj hba ▸ hb

theorem regular_of_readSweep {v : Value} {sweep : Option Sweep} (h : readSweep v = .ok sweep)
    {x : Sweep} (hx : x ∈ sweep) : x.Regular ∧ x.check = .ok () := by
  obtain ⟨read, hread, h⟩ := Outcome.bind_eq_ok.1 h
  cases read with
  | none =>
    obtain rfl := Outcome.pure_eq_ok.1 h
    cases hx
  | some y =>
    obtain ⟨⟨⟩, hcheck, h⟩ := Outcome.bind_eq_ok.1 h
    obtain rfl := Outcome.pure_eq_ok.1 h
    obtain rfl := Option.some.inj hx
    exact ⟨Sweep.regular_of_decode (exists_of_readSection hread rfl), Outcome.mapError_ok.1 hcheck⟩

theorem named_of_ofValue {v : Value} {run : Option Run} (h : Run.ofValue v = .ok run) {r : Run}
    (hr : r ∈ run) : r.Named := by
  cases v with
  | null =>
    cases h
    cases hr
  | map entries =>
    obtain ⟨s, hs, rfl⟩ := Outcome.map_eq_ok.1 h
    exact Option.some.inj hr ▸ Run.named_of_ofMapping hs
  | _ => cases h

theorem Regular.read {s t : Settings} {place : Section} {v : Value} (hs : s.Regular)
    (h : s.read place v = .ok t) : t.Regular := by
  unfold Settings.read at h
  split at h
  · obtain ⟨_, -, h⟩ := Outcome.bind_eq_ok.1 h
    obtain rfl := Outcome.pure_eq_ok.1 h
    exact ⟨hs.sweep, hs.run⟩
  · obtain ⟨_, -, h⟩ := Outcome.bind_eq_ok.1 h
    obtain rfl := Outcome.pure_eq_ok.1 h
    exact ⟨hs.sweep, hs.run⟩
  · obtain ⟨sweep, hsweep, h⟩ := Outcome.bind_eq_ok.1 h
    obtain rfl := Outcome.pure_eq_ok.1 h
    have hsweep : readSweep v = .ok sweep := Outcome.lift_document_eq_ok.1 hsweep
    exact ⟨fun x hx => regular_of_readSweep hsweep hx, hs.run⟩
  · obtain ⟨_, -, h⟩ := Outcome.bind_eq_ok.1 h
    obtain rfl := Outcome.pure_eq_ok.1 h
    exact ⟨hs.sweep, hs.run⟩
  · obtain ⟨run, hrun, h⟩ := Outcome.bind_eq_ok.1 h
    obtain rfl := Outcome.pure_eq_ok.1 h
    exact ⟨hs.sweep, fun r hr => named_of_ofValue hrun hr⟩
  · exact Outcome.pure_eq_ok.1 h ▸ hs

theorem regular_of_ofSections {sections : Mapping} {s : Settings}
    (h : ofSections sections = .ok s) : s.Regular := by
  have hblank : Settings.Regular {} := by
    constructor
    · intro x hx
      cases hx
    · intro r hr
      cases hr
  rw [ofSections_eq] at h
  refine Outcome.foldlM_preserves (fun e _ s t hs ht => ?_) hblank h
  unfold readEntry at ht
  split at ht
  · exact hs.read ht
  · exact Outcome.pure_eq_ok.1 ht ▸ hs

theorem readEntry_environment (s : Settings) (x : Environment) :
    s.readEntry ("environment", Environment.codec.encode x) =
      .ok { s with environment := some x } := by
  have hread := readSection_encode .environment (Record.encode_ne_null _ x) x.restores
  exact Outcome.bind_eq_ok.2 ⟨_, Outcome.lift_document_eq_ok.2 hread, rfl⟩

theorem readEntry_sweep (s : Settings) {x : Sweep} (h : x.Regular ∧ x.check = .ok ()) :
    s.readEntry ("hptuning", Sweep.codec.encode x) = .ok { s with sweep := some x } := by
  have hread := readSection_encode .hptuning (Record.encode_ne_null _ x) (Sweep.restores h.1)
  have hsweep : readSweep (Sweep.codec.encode x) = .ok (some x) :=
    Outcome.bind_eq_ok.2 ⟨_, hread, Outcome.bind_eq_ok.2 ⟨(), Outcome.mapError_ok.2 h.2, rfl⟩⟩
  exact Outcome.bind_eq_ok.2 ⟨_, Outcome.lift_document_eq_ok.2 hsweep, rfl⟩

theorem readEntry_build (s : Settings) (x : Build) :
    s.readEntry ("build", Build.codec.encode x) = .ok { s with build := some x } := by
  have hread := readSection_encode .build (Record.encode_ne_null _ x) x.restores
  exact Outcome.bind_eq_ok.2 ⟨_, Outcome.lift_document_eq_ok.2 hread, rfl⟩

/-- An entry that may be left out takes `s` to `t` when it does so where it is there
and the two are the same where it is not. -/
theorem foldlM_toList {α : Type} {o : Option α} {entry : α → String × Value} {s t : Settings}
    (hnone : o = none → t = s) (hsome : ∀ a ∈ o, s.readEntry (entry a) = .ok t) :
    (o.map entry).toList.foldlM readEntry s = .ok t := by
  cases o with
  | none => exact congrArg Except.ok (hnone rfl).symm
  | some a => exact Outcome.bind_eq_ok.2 ⟨t, hsome a rfl, rfl⟩

/-- What is written of a run that may be missing reads as the same. -/
theorem exists_run {o : Option Run} (h : ∀ r ∈ o, r.Named) : ∃ run : Option Run,
    (∀ r ∈ o, Run.ofValue r.toValue = .ok run) ∧ Option.Rel Run.Same run o ∧
      run.map Run.toValue = o.map Run.toValue := by
  cases o with
  | none => exact ⟨none, fun r hr => absurd hr (Option.not_mem_none r), .none, rfl⟩
  | some r =>
    obtain ⟨x, hx, hsame, hvalue⟩ := Run.exists_ofValue_toValue (h r rfl)
    refine ⟨some x, fun y hy => ?_, .some hsame, congrArg some hvalue⟩
    exact Option.some.inj hy ▸ hx

/-- Settings that were read are written so that they read as the same settings, and
those are written the same. -/
theorem exists_ofSections_toValue {sections : Mapping} {s : Settings}
    (h : ofSections sections = .ok s) :
    ∃ entries t, s.toValue = .map entries ∧ ofSections entries = .ok t ∧ t.Same s ∧
      t.toValue = s.toValue := by
  have hs := regular_of_ofSections h
  obtain ⟨run, hread, hsame, hvalue⟩ := exists_run hs.run
  have htoValue : ({ s with run } : Settings).toValue = s.toValue := by
    have hmap : ∀ o : Option Run,
        o.map (fun r => ("run", r.toValue)) = (o.map Run.toValue).map ("run", ·) :=
      fun o => (Option.map_map _ _ o).symm
    simp only [toValue, hmap, hvalue]
  refine ⟨_, { s with run }, rfl, ?_, ⟨rfl, rfl, rfl, rfl, hsame⟩, htoValue⟩
  simp only [ofSections_eq, List.foldlM_append]
  -- The entries fill in one field each, in the order in which they are written.
  refine Outcome.bind_eq_ok.2 ⟨{ s with run := none }, Outcome.bind_eq_ok.2
    ⟨{ s with build := none, run := none }, Outcome.bind_eq_ok.2
    ⟨{ environment := s.environment, declarations := s.declarations }, Outcome.bind_eq_ok.2
    ⟨{ environment := s.environment }, ?_, ?_⟩, ?_⟩, ?_⟩, ?_⟩
  · refine foldlM_toList (fun hnone => by rw [hnone]) fun x hx => ?_
    rw [readEntry_environment, ← Option.mem_def.1 hx]
  · refine foldlM_toList (fun hnone => by rw [hnone]) fun x hx => ?_
    rw [Option.mem_def.1 hx]
    rfl
  · refine foldlM_toList (fun hnone => by rw [hnone]) fun x hx => ?_
    rw [readEntry_sweep _ (hs.sweep x hx), ← Option.mem_def.1 hx]
  · refine foldlM_toList (fun hnone => by rw [hnone]) fun x hx => ?_
    rw [readEntry_build, ← Option.mem_def.1 hx]
  · refine foldlM_toList (fun hnone => ?_) fun r hr => ?_
    · rw [hnone] at hsame
      cases hsame
      rfl
    · exact Outcome.bind_eq_ok.2 ⟨run, hread r hr, rfl⟩

/-- A sweep with its fields in a row. -/
def sweepRow : Value :=
  .seq [.int 2, .null, .map [("rate", .map [("values", .seq [.int 1])])]]

theorem readSweep_sweepRow : readSweep sweepRow =
    .ok (some { concurrency := 2, matrix := [("rate", .values [.int 1])] }) := by
  have hmatrix : Axis.codec.sortedMap.decode (.map [("rate", .map [("values", .seq [.int 1])])]) =
      .ok [("rate", .values [.int 1])] :=
    Outcome.map_eq_ok.2 ⟨_, rfl, List.mergeSort_singleton _⟩
  have hdecode : Sweep.codec.decode sweepRow =
      .ok { concurrency := 2, matrix := [("rate", .values [.int 1])] } :=
    Outcome.bind_eq_ok.2 ⟨_, rfl, Outcome.bind_eq_ok.2 ⟨_, rfl, Outcome.bind_eq_ok.2
      ⟨_, Outcome.map_eq_ok.2 ⟨_, hmatrix, rfl⟩, rfl⟩⟩⟩
  have hread : readSection .hptuning Sweep.codec.option sweepRow =
      .ok (some { concurrency := 2, matrix := [("rate", .values [.int 1])] }) :=
    Outcome.mapError_ok.2 (Outcome.map_eq_ok.2 ⟨_, hdecode, rfl⟩)
  exact Outcome.bind_eq_ok.2 ⟨_, hread, rfl⟩

/-- A run with parameters that say nothing. The clip is a zero of the other sign than
the default. -/
def runInFull : Value :=
  .map [("cmd", .str "train"), ("optimizer", .map [("Adam", .null)]),
    ("loss", .map [("HuberLoss", .map [("clip", .float ⟨-0.0, by decide⟩)])])]

/-- Sections in other forms than they are written in. -/
def otherForms : Mapping :=
  [("run", runInFull), ("hptuning", sweepRow),
    ("environment", .map [("resources", .map [("cpu", .seq [.int 1])])])]

theorem exists_toValue_otherForms : ∃ s, ofSections otherForms = .ok s ∧
    s.run.map Run.toValue = some (.map
      [("cmd", .str "train"), ("loss", .str "HuberLoss"), ("optimizer", .str "Adam")]) ∧
    ∃ entries t, s.toValue = .map entries ∧ ofSections entries = .ok t ∧ t.Same s ∧
      t.toValue = s.toValue := by
  obtain ⟨run, hrun, hvalue⟩ : ∃ run : Run, Run.ofValue runInFull = .ok (some run) ∧
      run.toValue = .map
        [("cmd", .str "train"), ("loss", .str "HuberLoss"), ("optimizer", .str "Adam")] :=
    ⟨_, rfl, rfl⟩
  obtain ⟨s, hs, hsrun⟩ : ∃ s, ofSections otherForms = .ok s ∧ s.run = some run :=
    ⟨_, Outcome.bind_eq_ok.2 ⟨_, Outcome.bind_eq_ok.2 ⟨_, hrun, rfl⟩, Outcome.bind_eq_ok.2
      ⟨_, Outcome.bind_eq_ok.2 ⟨_, Outcome.lift_document_eq_ok.2 readSweep_sweepRow, rfl⟩, rfl⟩⟩,
      rfl⟩
  exact ⟨s, hs, hsrun ▸ congrArg some hvalue, exists_ofSections_toValue hs⟩

end Settings

end WorkloadSpec
