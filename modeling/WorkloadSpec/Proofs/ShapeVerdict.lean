import WorkloadSpec.Proofs.Failures
import WorkloadSpec.Proofs.Stages

/-!
The verdict on version, kind and keys. Eight things can be wrong with a merged document
before its sections are looked into, and any number of them at once. They are written down
here as conditions on the document, each with the error that names it, and the error that
resolving ends with is the one of the first condition that holds. A stage is reached just
when no condition before it holds, which is carried from stage to stage.
-/
namespace WorkloadSpec

/-- A version that can be resolved. -/
def Header.Supported (v : Value) : Prop :=
  ∃ n, v = .int n ∧ leastVersion ≤ n ∧ n ≤ greatestVersion

/-- What is wrong with the version, the kind or the keys of a document that is to be of a kind. -/
inductive Defect (kind : Kind) (data : Mapping) : DocumentError → Prop
  | missingVersion (h : Section.version.key ∉ Mapping.keys data) :
    Defect kind data .missingVersion
  | unsupportedVersion {v : Value} (hv : data.lookup Section.version.key = some v)
    (h : ¬Header.Supported v) :
    Defect kind data (.unsupportedVersion v Header.leastVersion Header.greatestVersion)
  | missingKind (h : Section.kind.key ∉ Mapping.keys data) : Defect kind data .missingKind
  | unsupportedKind {v : Value} (hv : data.lookup Section.kind.key = some v)
    (h : ∀ k : Kind, v ≠ .str k.name) : Defect kind data (.unsupportedKind (Template.dataText v))
  | kindMismatch {found : Kind} (hv : data.lookup Section.kind.key = some (.str found.name))
    (h : found ≠ kind) : Defect kind data (.kindMismatch kind found)
  | unexpectedSection {key : String} {version : Int}
    (hv : data.lookup Section.version.key = some (.int version))
    (h : FirstOf (fun key => ∀ place : Section, place.key ≠ key) (Mapping.keys data) key) :
    Defect kind data (.unexpectedSection key version)
  | unsupportedSection {place : Section}
    (h : FirstOf (fun x : Section => x.key ∈ Mapping.keys data ∧ x ∉ kind.contract.possible)
      Section.all place) : Defect kind data (.unsupportedSection place kind)
  | missingSection {place : Section}
    (h : FirstOf (fun x : Section => x ∈ kind.contract.required ∧ x.key ∉ Mapping.keys data)
      Section.all place) : Defect kind data (.missingSection place kind)

/-- Where an error stands in the order of the checks. What the later stages find comes last. -/
def DocumentError.stage : DocumentError → Nat
  | missingVersion => 0
  | unsupportedVersion _ _ _ => 1
  | missingKind => 2
  | unsupportedKind _ => 3
  | kindMismatch _ _ => 4
  | unexpectedSection _ _ => 5
  | unsupportedSection _ _ => 6
  | missingSection _ _ => 7
  | _ => 8

/-- The error is about version, kind or keys. -/
def DocumentError.ConcernsShape (e : DocumentError) : Prop := e.stage < 8

/-- No check before a stage has anything to find. -/
def ClearBelow (kind : Kind) (data : Mapping) (n : Nat) : Prop :=
  ∀ d, Defect kind data d → n ≤ d.stage

/-- The defect that is first in the order of the checks. -/
structure FirstDefect (kind : Kind) (data : Mapping) (e : DocumentError) : Prop where
  defect : Defect kind data e
  least : ClearBelow kind data e.stage

variable {kind found : Kind} {data : Mapping} {version : Int} {e : DocumentError} {n : Nat}

theorem Defect.concernsShape (h : Defect kind data e) : e.ConcernsShape := by
  cases h <;> exact Nat.le_of_ble_eq_true rfl

theorem ResolutionError.ConcernsContent.not_concernsShape
    (h : (ResolutionError.document e).ConcernsContent) : ¬e.ConcernsShape := by
  cases h
  exact Nat.lt_irrefl 8

/-- A stage finds one thing at most. -/
theorem Defect.unique {d : DocumentError} (he : Defect kind data e) (hd : Defect kind data d)
    (hstage : e.stage = d.stage) : e = d := by
  cases he <;> cases hd <;> cases hstage
  case missingVersion.missingVersion => rfl
  case unsupportedVersion.unsupportedVersion hv _ _ hw _ =>
    rw [Option.some.inj (hv.symm.trans hw)]
  case missingKind.missingKind => rfl
  case unsupportedKind.unsupportedKind hv _ _ hw _ =>
    rw [Option.some.inj (hv.symm.trans hw)]
  case kindMismatch.kindMismatch hv _ _ hw _ =>
    have hname := Value.str.inj (Option.some.inj (hv.symm.trans hw))
    rw [Kind.name_injective hname]
  case unexpectedSection.unexpectedSection hv hkey _ _ hw hother =>
    rw [hkey.unique hother, Value.int.inj (Option.some.inj (hv.symm.trans hw))]
  case unsupportedSection.unsupportedSection hplace _ hother => rw [hplace.unique hother]
  case missingSection.missingSection hplace _ hother => rw [hplace.unique hother]

theorem FirstDefect.unique {d : DocumentError} (he : FirstDefect kind data e)
    (hd : FirstDefect kind data d) : e = d :=
  he.defect.unique hd.defect
    (Nat.le_antisymm (he.least d hd.defect) (hd.least e he.defect))

theorem ClearBelow.zero : ClearBelow kind data 0 := fun _ _ => Nat.zero_le _

theorem ClearBelow.succ (h : ClearBelow kind data n)
    (hn : ∀ d, Defect kind data d → d.stage ≠ n) : ClearBelow kind data (n + 1) :=
  fun d hd => Nat.lt_of_le_of_ne (h d hd) (Ne.symm (hn d hd))

/-- The kind that is found is the one whose name the document has. -/
theorem Kind.detect_eq_ok :
    detect data = .ok found ↔ data.lookup Section.kind.key = some (.str found.name) := by
  constructor
  · intro h
    unfold detect at h
    split at h
    · cases h
    · next name hname =>
      split at h
      · next k hk =>
        obtain rfl := Except.ok.inj h
        rw [hname, eq_of_beq (List.find?_some (p := fun k : Kind => k.name == name) hk)]
      · cases h
    · cases h
  · intro h
    simp only [detect, h, ofName?_name]

-- A check that is passed leaves no defect of its own, so the next stage is reached.
namespace ClearBelow

theorem past_missingVersion {v : Value} (hv : data.lookup Section.version.key = some v) :
    ClearBelow kind data 1 := by
  refine zero.succ ?_
  rintro d hd hstage
  cases hd <;> cases hstage
  case missingVersion hnot => exact hnot (Mapping.mem_keys_of_lookup hv)

theorem past_unsupportedVersion (h : Header.readVersion data = .ok version) :
    ClearBelow kind data 2 := by
  obtain ⟨hv, hsupported⟩ := Header.readVersion_eq_ok h
  refine (past_missingVersion hv).succ ?_
  rintro d hd hstage
  cases hd <;> cases hstage
  case unsupportedVersion w hw hnot =>
    obtain rfl := Option.some.inj (hv.symm.trans hw)
    exact hnot ⟨version, rfl, hsupported⟩

theorem past_missingKind {v : Value} (h : ClearBelow kind data 2)
    (hv : data.lookup Section.kind.key = some v) : ClearBelow kind data 3 := by
  refine h.succ ?_
  rintro d hd hstage
  cases hd <;> cases hstage
  case missingKind hnot => exact hnot (Mapping.mem_keys_of_lookup hv)

theorem past_unsupportedKind (h : ClearBelow kind data 2) (hk : Kind.detect data = .ok found) :
    ClearBelow kind data 4 := by
  have hv := Kind.detect_eq_ok.1 hk
  refine (h.past_missingKind hv).succ ?_
  rintro d hd hstage
  cases hd <;> cases hstage
  case unsupportedKind w hw hnot =>
    exact hnot found (Option.some.inj (hw.symm.trans hv))

theorem past_kindMismatch (h : ClearBelow kind data 2) (hk : Kind.detect data = .ok kind) :
    ClearBelow kind data 5 := by
  have hv := Kind.detect_eq_ok.1 hk
  refine (h.past_unsupportedKind hk).succ ?_
  rintro d hd hstage
  cases hd <;> cases hstage
  case kindMismatch found hw hnot =>
    have hname := Value.str.inj (Option.some.inj (hw.symm.trans hv))
    exact hnot (Kind.name_injective hname)

end ClearBelow

namespace Contract

theorem isNone_ofKey?_iff {key : String} :
    (Section.ofKey? key).isNone = true ↔ ∀ place : Section, place.key ≠ key := by
  rw [Option.isNone_iff_eq_none]
  constructor
  · rintro h place rfl
    rw [Section.ofKey?_key] at h
    cases h
  · intro h
    by_contra hsome
    obtain ⟨place, hplace⟩ := Option.ne_none_iff_exists'.1 hsome
    exact h place (Section.key_of_ofKey? hplace)

theorem unexpected?_eq_some {key : String} :
    unexpected? data = some key ↔
      FirstOf (fun key => ∀ place : Section, place.key ≠ key) (Mapping.keys data) key :=
  find?_eq_some_iff_firstOf fun _ => isNone_ofKey?_iff

theorem unsupported?_eq_some {c : Contract} {place : Section} :
    c.unsupported? data = some place ↔
      FirstOf (fun x : Section => x.key ∈ Mapping.keys data ∧ x ∉ c.possible)
        Section.all place :=
  find?_eq_some_iff_firstOf fun x => by
    rw [Bool.and_eq_true, Mapping.has_iff_mem_keys, Bool.not_eq_true', List.contains_eq_mem,
      decide_eq_false_iff_not]

/-- The required sections stand in the order of the catalog. -/
theorem required_eq_filter (kind : Kind) :
    kind.contract.required = Section.all.filter (· ∈ kind.contract.required) := by
  cases kind <;> decide

theorem missing?_eq_some {place : Section} :
    kind.contract.missing? data = some place ↔
      FirstOf (fun x : Section => x ∈ kind.contract.required ∧ x.key ∉ Mapping.keys data)
        Section.all place := by
  have hmissing : kind.contract.missing? data = Section.all.find? fun x =>
      decide (x ∈ kind.contract.required ∧ (!Mapping.has data x.key) = true) := by
    unfold missing?
    conv_lhs => rw [required_eq_filter, List.find?_filter]
    simp only [decide_eq_true_iff]
  rw [hmissing]
  refine find?_eq_some_iff_firstOf fun x => ?_
  rw [decide_eq_true_iff, Bool.not_eq_true', ← Bool.not_eq_true, Mapping.has_iff_mem_keys]

end Contract

namespace ClearBelow

theorem past_unexpectedSection (h : ClearBelow kind data 5)
    (hnone : Contract.unexpected? data = none) : ClearBelow kind data 6 := by
  refine h.succ ?_
  rintro d hd hstage
  cases hd <;> cases hstage
  case unexpectedSection hfirst =>
    rw [← Contract.unexpected?_eq_some, hnone] at hfirst
    cases hfirst

theorem past_unsupportedSection (h : ClearBelow kind data 6)
    (hnone : kind.contract.unsupported? data = none) : ClearBelow kind data 7 := by
  refine h.succ ?_
  rintro d hd hstage
  cases hd <;> cases hstage
  case unsupportedSection hfirst =>
    rw [← Contract.unsupported?_eq_some, hnone] at hfirst
    cases hfirst

theorem past_missingSection (h : ClearBelow kind data 7)
    (hnone : kind.contract.missing? data = none) : ClearBelow kind data 8 := by
  refine h.succ ?_
  rintro d hd hstage
  cases hd <;> cases hstage
  case missingSection hfirst =>
    rw [← Contract.missing?_eq_some, hnone] at hfirst
    cases hfirst

theorem of_identify (h : Header.identify data kind = .ok (version, found)) :
    ClearBelow kind data 5 := by
  obtain ⟨hv, hk, rfl⟩ := Header.identify_eq_ok.1 h
  exact (past_unsupportedVersion hv).past_kindMismatch hk

theorem of_check (h : Header.identify data kind = .ok (version, found))
    (hcheck : kind.contract.check data version = .ok ()) : ClearBelow kind data 8 := by
  obtain ⟨hunexpected, hunsupported, hmissing⟩ := Contract.check_eq_ok.1 hcheck
  have hknown := (of_identify h).past_unexpectedSection hunexpected
  exact (hknown.past_unsupportedSection hunsupported).past_missingSection hmissing

end ClearBelow

namespace FirstDefect

theorem of_readVersion (h : Header.readVersion data = .error e) : FirstDefect kind data e := by
  unfold Header.readVersion at h
  split at h
  · next hv =>
    cases h
    exact ⟨.missingVersion (Mapping.not_mem_keys_of_lookup hv), .zero⟩
  · next m hv =>
    split at h
    · cases h
    · next hbounds =>
      cases h
      refine ⟨.unsupportedVersion hv ?_, .past_missingVersion hv⟩
      rintro ⟨n, hn, hsupported⟩
      exact hbounds (Value.int.inj hn ▸ hsupported)
  · next v hnot hv =>
    cases h
    refine ⟨.unsupportedVersion hv ?_, .past_missingVersion hv⟩
    rintro ⟨n, rfl, -⟩
    exact hnot n rfl

theorem of_detect (hv : Header.readVersion data = .ok version)
    (h : Kind.detect data = .error e) : FirstDefect kind data e := by
  have hclear : ClearBelow kind data 2 := .past_unsupportedVersion hv
  unfold Kind.detect at h
  split at h
  · next hk =>
    cases h
    exact ⟨.missingKind (Mapping.not_mem_keys_of_lookup hk), hclear⟩
  · next name hk =>
    split at h
    · cases h
    · next hname =>
      cases h
      refine ⟨.unsupportedKind hk ?_, hclear.past_missingKind hk⟩
      rintro k hk
      obtain rfl := Value.str.inj hk
      rw [Kind.ofName?_name] at hname
      cases hname
  · next v hnot hk =>
    have htext : Json.compact v = Template.dataText v := by
      cases v with
      | str name => exact absurd rfl (hnot name)
      | _ => rfl
    cases h
    rw [htext]
    exact ⟨.unsupportedKind hk fun k => hnot k.name, hclear.past_missingKind hk⟩

theorem of_identify (h : Header.identify data kind = .error e) : FirstDefect kind data e := by
  rcases Outcome.bind_eq_error.1 h with hv | ⟨version, hv, h'⟩
  · exact of_readVersion hv
  rcases Outcome.bind_eq_error.1 h' with hk | ⟨found, hk, -⟩
  · exact of_detect hv hk
  rw [Header.identify_eq hv hk] at h
  split at h
  · cases h
  · next hfound =>
    cases h
    exact ⟨.kindMismatch (Kind.detect_eq_ok.1 hk) hfound,
      (ClearBelow.past_unsupportedVersion hv).past_unsupportedKind hk⟩

theorem of_check (h : Header.identify data kind = .ok (version, found))
    (hcheck : kind.contract.check data version = .error e) : FirstDefect kind data e := by
  have hclear := ClearBelow.of_identify h
  have hv := (Header.readVersion_eq_ok (Header.identify_eq_ok.1 h).1).1
  unfold Contract.check at hcheck
  split at hcheck
  · next hunexpected =>
    cases hcheck
    exact ⟨.unexpectedSection hv (Contract.unexpected?_eq_some.1 hunexpected), hclear⟩
  · next hunexpected hunsupported =>
    cases hcheck
    exact ⟨.unsupportedSection (Contract.unsupported?_eq_some.1 hunsupported),
      hclear.past_unexpectedSection hunexpected⟩
  · next hunexpected hunsupported hmissing =>
    cases hcheck
    exact ⟨.missingSection (Contract.missing?_eq_some.1 hmissing),
      (hclear.past_unexpectedSection hunexpected).past_unsupportedSection hunsupported⟩
  · cases hcheck

end FirstDefect

namespace Specification

/-- The checks of version, kind and keys. What passes them has a version. -/
def verdict (kind : Kind) (data : Mapping) : Except DocumentError Int := do
  let (version, kind) ← Header.identify data kind
  kind.contract.check data version
  pure version

theorem verdict_eq_ok :
    verdict kind data = .ok version ↔ Header.identify data kind = .ok (version, kind) ∧
      kind.contract.check data version = .ok () := by
  constructor
  · intro h
    obtain ⟨⟨v, k⟩, hid, hchecked⟩ := Outcome.bind_eq_ok.1 h
    obtain ⟨u, hcheck, hversion⟩ := Outcome.bind_eq_ok.1 hchecked
    obtain ⟨-, -, rfl⟩ := Header.identify_eq_ok.1 hid
    obtain rfl := Outcome.pure_eq_ok.1 hversion
    exact ⟨hid, hcheck⟩
  · rintro ⟨hid, hcheck⟩
    exact Outcome.bind_eq_ok.2 ⟨_, hid, Outcome.bind_eq_ok.2 ⟨_, hcheck, rfl⟩⟩

theorem firstDefect_of_verdict (h : verdict kind data = .error e) : FirstDefect kind data e := by
  rcases Outcome.bind_eq_error.1 h with hid | ⟨⟨version, found⟩, hid, hchecked⟩
  · exact FirstDefect.of_identify hid
  obtain ⟨-, -, rfl⟩ := Header.identify_eq_ok.1 hid
  rcases Outcome.bind_eq_error.1 hchecked with hcheck | ⟨u, -, hpassed⟩
  · exact FirstDefect.of_check hid hcheck
  · cases hpassed

theorem not_defect_of_verdict (h : verdict kind data = .ok version) (d : DocumentError) :
    ¬Defect kind data d := by
  obtain ⟨hid, hcheck⟩ := verdict_eq_ok.1 h
  intro hd
  exact Nat.not_lt.2 (ClearBelow.of_check hid hcheck d hd) hd.concernsShape

/-- The verdict is the first defect, if there is one. -/
theorem verdict_eq_error : verdict kind data = .error e ↔ FirstDefect kind data e := by
  refine ⟨firstDefect_of_verdict, fun he => ?_⟩
  cases h : verdict kind data with
  | error d => rw [(firstDefect_of_verdict h).unique he]
  | ok version => exact absurd he.defect (not_defect_of_verdict h e)

/-- The verdict looks at the keys, and at what stands under two of them. -/
theorem verdict_congr {other : Mapping}
    (hversion : other.lookup Section.version.key = data.lookup Section.version.key)
    (hkind : other.lookup Section.kind.key = data.lookup Section.kind.key)
    (hkeys : Mapping.keys other = Mapping.keys data) : verdict kind other = verdict kind data := by
  have hhas : ∀ key, Mapping.has other key = Mapping.has data key := fun key => by
    rw [Bool.eq_iff_iff, Mapping.has_iff_mem_keys, Mapping.has_iff_mem_keys, hkeys]
  have hidentify : Header.identify other kind = Header.identify data kind := by
    unfold Header.identify Header.readVersion Kind.detect
    rw [hversion, hkind]
  have hcheck : ∀ (c : Contract) version, c.check other version = c.check data version := by
    intro c version
    unfold Contract.check Contract.unexpected? Contract.unsupported? Contract.missing?
    simp only [hkeys, hhas]
  unfold verdict
  simp only [hidentify, hcheck]

/-- Resolving is the verdict and what comes after it. -/
theorem ofDocument_eq (kind : Kind) (sources : List Source) (data : Mapping) :
    ofDocument kind sources data =
      (liftM (verdict kind data) : Except ResolutionError Int) >>=
        finish kind sources data := by
  unfold ofDocument verdict
  cases hid : Header.identify data kind with
  | error e => rfl
  | ok found =>
    obtain ⟨version, found⟩ := found
    -- The kind that is found is the one asked for, so both sides check the same contract.
    obtain ⟨-, -, rfl⟩ := Header.identify_eq_ok.1 hid
    change (liftM (found.contract.check data version) >>= fun _ =>
        finish found sources data version) =
      liftM (found.contract.check data version >>= fun _ => pure version) >>=
        finish found sources data
    cases found.contract.check data version <;> rfl

variable {files : Files} {sources : List Source}

theorem resolve_eq (hread : Source.read files sources = .ok data) :
    resolve files kind sources =
      (liftM (verdict kind data) : Except ResolutionError Int) >>= finish kind sources data := by
  unfold resolve
  rw [hread]
  exact ofDocument_eq kind sources data

/-- Of the errors about version, kind and keys, resolving reports the one of the verdict. -/
theorem resolve_eq_error_iff (hread : Source.read files sources = .ok data)
    (hshape : e.ConcernsShape) :
    resolve files kind sources = .error (.document e) ↔ verdict kind data = .error e := by
  rw [resolve_eq hread]
  cases h : verdict kind data with
  | error d =>
    constructor
    · intro hd
      exact congrArg _ (ResolutionError.document.inj (Except.error.inj hd))
    · intro hd
      rw [Except.error.inj hd]
      rfl
  | ok version =>
    constructor
    · intro he
      exact absurd hshape (failsWith_finish kind sources data version _ he).not_concernsShape
    · intro he
      cases he

/-- What passes the verdict can still fail, but for what its sections hold. -/
theorem failsWith_resolve (hread : Source.read files sources = .ok data)
    (h : verdict kind data = .ok version) :
    Outcome.FailsWith ResolutionError.ConcernsContent (resolve files kind sources) := by
  rw [resolve_eq hread, h]
  exact failsWith_finish kind sources data version

/-- Resolving reports the first defect in version, kind or keys, whatever the sections hold.
Without one the keys are what the kind asks for and allows, and only the content of sections
can be at fault. Documents with the same version, kind and keys get the same verdict. -/
theorem resolve_reports_first_defect (kind : Kind)
    (hread : Source.read files sources = .ok data) :
    (∀ e : DocumentError, FirstDefect kind data e ↔
      e.ConcernsShape ∧ resolve files kind sources = .error (.document e)) ∧
    ((∃ d, Defect kind data d) → ∃ e, FirstDefect kind data e) ∧
    ((∀ d, ¬Defect kind data d) →
      (∀ place ∈ kind.contract.required, place.key ∈ Mapping.keys data) ∧
      (∀ key ∈ Mapping.keys data, ∃ place ∈ kind.contract.possible, place.key = key) ∧
      ∀ e, resolve files kind sources = .error e → e.ConcernsContent) ∧
    ∀ (files' : Files) (sources' : List Source) (other : Mapping),
      Source.read files' sources' = .ok other →
      other.lookup Section.version.key = data.lookup Section.version.key →
      other.lookup Section.kind.key = data.lookup Section.kind.key →
      Mapping.keys other = Mapping.keys data →
      ∀ e : DocumentError, e.ConcernsShape →
        (resolve files' kind sources' = .error (.document e) ↔
          resolve files kind sources = .error (.document e)) := by
  refine ⟨fun e => ?_, ?_, fun hnone => ?_, ?_⟩
  · rw [← verdict_eq_error]
    constructor
    · intro h
      have hshape := (firstDefect_of_verdict h).defect.concernsShape
      exact ⟨hshape, (resolve_eq_error_iff hread hshape).2 h⟩
    · rintro ⟨hshape, h⟩
      exact (resolve_eq_error_iff hread hshape).1 h
  · rintro ⟨d, hd⟩
    cases h : verdict kind data with
    | error e => exact ⟨e, firstDefect_of_verdict h⟩
    | ok version => exact absurd hd (not_defect_of_verdict h d)
  · cases h : verdict kind data with
    | error e => exact absurd (firstDefect_of_verdict h).defect (hnone e)
    | ok version =>
      have hcheck := (verdict_eq_ok.1 h).2
      exact ⟨fun place => Contract.required_of_check hcheck,
        fun key => Contract.possible_of_check hcheck, failsWith_resolve hread h⟩
  · intro files' sources' other hread' hversion hkind hkeys e hshape
    rw [resolve_eq_error_iff hread' hshape, resolve_eq_error_iff hread hshape,
      verdict_congr hversion hkind hkeys]

/-- A job with a key that is no section and a section that jobs do not have, but without the
sections that they need. -/
def muddledJob (content : Value) : Mapping :=
  [("framework", content), ("version", .int 1), ("model", content), ("kind", .str "job"),
    ("models", content)]

/-- Three defects at once: the unexpected key that comes first in the document is reported, and
so it is whatever the sections hold. -/
theorem resolve_reports_first_defect_muddled :
    let files : Files := fun _ => .error .notFound
    let data := muddledJob (.str "pytorch")
    let found := DocumentError.unexpectedSection "model" 1
    Source.read files [.value (.map data)] = .ok data ∧
      Defect .job data (.unsupportedSection .framework .job) ∧
      Defect .job data (.missingSection .build .job) ∧
      FirstDefect .job data found ∧
      resolve files .job [.value (.map data)] = .error (.document found) ∧
      resolve files .job [.value (.map (muddledJob (.int 3)))] = .error (.document found) := by
  intro files data found
  have hread : Source.read files [.value (.map data)] = .ok data := rfl
  have hfirst : FirstDefect .job data found := verdict_eq_error.1 rfl
  obtain ⟨hreports, -, -, hsame⟩ := resolve_reports_first_defect .job hread
  obtain ⟨hshape, hreported⟩ := (hreports found).1 hfirst
  refine ⟨hread, ?_, ?_, hfirst, hreported, ?_⟩
  · exact .unsupportedSection (Contract.unsupported?_eq_some.1 rfl)
  · exact .missingSection (Contract.missing?_eq_some.1 rfl)
  · exact (hsame files _ (muddledJob (.int 3)) rfl rfl rfl rfl found hshape).2 hreported

end Specification

end WorkloadSpec
