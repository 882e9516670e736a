import WorkloadSpec.Proofs.History
import WorkloadSpec.Proofs.OperatorFree
import WorkloadSpec.Proofs.SettingsRoundTrip
import WorkloadSpec.Proofs.Unmarked

/-!
A build specification made from the build of a resolved one. The build is written out in
its light form and goes through all the stages once more, its texts included. They have
been expanded before, so no operator is among them; a text that a reference brought in may
hold double braces all the same, and is then taken for a template of the new document.
Where no text does, the build that comes out is the build that went in.
-/
namespace WorkloadSpec

variable {document : Mapping} {scope : Scope} {v w : Value}

namespace Field

variable {σ α : Type} {name : String} {c : Codec α} {s : σ}

/-- What a field writes holds no operators. -/
def WritesPlain (f : Field σ) (s : σ) : Prop := ∀ v ∈ f.write s, holdsOperators v = false

theorem required_writesPlain {get : σ → α} {set : σ → α → σ}
    (h : holdsOperators (c.encode (get s)) = false) : (required name c get set).WritesPlain s := by
  intro v hv
  exact Option.some.inj hv ▸ h

theorem optional_writesPlain {get : σ → Option α} {set : σ → Option α → σ}
    (h : ∀ a, holdsOperators (c.encode a) = false) : (optional name c get set).WritesPlain s := by
  intro v hv
  obtain ⟨a, -, rfl⟩ := Option.map_eq_some_iff.1 hv
  exact h a

theorem many_writesPlain {get : σ → List α} {set : σ → List α → σ}
    (h : ∀ a ∈ get s, holdsOperators (c.encode a) = false) :
    (many name c get set).WritesPlain s := by
  intro v hv
  simp only [many] at hv
  split at hv
  · cases hv
  · obtain rfl := Option.some.inj hv
    refine holdsOperators_seq_eq_false.2 fun w hw => ?_
    obtain ⟨a, ha, rfl⟩ := List.mem_map.1 hw
    exact h a ha

end Field

/-- What is written of a record holds no operators when its fields do not. -/
theorem Record.plain_encode {σ : Type} {r : Record σ} {s : σ} (hfor : "for" ∉ r.names)
    (hif : "if" ∉ r.names) (h : ∀ f ∈ r.fields, f.WritesPlain s) :
    holdsOperators (r.encode s) = false := by
  have hentry : ∀ e ∈ written s r.fields, e.1 ∈ r.names ∧ holdsOperators e.2 = false := by
    intro e he
    obtain ⟨f, hf, hwritten⟩ := List.mem_filterMap.1 he
    obtain ⟨v, hv, rfl⟩ := Option.map_eq_some_iff.1 hwritten
    exact ⟨List.mem_map_of_mem hf, h f hf v hv⟩
  have hkeys : ∀ key ∈ Mapping.keys (written s r.fields), key ∈ r.names := by
    intro key hkey
    obtain ⟨e, he, rfl⟩ := List.mem_map.1 hkey
    exact (hentry e he).1
  exact holdsOperators_map_eq_false.2
    ⟨fun hmem => hfor (hkeys _ hmem), fun hmem => hif (hkeys _ hmem), fun e he => (hentry e he).2⟩

theorem Variable.plain_of_decode {x : Variable} (hv : holdsOperators v = false)
    (h : Variable.decode v = .ok x) : holdsOperators x.value = false := by
  unfold Variable.decode at h
  split at h
  · cases h
  · next name rest =>
    obtain ⟨text, -, h⟩ := Outcome.bind_eq_ok.1 h
    split at h
    · cases h
    · next value _ =>
      obtain rfl := Outcome.pure_eq_ok.1 h
      exact holdsOperators_seq_eq_false.1 hv value (List.mem_cons_of_mem name List.mem_cons_self)
    · cases h
  · cases h

namespace Build

variable {b : Build}

/-- Only the values of variables may be other than texts and truth values. -/
def Plain (b : Build) : Prop := ∀ x ∈ b.envVars, holdsOperators x.value = false

/-- The light form is what the codec writes. -/
theorem light_eq_encode (b : Build) : b.light = codec.encode b := by
  have hencode : codec.encode b = .map (Record.written b record.fields) := rfl
  have hnil : Record.written b [] = [] := rfl
  rw [hencode]
  simp only [light, record, Record.written_cons, hnil, Field.required, Field.many, Field.optional,
    Option.map_map, Function.comp_def, List.append_assoc, List.append_nil]
  -- Only a list that is empty has to be told from one that is not.
  obtain ⟨image, steps, vars, git, ref, commit, branch, nocache⟩ := b
  cases steps <;> cases vars <;> rfl

theorem Plain.light (h : b.Plain) : holdsOperators b.light = false := by
  rw [light_eq_encode]
  refine Record.plain_encode (by decide) (by decide) ?_
  simp only [record, List.forall_mem_cons]
  have hvariable : ∀ x ∈ b.envVars, holdsOperators (Variable.codec.encode x) = false := by
    intro x hx
    refine holdsOperators_seq_eq_false.2 (List.forall_mem_cons.2 ⟨rfl, ?_⟩)
    exact List.forall_mem_singleton.2 (h x hx)
  exact ⟨Field.required_writesPlain rfl, Field.many_writesPlain fun _ _ => rfl,
    Field.many_writesPlain hvariable, Field.optional_writesPlain fun _ => rfl,
    Field.optional_writesPlain fun _ => rfl, Field.optional_writesPlain fun _ => rfl,
    Field.optional_writesPlain fun _ => rfl, Field.optional_writesPlain fun _ => rfl,
    fun _ hf => absurd hf List.not_mem_nil⟩

/-- A build that is read from data without operators is plain. -/
theorem plain_of_decode (hv : holdsOperators v = false) (h : codec.decode v = .ok b) :
    b.Plain := by
  have hblank : Build.Plain { image := "" } := fun _ hx => absurd hx List.not_mem_nil
  refine Record.decode_preserves_of_parts (P := Plain) (Q := fun v => holdsOperators v = false)
    hblank ?_ ?_ ?_ h
  · intro f hf v t u hv ht hread
    simp only [record, List.mem_cons, List.not_mem_nil, or_false] at hf
    rcases hf with rfl | rfl | rfl | rfl | rfl | rfl | rfl | rfl
    case inr.inr.inl =>
      obtain ⟨vars, hvars, rfl⟩ := Outcome.map_eq_ok.1 hread
      cases v with
      | seq items =>
        intro x hx
        obtain ⟨w, hw, hdecode⟩ := Outcome.exists_of_mem_forall₂ (Outcome.mapM_eq_ok.1 hvars) hx
        exact Variable.plain_of_decode (holdsOperators_seq_eq_false.1 hv w hw) hdecode
      | _ => cases hvars
    all_goals
      obtain ⟨a, -, rfl⟩ := Outcome.map_eq_ok.1 hread
      exact ht
  · rintro entries rfl e he
    exact (holdsOperators_map_eq_false.1 hv).2.2 e he
  · rintro items rfl w hw
    exact holdsOperators_seq_eq_false.1 hv w hw

end Build

/-- The build of settings was read from a section of theirs. -/
theorem Settings.exists_of_build {sections : Mapping} {s : Settings} {b : Build}
    (h : ofSections sections = .ok s) (hb : s.build = some b) :
    ∃ e ∈ sections, e.1 = Section.build.key ∧ Build.codec.decode e.2 = .ok b := by
  rw [ofSections_eq] at h
  refine Outcome.foldlM_preserves (P := fun t => ∀ c, t.build = some c →
    ∃ e ∈ sections, e.1 = Section.build.key ∧ Build.codec.decode e.2 = .ok c)
    (fun e he s t hs ht => ?_) (fun c hc => by cases hc) h b hb
  unfold readEntry at ht
  split at ht
  · next place hplace =>
    cases place with
    | build =>
      obtain ⟨o, ho, ht⟩ := Outcome.bind_eq_ok.1 ht
      obtain rfl := Outcome.pure_eq_ok.1 ht
      intro c hc
      have hdecode := exists_of_readSection (Outcome.lift_document_eq_ok.1 ho) hc
      exact ⟨e, he, (Section.key_of_ofKey? hplace).symm, hdecode⟩
    | environment | declarations | hptuning | run =>
      obtain ⟨o, -, ht⟩ := Outcome.bind_eq_ok.1 ht
      obtain rfl := Outcome.pure_eq_ok.1 ht
      exact hs
    | _ => exact Outcome.pure_eq_ok.1 ht ▸ hs
  · exact Outcome.pure_eq_ok.1 ht ▸ hs

namespace Specification

variable {s : Specification} {b c : Build}

/-- The build of a specification is read from what its build section expands to. -/
theorem Settled.exists_of_build (h : s.Settled) (hb : s.settings.build = some b) :
    ∃ v w, (Section.build.key, v) ∈ s.data ∧ expandSection s.data v = .ok w ∧
      Build.codec.decode w = .ok b := by
  obtain ⟨e, he, hkey, hdecode⟩ := Settings.exists_of_build h.staged.typed hb
  obtain ⟨⟨key, v⟩, hv, hentry⟩ :=
    Outcome.exists_of_mem_forall₂ (Outcome.mapM_eq_ok.1 h.staged.expanded) he
  obtain rfl : key = Section.build.key := (expandEntry_keeps hentry).1.symm.trans hkey
  have hoperator : Section.build ∈ s.kind.contract.operator := List.mem_cons_self
  obtain ⟨w, hw, rfl⟩ := (expandEntry_operator_eq_ok hoperator).1 hentry
  exact ⟨v, w, hv, hw, hdecode⟩

theorem Settled.plain_build (h : s.Settled) (hb : s.settings.build = some b) : b.Plain := by
  obtain ⟨v, w, -, hw, hdecode⟩ := h.exists_of_build hb
  exact Build.plain_of_decode (plain_of_expandSection hw) hdecode

/-- The document that a build is extracted into. -/
def extracted (b : Build) : Mapping :=
  [(Section.version.key, .int Header.greatestVersion), (Section.kind.key, .str Kind.build.name),
    (Section.build.key, b.light)]

theorem clean_extracted (b : Build) : (extracted b).Clean := by
  have hkeys : Mapping.keys (extracted b) = ["version", "kind", "build"] := rfl
  refine ⟨by rw [hkeys]; decide, fun e he hnull => ?_⟩
  simp only [extracted, List.mem_cons, List.not_mem_nil, or_false] at he
  rcases he with rfl | rfl | rfl <;> cases hnull

/-- Extraction succeeds with whatever the light form of the build expands to and reads as. -/
theorem exists_ofBuild_config (hw : expandSection (extracted b) b.light = .ok w)
    (hc : Build.codec.decode w = .ok c) :
    ∃ t, ofBuild (.config b) = .ok t ∧ t.kind = .build ∧ t.data = extracted b ∧
      t.settings.build = some c := by
  have hnull : w ≠ .null := by
    rintro rfl
    cases hc
  let t : Specification := {
    sources := [.value (.map (extracted b))]
    data := extracted b
    header := { version := Header.greatestVersion, kind := .build }
    sections := [(Section.version.key, .int Header.greatestVersion),
      (Section.kind.key, .str Kind.build.name), (Section.build.key, w)]
    settings := { build := some c } }
  have hoperator : Section.build ∈ Kind.build.contract.operator := List.mem_cons_self
  have hentry := (expandEntry_operator_eq_ok hoperator).2 ⟨w, hw, rfl⟩
  have hsections : expandSections Kind.build.contract (extracted b) = .ok t.sections :=
    Outcome.mapM_eq_ok.2 (.cons rfl (.cons rfl (.cons hentry .nil)))
  have hread : readSection .build Build.codec.option w = .ok (some c) := by
    rw [readSection, Codec.option_decode hnull, hc]
    rfl
  have hsettings : Settings.ofSections t.sections = .ok t.settings :=
    Outcome.bind_eq_ok.2 ⟨{}, rfl, Outcome.bind_eq_ok.2 ⟨{}, rfl, Outcome.bind_eq_ok.2
      ⟨t.settings, Outcome.bind_eq_ok.2 ⟨_, Outcome.lift_document_eq_ok.2 hread, rfl⟩, rfl⟩⟩⟩
  have hstaged : t.Staged .build := ⟨rfl, rfl, rfl, hsections, hsettings⟩
  have hvalue : ofValue .build (.map (extracted b)) = .ok t :=
    resolve_eq_ok.2 ⟨Source.read_value _ (clean_extracted b), rfl, hstaged⟩
  exact ⟨t, hvalue, rfl, rfl, rfl⟩

/-- Nothing else can come out of it. -/
theorem exists_of_ofBuild_config {t : Specification} (ht : ofBuild (.config b) = .ok t)
    (hc : t.settings.build = some c) :
    ∃ w, expandSection (extracted b) b.light = .ok w ∧ Build.codec.decode w = .ok c := by
  have hvalue : ofValue .build (.map (extracted b)) = .ok t := ht
  have hdata : t.data = extracted b := by
    have hread := (resolve_eq_ok.1 hvalue).1
    rw [Source.read_value _ (clean_extracted b)] at hread
    exact (Except.ok.inj hread).symm
  obtain ⟨v, w, hv, hw, hdecode⟩ := (settled_of_ofBuild ht).exists_of_build hc
  rw [hdata] at hv hw
  have hlight : b.light = v := by
    have hlookup := Mapping.lookup_of_mem (clean_extracted b).distinct hv
    exact Option.some.inj hlookup
  exact ⟨w, hlight ▸ hw, hdecode⟩

end Specification

namespace History

open Specification

/-- The build of a specification has no operators in its light form. Extracted it is the
same build again just when its texts, expanded once more, still read as that build, and
that is so where none of them has double braces. -/
theorem ofBuild_config_preserves {calls : List Call} {s : Specification} {b : Build}
    (hs : s ∈ run calls) (hb : s.settings.build = some b) :
    holdsOperators b.light = false ∧
      ((∃ t, ofBuild (.config b) = .ok t ∧ t.settings.build = some b) ↔
        ∃ w, expandSection (extracted b) b.light = .ok w ∧ Build.codec.decode w = .ok b) ∧
      (¬Marked b.light → ∃ t, ofBuild (.config b) = .ok t ∧ t.kind = .build ∧
        t.data = extracted b ∧ t.settings.build = some b) := by
  have hplain := ((settled_of_mem_run hs).plain_build hb).light
  refine ⟨hplain, ⟨?_, ?_⟩, fun hmarked => ?_⟩
  · rintro ⟨t, ht, hsame⟩
    exact exists_of_ofBuild_config ht hsame
  · rintro ⟨w, hw, hdecode⟩
    obtain ⟨t, ht, -, -, hsame⟩ := exists_ofBuild_config hw hdecode
    exact ⟨t, ht, hsame⟩
  · have hrestores : Build.codec.decode b.light = .ok b := by
      rw [Build.light_eq_encode]
      exact b.restores
    exact exists_ofBuild_config (expandSection_of_unmarked hplain hmarked) hrestores

/-- A job whose build has an image that is declared elsewhere. -/
def imageJob (image : String) : Mapping :=
  [("version", .int 1), ("kind", .str "job"), ("declarations", .map [("image", .str image)]),
    ("build", .map [("image", .str "{{ image }}")]), ("run", .map [("cmd", .str "train")])]

def imaged (image : String) : Specification where
  sources := [.value (.map (imageJob image))]
  data := imageJob image
  header := { version := 1, kind := .job }
  sections := [("version", .int 1), ("kind", .str "job"),
    ("declarations", .map [("image", .str image)]), ("build", .map [("image", .str image)]),
    ("run", .map [("cmd", .str "train")])]
  settings := {
    declarations := some [("image", .str image)]
    build := some { image }
    run := some { cmd := some (.line "train") } }

theorem expandSection_image {document : Mapping} {text : String} {found : Value}
    (h : (Template.ofString text).render document [] = .ok found) :
    expandSection document (.map [("image", .str text)]) = .ok (.map [("image", found)]) := by
  rw [expandSection, expandSlot_plain rfl, expandPlain, expandEntries, expandSlot_plain rfl,
    expandPlain, h, expandEntries]
  rfl

theorem ofValue_imageJob (image : String) :
    Specification.ofValue .job (.map (imageJob image)) = .ok (imaged image) := by
  have hbuild : expandSection (imageJob image) (.map [("image", .str "{{ image }}")]) =
      .ok (.map [("image", .str image)]) := expandSection_image rfl
  have hrun : expandSection (imageJob image) (.map [("cmd", .str "train")]) =
      .ok (.map [("cmd", .str "train")]) := expandSection_of_unmarked rfl (by simp; decide)
  have hoperator : Section.build ∈ Kind.job.contract.operator ∧
      Section.run ∈ Kind.job.contract.operator := by decide
  have hbuildEntry := (expandEntry_operator_eq_ok hoperator.1).2 ⟨_, hbuild, rfl⟩
  have hrunEntry := (expandEntry_operator_eq_ok hoperator.2).2 ⟨_, hrun, rfl⟩
  have hsections : expandSections Kind.job.contract (imageJob image) =
      .ok (imaged image).sections :=
    Outcome.mapM_eq_ok.2 (.cons rfl (.cons rfl (.cons rfl (.cons hbuildEntry (.cons hrunEntry
      .nil)))))
  exact resolve_eq_ok.2 ⟨rfl, rfl, rfl, rfl, rfl, hsections, rfl⟩

theorem imaged_mem_run (image : String) :
    imaged image ∈ run [.ofValue .job (.map (imageJob image))] :=
  mem_run_ofValue (ofValue_imageJob image)

/-- Declared as a plain name the image stays what it is. -/
theorem ofBuild_config_preserves_image :
    imaged "python:3" ∈ run [.ofValue .job (.map (imageJob "python:3"))] ∧
    ∃ t, ofBuild (.config { image := "python:3" }) = .ok t ∧ t.kind = .build ∧
      t.data = extracted { image := "python:3" } ∧
      t.settings.build = some { image := "python:3" } := by
  have hmem := imaged_mem_run "python:3"
  have hmarked : ¬Marked (Build.light { image := "python:3" }) := by
    simp [Build.light]
    decide
  exact ⟨hmem, (ofBuild_config_preserves hmem rfl).2.2 hmarked⟩

/-- Not every build comes out as it went in: an image with a marker in it is filled in
from the new document. -/
theorem exists_ofBuild_config_changed :
    ¬∀ calls, ∀ s ∈ run calls, ∀ b, s.settings.build = some b →
      ∃ t, ofBuild (.config b) = .ok t ∧ t.settings.build = some b := by
  intro h
  obtain ⟨t, ht, hsame⟩ :=
    h _ _ (imaged_mem_run "{{ kind }}") { image := "{{ kind }}" } rfl
  have hfilled : expandSection (extracted { image := "{{ kind }}" })
      (Build.light { image := "{{ kind }}" }) = .ok (.map [("image", .str "build")]) :=
    expandSection_image rfl
  obtain ⟨u, hu, -, -, hother⟩ := exists_ofBuild_config (c := { image := "build" }) hfilled rfl
  obtain rfl := Except.ok.inj (ht.symm.trans hu)
  have himage := congrArg Build.image (Option.some.inj (hsame.symm.trans hother))
  exact absurd himage (by decide)

end History

end WorkloadSpec
