import WorkloadSpec.Proofs.Layers
import WorkloadSpec.Specification

/-!
The stages of resolving, taken apart. A specification exists just when version and
kind, contract, header, expansion and settings have all been gone through, and what
it says is fixed by its document alone: the layers are recorded and not looked at
again.
-/
namespace WorkloadSpec

namespace Contract

variable {c : Contract} {document : Mapping} {version : Int}

theorem check_eq_ok :
    c.check document version = .ok () ↔ unexpected? document = none ∧
      c.unsupported? document = none ∧ c.missing? document = none := by
  unfold check
  cases unexpected? document <;> cases c.unsupported? document <;> cases c.missing? document <;>
    simp

/-- A document that passes the check has possible sections only. -/
theorem possible_of_check (h : c.check document version = .ok ()) {key : String}
    (hkey : key ∈ Mapping.keys document) : ∃ place ∈ c.possible, place.key = key := by
  obtain ⟨hunexpected, hunsupported, -⟩ := check_eq_ok.1 h
  have hknown := List.find?_eq_none.1 hunexpected key hkey
  obtain ⟨place, hplace⟩ : ∃ place, Section.ofKey? key = some place := by
    cases hp : Section.ofKey? key with
    | none => exact absurd (by rw [hp]; rfl) hknown
    | some place => exact ⟨place, rfl⟩
  obtain rfl := Section.key_of_ofKey? hplace
  have hplaced := List.find?_eq_none.1 hunsupported place (Section.mem_all place)
  refine ⟨place, ?_, rfl⟩
  by_contra hnot
  exact hplaced (by simp [Mapping.has_iff_mem_keys.2 hkey, hnot])

/-- A document that passes the check has every required section. -/
theorem required_of_check (h : c.check document version = .ok ()) {place : Section}
    (hplace : place ∈ c.required) : place.key ∈ Mapping.keys document := by
  have hmissing := List.find?_eq_none.1 (check_eq_ok.1 h).2.2 place hplace
  simpa [Mapping.has_iff_mem_keys] using hmissing

end Contract

namespace Header

variable {document : Mapping} {expected kind : Kind} {version : Int} {h : Header} {c : Contract}

theorem readVersion_eq_ok (hv : readVersion document = .ok version) :
    document.lookup Section.version.key = some (.int version) ∧
      leastVersion ≤ version ∧ version ≤ greatestVersion := by
  unfold readVersion at hv
  split at hv
  · cases hv
  · next n hn =>
    split at hv
    · next hbounds => exact Except.ok.inj hv ▸ ⟨hn, hbounds⟩
    · cases hv
  · cases hv

/-- Version first, then kind, then the kind that is asked for. -/
theorem identify_eq (hv : readVersion document = .ok version)
    (hk : Kind.detect document = .ok kind) :
    identify document expected =
      if kind = expected then .ok (version, kind) else .error (.kindMismatch expected kind) := by
  unfold identify
  rw [hv, hk]
  by_cases h : kind = expected <;> simp [h, bind, Except.bind, pure, Except.pure]

theorem identify_eq_ok :
    identify document expected = .ok (version, kind) ↔
      readVersion document = .ok version ∧ Kind.detect document = .ok kind ∧ kind = expected := by
  constructor
  · intro h
    obtain ⟨v, hv, h'⟩ := Outcome.bind_eq_ok.1 h
    obtain ⟨k, hk, -⟩ := Outcome.bind_eq_ok.1 h'
    rw [identify_eq hv hk] at h
    split at h
    · next heq =>
      obtain ⟨rfl, rfl⟩ := Prod.mk.inj (Except.ok.inj h)
      exact ⟨hv, hk, heq⟩
    · cases h
  · rintro ⟨hv, hk, heq⟩
    rw [identify_eq hv hk, if_pos heq]

theorem readPart_keeps {place : Section} {g : Header} (hg : g.readPart document place = .ok h) :
    h.version = g.version ∧ h.kind = g.kind := by
  unfold readPart at hg
  split at hg
  case h_5 => exact Except.ok.inj hg ▸ ⟨rfl, rfl⟩
  all_goals
    obtain ⟨part, -, hpart⟩ := Outcome.bind_eq_ok.1 hg
    exact Except.ok.inj hpart ▸ ⟨rfl, rfl⟩

theorem read_keeps (hr : read document c version kind = .ok h) :
    h.version = version ∧ h.kind = kind := by
  refine Outcome.foldlM_preserves (P := fun g => g.version = version ∧ g.kind = kind)
    (fun place _ s t hs hst => ?_) ⟨rfl, rfl⟩ hr
  have hkept := readPart_keeps hst
  exact ⟨hkept.1.trans hs.1, hkept.2.trans hs.2⟩

end Header

namespace Specification

variable {s : Specification} {kind : Kind} {sources : List Source} {data : Mapping}

/-- What the stages have found of the document, each from what the ones before left. -/
structure Staged (s : Specification) (kind : Kind) : Prop where
  identified : Header.identify s.data kind = .ok (s.header.version, kind)
  checked : kind.contract.check s.data s.header.version = .ok ()
  headed : Header.read s.data kind.contract s.header.version kind = .ok s.header
  expanded : expandSections kind.contract s.data = .ok s.sections
  typed : Settings.ofSections s.sections = .ok s.settings

theorem Staged.kind_eq (h : s.Staged kind) : s.kind = kind := (Header.read_keeps h.headed).2

/-- A section that may hold operators keeps its key and is expanded. -/
theorem expandEntry_operator_eq_ok {place : Section} (h : place ∈ kind.contract.operator)
    {v : Value} {e : String × Value} :
    expandEntry kind.contract data (place.key, v) = .ok e ↔
      ∃ w, expandSection data v = .ok w ∧ (place.key, w) = e := by
  have hfilter : (some place).filter kind.contract.operator.contains = some place := by
    rw [Option.filter_some, if_pos (List.contains_iff_mem.2 h)]
  unfold expandEntry
  rw [Section.ofKey?_key, hfilter, Outcome.mapError_ok, Outcome.map_eq_ok]

/-- Any other section is left as it is. -/
theorem expandEntry_plain {place : Section} (h : place ∉ kind.contract.operator) (v : Value) :
    expandEntry kind.contract data (place.key, v) = .ok (place.key, v) := by
  have hfilter : (some place).filter kind.contract.operator.contains = none := by
    rw [Option.filter_some, if_neg (fun hc => h (List.contains_iff_mem.1 hc))]
  unfold expandEntry
  rw [Section.ofKey?_key, hfilter]

theorem ofDocument_eq_ok :
    ofDocument kind sources data = .ok s ↔ s.sources = sources ∧ s.data = data ∧ s.Staged kind := by
  constructor
  · intro h
    obtain ⟨⟨version, k⟩, hid, hchecked⟩ := Outcome.bind_eq_ok.1 h
    rw [Outcome.lift_document_eq_ok] at hid
    obtain ⟨-, -, rfl⟩ := Header.identify_eq_ok.1 hid
    obtain ⟨_, hcheck, hheaded⟩ := Outcome.bind_eq_ok.1 hchecked
    obtain ⟨header, hheader, hexpanded⟩ := Outcome.bind_eq_ok.1 hheaded
    obtain ⟨sections, hsections, htyped⟩ := Outcome.bind_eq_ok.1 hexpanded
    obtain ⟨settings, hsettings, hmade⟩ := Outcome.bind_eq_ok.1 htyped
    obtain rfl := Except.ok.inj hmade
    rw [Outcome.lift_document_eq_ok] at hcheck hheader
    obtain ⟨rfl, -⟩ := Header.read_keeps hheader
    exact ⟨rfl, rfl, hid, hcheck, hheader, hsections, hsettings⟩
  · rintro ⟨rfl, rfl, h⟩
    refine Outcome.bind_eq_ok.2 ⟨_, Outcome.lift_document_eq_ok.2 h.identified, ?_⟩
    refine Outcome.bind_eq_ok.2 ⟨_, Outcome.lift_document_eq_ok.2 h.checked, ?_⟩
    refine Outcome.bind_eq_ok.2 ⟨_, Outcome.lift_document_eq_ok.2 h.headed, ?_⟩
    exact Outcome.bind_eq_ok.2 ⟨_, h.expanded, Outcome.bind_eq_ok.2 ⟨_, h.typed, rfl⟩⟩

/-- The document alone decides; the layers are only written down. -/
theorem ofDocument_sources (kind : Kind) (sources : List Source) (data : Mapping) :
    ofDocument kind sources data = (fun s => { s with sources }) <$> ofDocument kind [] data := by
  simp only [ofDocument, map_bind, map_pure]

theorem resolve_eq_ok {files : Files} :
    resolve files kind sources = .ok s ↔
      Source.read files sources = .ok s.data ∧ s.sources = sources ∧ s.Staged kind := by
  unfold resolve
  rw [Outcome.bind_eq_ok]
  simp only [Outcome.lift_document_eq_ok, ofDocument_eq_ok]
  constructor
  · rintro ⟨data, hread, hsources, rfl, hstaged⟩
    exact ⟨hread, hsources, hstaged⟩
  · rintro ⟨hread, hsources, hstaged⟩
    exact ⟨s.data, hread, hsources, rfl, hstaged⟩

end Specification

end WorkloadSpec
