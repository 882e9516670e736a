import WorkloadSpec.Proofs.BuildExtraction
import WorkloadSpec.Proofs.LayerOrder
import WorkloadSpec.Proofs.Relevance
import WorkloadSpec.Proofs.SettingsRoundTrip

/-!
The order of the sections in a document. Every stage goes through the document in order and
stops at its first fault, so the order decides which fault is reported. It decides nothing
else: what a stage finds of a section depends on what stands under the keys and not on where
they stand, and so the same sections in another order resolve to the same meaning.
-/
namespace WorkloadSpec

namespace Settings

variable {s t u x y : Settings} {place other : Section} {v w : Value}

/-- The settings with one section taken over from others. -/
def withPart (s x : Settings) : Section → Settings
  | .environment => { s with environment := x.environment }
  | .declarations => { s with declarations := x.declarations }
  | .hptuning => { s with sweep := x.sweep }
  | .build => { s with build := x.build }
  | .run => { s with run := x.run }
  | _ => s

/-- What is read of a section does not depend on the settings it is taken over into. -/
theorem read_eq_ok :
    s.read place v = .ok t ↔ ∃ x, read {} place v = .ok x ∧ s.withPart x place = t := by
  cases place
  case environment | declarations | hptuning | build | run =>
    simp only [read, Outcome.bind_eq_ok, Outcome.pure_eq_ok]
    constructor
    · rintro ⟨part, hpart, rfl⟩
      exact ⟨_, ⟨part, hpart, rfl⟩, rfl⟩
    · rintro ⟨_, ⟨part, hpart, rfl⟩, rfl⟩
      exact ⟨part, hpart, rfl⟩
  all_goals
    simp only [read, Outcome.pure_eq_ok]
    exact ⟨fun h => ⟨{}, rfl, h⟩, fun ⟨_, _, h⟩ => h⟩

theorem withPart_comm (hne : place ≠ other) :
    (s.withPart x place).withPart y other = (s.withPart y other).withPart x place := by
  cases place <;> cases other <;> first | rfl | exact absurd rfl hne

/-- Different sections may be read in either order. -/
theorem read_comm (hne : place ≠ other) (hu : s.read place v = .ok u)
    (ht : u.read other w = .ok t) :
    ∃ u', s.read other w = .ok u' ∧ u'.read place v = .ok t := by
  obtain ⟨x, hx, rfl⟩ := read_eq_ok.1 hu
  obtain ⟨y, hy, rfl⟩ := read_eq_ok.1 ht
  exact ⟨s.withPart y other, read_eq_ok.2 ⟨y, hy, rfl⟩,
    read_eq_ok.2 ⟨x, hx, (withPart_comm hne).symm⟩⟩

theorem readEntry_comm {e f : String × Value} (hne : e.1 ≠ f.1) (hu : s.readEntry e = .ok u)
    (ht : u.readEntry f = .ok t) : ∃ u', s.readEntry f = .ok u' ∧ u'.readEntry e = .ok t := by
  unfold readEntry at hu ht ⊢
  cases he : Section.ofKey? e.1 with
  | none =>
    rw [he] at hu
    obtain rfl := Outcome.pure_eq_ok.1 hu
    exact ⟨t, ht, rfl⟩
  | some place =>
    rw [he] at hu
    cases hf : Section.ofKey? f.1 with
    | none =>
      rw [hf] at ht
      obtain rfl := Outcome.pure_eq_ok.1 ht
      exact ⟨s, rfl, hu⟩
    | some other =>
      rw [hf] at ht
      have hplaces : place ≠ other := by
        rintro rfl
        exact hne ((Section.key_of_ofKey? he).symm.trans (Section.key_of_ofKey? hf))
      exact read_comm hplaces hu ht

theorem ofSections_perm {sections others : Mapping} (hkeys : (Mapping.keys sections).Nodup)
    (hperm : sections.Perm others) (h : ofSections sections = .ok s) :
    ofSections others = .ok s := by
  rw [ofSections_eq] at h ⊢
  refine Outcome.foldlM_perm hperm (fun e he f hf hne s u t hu ht => ?_) h
  have hkey : e.1 ≠ f.1 := fun hsame => hne (List.inj_on_of_nodup_map hkeys he hf hsame)
  exact readEntry_comm hkey hu ht

end Settings

variable {m n : Mapping} {kind : Kind} {version : Int} {c : Contract}

/-- The check asks which keys are there. -/
theorem Contract.check_perm (hperm : m.Perm n) (hlookup : ∀ key, m.lookup key = n.lookup key)
    (h : c.check m version = .ok ()) : c.check n version = .ok () := by
  have hhas : ∀ key, Mapping.has m key = Mapping.has n key :=
    fun key => Mapping.has_eq_of_lookup_eq (hlookup key)
  obtain ⟨hunexpected, hunsupported, hmissing⟩ := check_eq_ok.1 h
  refine check_eq_ok.2 ⟨?_, ?_, ?_⟩
  · unfold unexpected? at hunexpected ⊢
    rw [List.find?_eq_none] at hunexpected ⊢
    intro key hkey
    exact hunexpected key ((hperm.map Prod.fst).mem_iff.2 hkey)
  · unfold unsupported? at hunsupported ⊢
    simpa only [hhas] using hunsupported
  · unfold missing? at hmissing ⊢
    simpa only [hhas] using hmissing

theorem Header.identify_congr (hlookup : ∀ key, m.lookup key = n.lookup key) :
    Header.identify m kind = Header.identify n kind := by
  unfold identify readVersion Kind.detect
  rw [hlookup, hlookup]

theorem Header.read_congr (hlookup : ∀ key, m.lookup key = n.lookup key) :
    Header.read m c version kind = Header.read n c version kind := by
  have hpart : readPart m = readPart n := by
    funext h place
    unfold readPart
    rw [hlookup]
  unfold read
  rw [hpart]

theorem expandSection_congr_lookup (hlookup : ∀ key, m.lookup key = n.lookup key) :
    expandSection m = expandSection n := by
  funext v
  have halike : ExpandAlike m n v :=
    .of_sameData fun r _ => find?_congr (hlookup Section.declarations.key) (hlookup r.head)
  exact halike.whole

namespace Specification

variable {s t : Specification} {data sections : Mapping} {sources others : List Source}
  {files : Files}

theorem expandEntry_congr (hlookup : ∀ key, m.lookup key = n.lookup key) :
    expandEntry c m = expandEntry c n := by
  funext e
  unfold expandEntry
  rw [expandSection_congr_lookup hlookup]

/-- Each section is expanded by itself, against the same data. -/
theorem expandSections_perm (hperm : m.Perm n) (hlookup : ∀ key, m.lookup key = n.lookup key)
    (h : expandSections c m = .ok sections) :
    ∃ others, expandSections c n = .ok others ∧ sections.Perm others := by
  obtain ⟨others, hothers, hsections⟩ :=
    List.perm_comp_forall₂ hperm.symm (Outcome.mapM_eq_ok.1 h)
  rw [expandEntry_congr hlookup] at hothers
  exact ⟨others, Outcome.mapM_eq_ok.2 hothers, hsections.symm⟩

/-- The same meaning, from the same sections in some order. -/
structure Reordered (s t : Specification) : Prop where
  header : s.header = t.header
  settings : s.settings = t.settings
  data : s.data.Perm t.data
  sections : s.sections.Perm t.sections
  /-- What is found under a key once operators are expanded. -/
  parsed : ∀ key, s.sections.lookup key = t.sections.lookup key

theorem Settled.exists_reordered (hs : s.Settled) (hperm : s.data.Perm data)
    (sources : List Source) :
    ∃ t, t.data = data ∧ t.sources = sources ∧ t.Staged s.kind ∧ s.Reordered t := by
  have hstaged := hs.staged
  have hlookup : ∀ key, s.data.lookup key = data.lookup key :=
    Mapping.lookup_perm hs.clean.distinct hperm
  obtain ⟨sections, hexpanded, hsections⟩ := expandSections_perm hperm hlookup hstaged.expanded
  have hkeys : (Mapping.keys s.sections).Nodup := by
    rw [expandSections_keys hstaged.expanded]
    exact hs.clean.distinct
  refine ⟨{ s with sources, data, sections }, rfl, rfl, ?_, ?_⟩
  · exact {
      identified := (Header.identify_congr hlookup).symm.trans hstaged.identified
      checked := Contract.check_perm hperm hlookup hstaged.checked
      headed := (Header.read_congr hlookup).symm.trans hstaged.headed
      expanded := hexpanded
      typed := Settings.ofSections_perm hkeys hsections hstaged.typed
    }
  · exact ⟨rfl, rfl, hperm, hsections, Mapping.lookup_perm hkeys hsections⟩

/-- Layers that are read as the same entries resolve alike. -/
theorem exists_resolve_reordered
    (hread : ∀ data, Source.read files sources = .ok data →
      ∃ other, Source.read files others = .ok other ∧ data.Perm other)
    (h : resolve files kind sources = .ok s) :
    ∃ t, resolve files kind others = .ok t ∧ s.Reordered t := by
  obtain ⟨hdata, -, hstaged⟩ := resolve_eq_ok.1 h
  obtain ⟨other, hother, hperm⟩ := hread s.data hdata
  obtain ⟨t, rfl, hsources, ht, hreordered⟩ :=
    (settled_of_resolve h).exists_reordered hperm others
  exact ⟨t, resolve_eq_ok.2 ⟨hother, hsources, hstaged.kind_eq ▸ ht⟩, hreordered⟩

/-- Both outcomes are specifications that mean the same, or neither is a specification. -/
def SameButOrder (a b : Except ResolutionError Specification) : Prop :=
  ((∃ s, a = .ok s) ↔ ∃ t, b = .ok t) ∧ ∀ s t, a = .ok s → b = .ok t → s.Reordered t

theorem sameButOrder_resolve
    (h : ∀ data, Source.read files sources = .ok data →
      ∃ other, Source.read files others = .ok other ∧ data.Perm other)
    (h' : ∀ data, Source.read files others = .ok data →
      ∃ other, Source.read files sources = .ok other ∧ data.Perm other) :
    SameButOrder (resolve files kind sources) (resolve files kind others) := by
  constructor
  · constructor
    · rintro ⟨s, hs⟩
      obtain ⟨t, ht, -⟩ := exists_resolve_reordered h hs
      exact ⟨t, ht⟩
    · rintro ⟨t, ht⟩
      obtain ⟨s, hs, -⟩ := exists_resolve_reordered h' ht
      exact ⟨s, hs⟩
  · intro s t hs ht
    obtain ⟨u, hu, hreordered⟩ := exists_resolve_reordered h hs
    exact Except.ok.inj (hu.symm.trans ht) ▸ hreordered

/-- A document means the same in any order of its sections, and two sources that set no
section in common may be given in either order, whatever sources stand around them. -/
theorem section_order_is_free (kind : Kind) :
    (∀ m n : Mapping, (Mapping.keys m).Nodup → m.Perm n →
      SameButOrder (ofValue kind (.map m)) (ofValue kind (.map n))) ∧
    ∀ (files : Files) (before after : List Source) (a b : Source), a.Apart files b →
      SameButOrder (resolve files kind (before ++ a :: b :: after))
        (resolve files kind (before ++ b :: a :: after)) := by
  constructor
  · intro m n hm hperm
    have hn : (Mapping.keys n).Nodup := Mapping.nodup_keys_of_perm hm hperm
    exact sameButOrder_resolve (Source.exists_read_perm hm hperm)
      (Source.exists_read_perm hn hperm.symm)
  · intro files before after a b hapart
    exact sameButOrder_resolve (fun _ => Source.exists_read_swap hapart)
      (fun _ => Source.exists_read_swap hapart.symm)

open History

/-- A job whose image is declared, written from its end and in two halves that change places. -/
theorem section_order_is_free_imageJob :
    let files : Files := fun _ => .error .notFound
    let header := Source.value (.map ((imageJob "python:3").take 2))
    let content := Source.value (.map ((imageJob "python:3").drop 2))
    (Mapping.keys (imageJob "python:3")).Nodup ∧ header.Apart files content ∧
      (∃ t, ofValue .job (.map (imageJob "python:3").reverse) = .ok t ∧
        t.header = { version := 1, kind := .job } ∧
        t.settings.build = some { image := "python:3" }) ∧
      ∃ t, resolve files .job [content, header] = .ok t ∧
        t.sections.lookup "build" = some (.map [("image", .str "python:3")]) := by
  intro files header content
  have hkeys : (Mapping.keys (imageJob "python:3")).Nodup := by decide
  have hapart : header.Apart files content := by
    intro m hm n hn
    obtain rfl := Option.some.inj hm
    obtain rfl := Option.some.inj hn
    rw [List.disjoint_iff_ne]
    decide
  obtain ⟨hdocuments, hlayers⟩ := section_order_is_free .job
  have hjob := ofValue_imageJob "python:3"
  have hstaged := (resolve_eq_ok.1 hjob).2.2
  have hhalves : resolve files .job [header, content] =
      .ok { imaged "python:3" with sources := [header, content] } :=
    resolve_eq_ok.2 ⟨rfl, rfl, hstaged.identified, hstaged.checked, hstaged.headed,
      hstaged.expanded, hstaged.typed⟩
  refine ⟨hkeys, hapart, ?_, ?_⟩
  · obtain ⟨hiff, hsame⟩ := hdocuments _ _ hkeys (List.reverse_perm _).symm
    obtain ⟨t, ht⟩ := hiff.1 ⟨_, hjob⟩
    have hreordered := hsame _ _ hjob ht
    exact ⟨t, ht, hreordered.header.symm, hreordered.settings ▸ rfl⟩
  · obtain ⟨hiff, hsame⟩ := hlayers files [] [] header content hapart
    obtain ⟨t, ht⟩ := hiff.1 ⟨_, hhalves⟩
    exact ⟨t, ht, ((hsame _ _ hhalves ht).parsed "build").symm⟩

end Specification

end WorkloadSpec
