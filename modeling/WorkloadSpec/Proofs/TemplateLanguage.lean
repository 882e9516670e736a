import WorkloadSpec.Proofs.TemplatePieces

/-!
The language of templates. A text renders just when it is made of literal pieces and of markers
whose references point at data. What it renders to is then known piece by piece: data that
takes a place in a text is not looked at again.
-/
namespace WorkloadSpec.Template

theorem hasBraces_of_stray? {cs : List Char} (h : stray? cs = none) : ¬HasBraces cs := by
  induction cs with
  | nil =>
    intro hbraces
    cases List.infix_nil.1 hbraces
  | cons c cs ih =>
    intro hbraces
    unfold stray? at h
    split at h
    · cases h
    · next hcons heq =>
      obtain ⟨rfl, rfl⟩ := List.cons.inj heq
      rcases List.infix_cons_iff.1 hbraces with ⟨rest, hfront⟩ | htail
      · obtain ⟨rfl, rfl⟩ := List.cons.inj hfront
        exact hcons rest rfl rfl
      · exact ih h htail
    · next heq => cases heq

/-- A literal piece is taken as it is, if it has no double braces. -/
theorem literal_eq_ok {cs : List Char} {s : String} :
    literal cs = .ok s ↔ ¬HasBraces cs ∧ String.ofList cs = s := by
  constructor
  · intro h
    unfold literal at h
    split at h
    · cases h
    · next hstray => exact ⟨hasBraces_of_stray? hstray, Except.ok.inj h⟩
  · rintro ⟨hbraces, rfl⟩
    rw [literal, stray?_of_unmarked hbraces]

variable {document : Mapping} {scope : Scope}

/-- A template as text: its literal pieces with the data of its markers between them. -/
def compose (document : Mapping) (scope : Scope) (t : Template) : Except OperatorError String := do
  let lead ← literal t.lead
  let rest ← fill document scope t.markers
  pure (lead ++ rest)

theorem render_of_whole {t : Template} {reference : String} (h : t.whole? = some reference) :
    t.render document scope = resolveReference document scope reference := by
  rw [render, h]

theorem render_of_not_whole {t : Template} (h : t.whole? = none) :
    t.render document scope = .str <$> compose document scope t := by
  rw [render, h, compose]
  simp only [map_bind, map_pure]

namespace Pieces

variable {p : Pieces} {data : Reference → Value}

theorem compose_last_eq_ok {cs : List Char} {t : String} :
    compose document scope (last cs).toTemplate = .ok t ↔
      ¬HasBraces cs ∧ String.ofList cs = t := by
  have hfill : fill document scope [] = .ok "" := rfl
  rw [← literal_eq_ok, compose, toTemplate]
  dsimp only
  rw [hfill]
  cases literal cs with
  | error e =>
    constructor
    · intro h
      cases h
    · intro h
      cases h
  | ok s =>
    change Except.ok (s ++ "") = Except.ok t ↔ Except.ok s = Except.ok t
    rw [String.append_empty]

/-- The pieces after the first marker are put together on their own. -/
theorem compose_marked_eq_ok {cs : List Char} {m : Marker} (hm : m.WellFormed) {t : String} :
    compose document scope (marked cs m p).toTemplate = .ok t ↔
      ¬HasBraces cs ∧ ∃ v, m.reference.PointsAt document scope v ∧
        ∃ rest, compose document scope p.toTemplate = .ok rest ∧
          String.ofList cs ++ (dataText v ++ rest) = t := by
  unfold compose
  simp only [toTemplate, fill, Outcome.bind_eq_ok, Outcome.pure_eq_ok, literal_eq_ok,
    resolveReference_written hm.reference]
  constructor
  · rintro ⟨_, ⟨hcs, rfl⟩, _, ⟨v, hv, _, ⟨hlead, rfl⟩, rest, hrest, rfl⟩, rfl⟩
    refine ⟨hcs, v, hv, _, ⟨_, ⟨hlead, rfl⟩, rest, hrest, rfl⟩, ?_⟩
    rw [String.append_assoc]
  · rintro ⟨hcs, v, hv, _, ⟨_, ⟨hlead, rfl⟩, rest, hrest, rfl⟩, rfl⟩
    refine ⟨_, ⟨hcs, rfl⟩, _, ⟨v, hv, _, ⟨hlead, rfl⟩, rest, hrest, rfl⟩, ?_⟩
    rw [String.append_assoc]

/-- Pieces that are put together are well formed and point at data throughout. -/
theorem wellFormed_of_compose (hmarkers : ∀ m ∈ p.markers, m.WellFormed) {t : String}
    (h : compose document scope p.toTemplate = .ok t) :
    p.WellFormed ∧ ∀ m ∈ p.markers, ∃ v, m.reference.PointsAt document scope v := by
  induction p generalizing t with
  | last cs =>
    obtain ⟨hcs, -⟩ := compose_last_eq_ok.1 h
    exact ⟨⟨List.forall_mem_singleton.2 hcs, hmarkers⟩, List.forall_mem_nil _⟩
  | marked cs m p ih =>
    obtain ⟨hm, hrest⟩ := List.forall_mem_cons.1 hmarkers
    obtain ⟨hcs, v, hv, t, ht, -⟩ := (compose_marked_eq_ok hm).1 h
    obtain ⟨hp, hpoints⟩ := ih hrest ht
    exact ⟨⟨List.forall_mem_cons.2 ⟨hcs, hp.literals⟩, hmarkers⟩,
      List.forall_mem_cons.2 ⟨⟨v, hv⟩, hpoints⟩⟩

theorem compose_eq_filled (h : p.WellFormed)
    (hdata : ∀ m ∈ p.markers, m.reference.PointsAt document scope (data m.reference)) :
    compose document scope p.toTemplate = .ok (String.ofList (p.filled data)) := by
  induction p with
  | last cs =>
    have hcs := h.literals cs (List.mem_singleton_self cs)
    exact compose_last_eq_ok.2 ⟨hcs, rfl⟩
  | marked cs m p ih =>
    obtain ⟨hm, hrest⟩ := List.forall_mem_cons.1 hdata
    refine (compose_marked_eq_ok (h.markers m List.mem_cons_self)).2
      ⟨h.literals cs List.mem_cons_self, _, hm, _, ih h.rest hrest, ?_⟩
    rw [filled, String.ofList_append, String.ofList_append, String.ofList_toList]

theorem whole?_eq_some {before after : List Char} (m : Marker) (hbefore : IsBlank before)
    (hafter : IsBlank after) : (marked before m (last after)).toTemplate.whole? =
      some (String.ofList m.reference.written) :=
  if_pos ⟨List.all_eq_true.2 hbefore, List.all_eq_true.2 hafter⟩

theorem whole?_eq_none (h : ¬p.IsWhole) : p.toTemplate.whole? = none := by
  match p, h with
  | last cs, _ => rfl
  | marked cs m (marked ds n rest), _ => rfl
  | marked cs m (last ds), h =>
    refine if_neg fun hblank => h ?_
    exact ⟨List.all_eq_true.1 hblank.1, List.all_eq_true.1 hblank.2⟩

theorem IsWhole.exists_eq (h : p.IsWhole) : ∃ before m after,
    p = marked before m (last after) ∧ IsBlank before ∧ IsBlank after := by
  match p, h with
  | marked before m (last after), h => exact ⟨before, m, after, rfl, h⟩

/-- Blanks around a marker are literal pieces. -/
theorem wellFormed_of_whole {before after : List Char} {m : Marker} (hm : m.WellFormed)
    (hbefore : IsBlank before) (hafter : IsBlank after) :
    (marked before m (last after)).WellFormed where
  literals := by
    refine List.forall_mem_cons.2 ⟨hbefore.not_hasBraces, List.forall_mem_singleton.2 ?_⟩
    exact hafter.not_hasBraces
  markers := List.forall_mem_singleton.2 hm

/-- What is rendered is well formed and points at data throughout. -/
theorem wellFormed_of_render (hmarkers : ∀ m ∈ p.markers, m.WellFormed) {v : Value}
    (h : p.toTemplate.render document scope = .ok v) :
    p.WellFormed ∧ ∀ m ∈ p.markers, ∃ v, m.reference.PointsAt document scope v := by
  by_cases hwhole : p.IsWhole
  · obtain ⟨before, m, after, rfl, hbefore, hafter⟩ := hwhole.exists_eq
    have hm := hmarkers m List.mem_cons_self
    rw [render_of_whole (whole?_eq_some m hbefore hafter)] at h
    refine ⟨wellFormed_of_whole hm hbefore hafter, List.forall_mem_singleton.2 ⟨v, ?_⟩⟩
    exact (resolveReference_written hm.reference).1 h
  · rw [render_of_not_whole (whole?_eq_none hwhole)] at h
    obtain ⟨t, ht, -⟩ := Outcome.map_eq_ok.1 h
    exact wellFormed_of_compose hmarkers ht

theorem render_of_isWhole {before after : List Char} {m : Marker} {v : Value}
    (hm : m.WellFormed) (hbefore : IsBlank before) (hafter : IsBlank after)
    (hv : m.reference.PointsAt document scope v) :
    (marked before m (last after)).toTemplate.render document scope = .ok v := by
  rw [render_of_whole (whole?_eq_some m hbefore hafter)]
  exact (resolveReference_written hm.reference).2 hv

theorem render_of_not_isWhole (h : p.WellFormed) (hwhole : ¬p.IsWhole)
    (hdata : ∀ m ∈ p.markers, m.reference.PointsAt document scope (data m.reference)) :
    p.toTemplate.render document scope = .ok (.str (String.ofList (p.filled data))) := by
  rw [render_of_not_whole (whole?_eq_none hwhole), compose_eq_filled h hdata]
  rfl

/-- Pieces that point at data throughout are rendered, whole or not. -/
theorem exists_render (h : p.WellFormed)
    (hdata : ∀ m ∈ p.markers, m.reference.PointsAt document scope (data m.reference)) :
    ∃ v, p.toTemplate.render document scope = .ok v := by
  by_cases hwhole : p.IsWhole
  · obtain ⟨before, m, after, rfl, hbefore, hafter⟩ := hwhole.exists_eq
    exact ⟨_, render_of_isWhole (h.markers m List.mem_cons_self) hbefore hafter
      (hdata m List.mem_cons_self)⟩
  · exact ⟨_, render_of_not_isWhole h hwhole hdata⟩

end Pieces

/-- A text renders just when it is made of literal pieces without double braces and of markers
whose references point at data. There is one such way to cut it up at most. A text without
markers stands for itself, one that is a marker and blanks for the data as it is, and any other
has the text of the data in the place of each marker. -/
theorem render_accepts_its_language (document : Mapping) (scope : Scope) (s : String) :
    ((∃ v, (ofString s).render document scope = .ok v) ↔
      ∃ p : Pieces, p.WellFormed ∧ p.written = s.toList ∧
        ∀ m ∈ p.markers, ∃ v, m.reference.PointsAt document scope v) ∧
    (∀ p q : Pieces, p.WellFormed → q.WellFormed → p.written = s.toList →
      q.written = s.toList → p = q) ∧
    ∀ (p : Pieces) (data : Reference → Value), p.WellFormed → p.written = s.toList →
      (∀ m ∈ p.markers, m.reference.PointsAt document scope (data m.reference)) →
      (p.markers = [] → (ofString s).render document scope = .ok (.str s)) ∧
      (∀ before m after, p = .marked before m (.last after) → IsBlank before → IsBlank after →
        (ofString s).render document scope = .ok (data m.reference)) ∧
      (p.markers ≠ [] → ¬p.IsWhole →
        (ofString s).render document scope = .ok (.str (String.ofList (p.filled data)))) := by
  have htemplate : ∀ p : Pieces, p.WellFormed → p.written = s.toList →
      ofString s = p.toTemplate := by
    intro p hp hwritten
    rw [ofString, ← hwritten, Pieces.split_written hp]
  refine ⟨⟨?_, ?_⟩, ?_, ?_⟩
  · rintro ⟨v, hv⟩
    obtain ⟨p, hwritten, hmarkers, hsplit⟩ := Pieces.exists_split_eq s.toList
    rw [ofString, hsplit] at hv
    obtain ⟨hp, hpoints⟩ := Pieces.wellFormed_of_render hmarkers hv
    exact ⟨p, hp, hwritten, hpoints⟩
  · rintro ⟨p, hp, hwritten, hpoints⟩
    rw [htemplate p hp hwritten]
    let data : Reference → Value := fun r => (r.find? document scope).getD .null
    have hdata : ∀ m ∈ p.markers, m.reference.PointsAt document scope (data m.reference) := by
      intro m hm
      obtain ⟨v, hv⟩ := hpoints m hm
      change m.reference.PointsAt document scope ((m.reference.find? document scope).getD .null)
      rw [hv.found]
      exact hv
    exact Pieces.exists_render hp hdata
  · intro p q hp hq hwritten hwritten'
    exact Pieces.written_injective hp hq (hwritten.trans hwritten'.symm)
  · intro p data hp hwritten hdata
    rw [htemplate p hp hwritten]
    refine ⟨fun hnone => ?_, ?_, fun _ hwhole => Pieces.render_of_not_isWhole hp hwhole hdata⟩
    · cases p with
      | last cs =>
        rw [Pieces.render_of_not_isWhole hp id hdata, Pieces.filled,
          ← String.ofList_toList (s := s), ← hwritten]
        rfl
      | marked cs m rest => cases hnone
    · rintro before m after rfl hbefore hafter
      exact Pieces.render_of_isWhole (hp.markers m List.mem_cons_self) hbefore hafter
        (hdata m List.mem_cons_self)

/-- Data of which one text looks like a marker. -/
def quoted : Mapping :=
  [("declarations", .map [("a", .str "\x7b\x7b b \x7d\x7d"), ("b", .seq [.int 1, .int 2])])]

/-- A marker with a brace on either side of it, and another one that ends the text. -/
def braced : Pieces :=
  .marked ['\x7b'] ⟨[' '], ⟨"a", []⟩, [' ']⟩
    (.marked "\x7d and ".toList ⟨[], ⟨"b", []⟩, []⟩ (.last []))

def bracedText : String := "\x7b\x7b\x7b a \x7d\x7d\x7d and \x7b\x7bb\x7d\x7d"

def quotedData (r : Reference) : Value :=
  if r.head = "a" then .str "\x7b\x7b b \x7d\x7d" else .seq [.int 1, .int 2]

theorem wellFormed_braced : braced.WellFormed where
  literals := by decide
  markers := by
    have hblank : IsBlank [' '] := List.forall_mem_singleton.2 rfl
    have ha : Reference.Dotted ⟨"a", []⟩ := ⟨by decide, List.forall_mem_nil _⟩
    have hb : Reference.Dotted ⟨"b", []⟩ := ⟨by decide, List.forall_mem_nil _⟩
    refine List.forall_mem_cons.2 ⟨⟨hblank, ha, hblank⟩, List.forall_mem_singleton.2 ?_⟩
    exact ⟨List.forall_mem_nil _, hb, List.forall_mem_nil _⟩

theorem pointsAt_braced : ∀ m ∈ braced.markers,
    m.reference.PointsAt quoted [] (quotedData m.reference) :=
  List.forall_mem_cons.2 ⟨⟨rfl, rfl⟩, List.forall_mem_singleton.2 ⟨rfl, rfl⟩⟩

/-- The text that was brought in is left as it is, for all its braces. -/
theorem render_accepts_its_language_braced :
    braced.WellFormed ∧ braced.written = bracedText.toList ∧
    (ofString bracedText).render quoted [] =
      .ok (.str "\x7b\x7b\x7b b \x7d\x7d\x7d and [1,2]") ∧
    ∀ q : Pieces, q.WellFormed → q.written = bracedText.toList → q = braced := by
  obtain ⟨-, hunique, hresult⟩ := render_accepts_its_language quoted [] bracedText
  obtain ⟨-, -, hfilled⟩ := hresult braced quotedData wellFormed_braced rfl pointsAt_braced
  refine ⟨wellFormed_braced, rfl, hfilled (by simp [braced, Pieces.markers]) id, ?_⟩
  intro q hq hwritten
  exact hunique q braced hq wellFormed_braced hwritten rfl

end WorkloadSpec.Template
