import WorkloadSpec.Proofs.OperatorFree
import WorkloadSpec.Proofs.TemplateLanguage

/-!
Values that stand for themselves. A value without operators that is not marked expands to
itself over every document, and no other value does: what expansion yields has no operators,
and over the empty document no text with double braces can be rendered. So what has been
expanded once, and has no double braces left in it, does not change when it is expanded again,
wherever that is done.
-/
namespace WorkloadSpec

variable {document : Mapping} {scope : Scope} {v w : Value}

/-- The empty document has no data to refer to. -/
theorem find?_empty (r : Reference) : r.find? [] [] = none := rfl

/-- Without data the texts without double braces are the only ones to be rendered. -/
theorem not_hasBraces_of_render {s : String}
    (h : (Template.ofString s).render [] [] = .ok w) : ¬HasBraces s.toList := by
  obtain ⟨p, hwritten, hmarkers, hsplit⟩ := Template.Pieces.exists_split_eq s.toList
  rw [Template.ofString, hsplit] at h
  obtain ⟨hp, hpoints⟩ := Template.Pieces.wellFormed_of_render hmarkers h
  cases p with
  | last cs => exact hwritten ▸ hp.literals cs List.mem_cons_self
  | marked cs m rest =>
    obtain ⟨v, hv⟩ := hpoints m List.mem_cons_self
    cases (find?_empty m.reference).symm.trans hv.found

/-- Items that are expanded are expanded one by one. -/
theorem exists_expand_of_mem_items {items ws : List Value}
    (h : expandItems document scope items = .ok ws) (hv : v ∈ items) :
    ∃ us, expand document scope v = .ok us := by
  induction items generalizing ws with
  | nil => exact absurd hv List.not_mem_nil
  | cons u items ih =>
    rw [expandItems] at h
    obtain ⟨us, hus, h⟩ := Outcome.bind_eq_ok.1 h
    obtain ⟨rest, hrest, -⟩ := Outcome.bind_eq_ok.1 h
    rcases List.mem_cons.1 hv with rfl | hv
    · exact ⟨us, hus⟩
    · exact ih hrest hv

theorem exists_expandSlot_of_mem_entries {entries filled : Mapping} {e : String × Value}
    (h : expandEntries document scope entries = .ok filled) (he : e ∈ entries) :
    ∃ slot, expandSlot document scope e.2 = .ok slot := by
  induction entries generalizing filled with
  | nil => exact absurd he List.not_mem_nil
  | cons d entries ih =>
    rw [expandEntries] at h
    obtain ⟨slot, hslot, h⟩ := Outcome.bind_eq_ok.1 h
    obtain ⟨rest, hrest, -⟩ := Outcome.bind_eq_ok.1 h
    rcases List.mem_cons.1 he with rfl | he
    · exact ⟨slot, hslot⟩
    · exact ih hrest he

theorem exists_expand_of_expandSlot (hplain : holdsOperators v = false) {slot : Option Value}
    (h : expandSlot document scope v = .ok slot) : ∃ us, expand document scope v = .ok us := by
  have hread := Operator.read?_of_plain hplain
  rw [expandSlot_plain hread] at h
  obtain ⟨w, hw, -⟩ := Outcome.map_eq_ok.1 h
  rw [expand_plain hread]
  exact ⟨[w], Outcome.map_eq_ok.2 ⟨w, hw, rfl⟩⟩

/-- What expands without data is not marked. -/
theorem not_marked_of_expand (hplain : holdsOperators v = false) {ws : List Value}
    (h : expand [] [] v = .ok ws) : ¬Marked v := by
  intro hmarked
  induction hmarked generalizing ws with
  | text hbraces =>
    rw [expand_plain rfl, expandPlain] at h
    obtain ⟨w, hw, -⟩ := Outcome.map_eq_ok.1 h
    exact not_hasBraces_of_render hw hbraces
  | item hv _ ih =>
    rw [expand_plain rfl, expandPlain] at h
    obtain ⟨_, h, -⟩ := Outcome.map_eq_ok.1 h
    obtain ⟨_, hitems, -⟩ := Outcome.map_eq_ok.1 h
    obtain ⟨us, hus⟩ := exists_expand_of_mem_items hitems hv
    exact ih (holdsOperators_seq_eq_false.1 hplain _ hv) hus
  | entry he _ ih =>
    rw [expand_plain (Operator.read?_of_plain hplain), expandPlain] at h
    obtain ⟨_, h, -⟩ := Outcome.map_eq_ok.1 h
    obtain ⟨_, hentries, -⟩ := Outcome.map_eq_ok.1 h
    obtain ⟨slot, hslot⟩ := exists_expandSlot_of_mem_entries hentries he
    have hvalue := (holdsOperators_map_eq_false.1 hplain).2.2 _ he
    obtain ⟨us, hus⟩ := exists_expand_of_expandSlot hvalue hslot
    exact ih hvalue hus

theorem not_marked_of_expandSection (hplain : holdsOperators v = false)
    (h : expandSection [] v = .ok w) : ¬Marked v := by
  obtain ⟨slot, hslot, -⟩ := Outcome.map_eq_ok.1 h
  obtain ⟨us, hus⟩ := exists_expand_of_expandSlot hplain hslot
  exact not_marked_of_expand hplain hus

/-- A value without operators and without texts that have double braces expands to itself, over
every document and in every scope, and it is known by that already over the empty document.
What was expanded and has no such text left expands to itself from then on. -/
theorem plain_values_stand_for_themselves (v : Value) :
    (holdsOperators v = false → ¬Marked v → ∀ document,
      (∀ scope, expand document scope v = .ok [v]) ∧ expandSection document v = .ok v) ∧
    (expand [] [] v = .ok [v] → holdsOperators v = false ∧ ¬Marked v) ∧
    (expandSection [] v = .ok v → holdsOperators v = false ∧ ¬Marked v) ∧
    (∀ document scope ws, expand document scope v = .ok ws → ∀ w ∈ ws, ¬Marked w →
      ∀ other inner, expand other inner w = .ok [w]) ∧
    ∀ document w, expandSection document v = .ok w → ¬Marked w →
      ∀ other, expandSection other w = .ok w := by
  refine ⟨?_, ?_, ?_, ?_, ?_⟩
  · intro hplain hunmarked document
    exact ⟨fun scope => expand_of_unmarked hplain hunmarked,
      expandSection_of_unmarked hplain hunmarked⟩
  · intro h
    have hplain := (yieldsPlain v).expand [] [] [v] h v List.mem_cons_self
    exact ⟨hplain, not_marked_of_expand hplain h⟩
  · intro h
    have hplain := plain_of_expandSection h
    exact ⟨hplain, not_marked_of_expandSection hplain h⟩
  · intro document scope ws hws w hw hunmarked other inner
    exact expand_of_unmarked ((yieldsPlain v).expand document scope ws hws w hw) hunmarked
  · intro document w hw hunmarked other
    exact expandSection_of_unmarked (plain_of_expandSection hw) hunmarked

/-- A marker where it is a key, and braces that do not open one. -/
def loose : Value :=
  .map [("\x7b\x7b key \x7d\x7d", .str "\x7b x \x7d\x7d"), ("sizes", .seq [.int 2, .int 3])]

/-- What the loop over the hosts comes to. -/
def visited : Value := .seq [.seq [.map [("name", .str "a")], .int 1], .seq [.str "b", .int 1]]

/-- The loose braces stay where they are, and the visited hosts are still the same without the
document that they are from. -/
theorem plain_values_stand_for_themselves_visited :
    holdsOperators loose = false ∧ ¬Marked loose ∧ expandSection hosts loose = .ok loose ∧
      expandSection hosts visits = .ok visited ∧ ¬Marked visited ∧
      expandSection [] visited = .ok visited := by
  have hloose : ¬Marked loose := by
    have hbraces : ¬HasBraces "\x7b x \x7d\x7d".toList := by decide
    simpa [loose] using hbraces
  have hvisits : expandSection hosts visits = .ok visited := by
    rw [expandSection, expandSlot_loop (v := visits) rfl, expand_visits]
    rfl
  have hvisited : ¬Marked visited := by
    have ha : ¬HasBraces "a".toList := by decide
    have hb : ¬HasBraces "b".toList := by decide
    simpa [visited] using And.intro ha hb
  obtain ⟨hself, -⟩ := plain_values_stand_for_themselves loose
  obtain ⟨-, -, -, -, hagain⟩ := plain_values_stand_for_themselves visits
  exact ⟨rfl, hloose, (hself rfl hloose hosts).2, hvisits, hvisited,
    hagain hosts visited hvisits hvisited []⟩

end WorkloadSpec
