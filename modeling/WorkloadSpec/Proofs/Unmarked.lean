import WorkloadSpec.Proofs.Expansion

/-!
Values that expansion has nothing to do for. A value is marked when one of its texts has
double braces that open, be they of a marker or not; keys do not count. A value without
operators that is not marked expands to itself, and the document is not looked at.
-/
namespace WorkloadSpec

/-- The characters of a text have double braces that open. -/
def HasBraces (cs : List Char) : Prop := ['\x7b', '\x7b'] <:+: cs

instance (cs : List Char) : Decidable (HasBraces cs) :=
  inferInstanceAs (Decidable (['\x7b', '\x7b'] <:+: cs))

inductive Marked : Value → Prop
  | text {s : String} (h : HasBraces s.toList) : Marked (.str s)
  | item {items : List Value} {v : Value} (hv : v ∈ items) (h : Marked v) : Marked (.seq items)
  | entry {entries : Mapping} {e : String × Value} (he : e ∈ entries) (h : Marked e.2) :
      Marked (.map entries)

variable {document : Mapping} {scope : Scope} {v : Value}

@[simp] theorem marked_str_iff {s : String} : Marked (.str s) ↔ HasBraces s.toList := by
  constructor
  · intro h
    cases h with
    | text h => exact h
  · exact .text

@[simp] theorem marked_seq_iff {items : List Value} :
    Marked (.seq items) ↔ ∃ v ∈ items, Marked v := by
  constructor
  · intro h
    cases h with
    | item hv h => exact ⟨_, hv, h⟩
  · rintro ⟨v, hv, h⟩
    exact .item hv h

@[simp] theorem marked_map_iff {entries : Mapping} :
    Marked (.map entries) ↔ ∃ e ∈ entries, Marked e.2 := by
  constructor
  · intro h
    cases h with
    | entry he h => exact ⟨_, he, h⟩
  · rintro ⟨e, he, h⟩
    exact .entry he h

@[simp] theorem not_marked_int (n : Int) : ¬Marked (.int n) := by
  intro h
  cases h

theorem hasBraces_front (cs : List Char) : HasBraces ('\x7b' :: '\x7b' :: cs) :=
  (List.prefix_append ['\x7b', '\x7b'] cs).isInfix

theorem HasBraces.cons {c : Char} {cs : List Char} (h : HasBraces cs) : HasBraces (c :: cs) :=
  List.infix_cons h

namespace Template

/-- A marker opens with double braces. -/
theorem marker?_eq_none {c : Char} {cs : List Char} (h : ¬HasBraces (c :: cs)) :
    marker? (c :: cs) = none := by
  unfold marker?
  split
  · next rest heq =>
    rw [heq] at h
    exact absurd (hasBraces_front rest) h
  · rfl

theorem split_of_unmarked {cs : List Char} (h : ¬HasBraces cs) : split 0 cs = ⟨cs, []⟩ := by
  induction cs with
  | nil => rfl
  | cons c cs ih =>
    have hrest : ¬HasBraces cs := fun hcs => h hcs.cons
    rw [split, marker?_eq_none h, ih hrest]

theorem stray?_of_unmarked {cs : List Char} (h : ¬HasBraces cs) : stray? cs = none := by
  induction cs with
  | nil => rfl
  | cons c cs ih =>
    have hrest : ¬HasBraces cs := fun hcs => h hcs.cons
    unfold stray?
    split
    · next rest heq =>
      rw [heq] at h
      exact absurd (hasBraces_front rest) h
    · next heq =>
      obtain ⟨rfl, rfl⟩ := List.cons.inj heq
      exact ih hrest
    · rfl

/-- A text without markers stands for itself. -/
theorem render_of_unmarked {s : String} (h : ¬HasBraces s.toList) :
    (ofString s).render document scope = .ok (.str s) := by
  have hliteral : literal s.toList = .ok s := by
    rw [literal, stray?_of_unmarked h, String.ofList_toList]
  have hfill : fill document scope [] = .ok "" := rfl
  rw [ofString, split_of_unmarked h, render, whole?]
  refine Outcome.bind_eq_ok.2 ⟨s, hliteral, Outcome.bind_eq_ok.2 ⟨"", hfill, ?_⟩⟩
  rw [String.append_empty]
  rfl

end Template

theorem Operator.read?_of_plain (h : holdsOperators v = false) : read? v = .ok none := by
  cases v with
  | map entries =>
    obtain ⟨hfor, hif, -⟩ := holdsOperators_map_eq_false.1 h
    exact read?_map_eq_none.2 ⟨hfor, hif⟩
  | _ => rfl

theorem expandItems_eq_self {items : List Value}
    (h : ∀ v ∈ items, expand document scope v = .ok [v]) :
    expandItems document scope items = .ok items := by
  induction items with
  | nil => rw [expandItems]
  | cons v items ih =>
    obtain ⟨hv, hitems⟩ := List.forall_mem_cons.1 h
    rw [expandItems, hv, ih hitems]
    rfl

theorem expandSlot_eq_self (hread : Operator.read? v = .ok none)
    (h : expand document scope v = .ok [v]) : expandSlot document scope v = .ok (some v) := by
  have hloop : ∀ binding items body,
      Operator.read? v ≠ .ok (some (.loop binding items body)) := by
    intro binding items body hloop
    cases hread.symm.trans hloop
  rw [expandSlot_eq_single hloop, h]
  rfl

theorem expandEntries_eq_self {entries : Mapping}
    (h : ∀ e ∈ entries, expandSlot document scope e.2 = .ok (some e.2)) :
    expandEntries document scope entries = .ok entries := by
  induction entries with
  | nil => rw [expandEntries]
  | cons e entries ih =>
    obtain ⟨key, v⟩ := e
    obtain ⟨hv, hentries⟩ := List.forall_mem_cons.1 h
    rw [expandEntries, hv, ih hentries]
    rfl

/-- What holds no operators and is not marked yields itself, whatever the document. -/
theorem expand_of_unmarked (hplain : holdsOperators v = false) (h : ¬Marked v) :
    expand document scope v = .ok [v] := by
  induction v using Operator.induction with
  | malformed v e hread => cases (Operator.read?_of_plain hplain).symm.trans hread
  | loop v binding items body hread => cases (Operator.read?_of_plain hplain).symm.trans hread
  | branch v test body otherwise hread =>
    cases (Operator.read?_of_plain hplain).symm.trans hread
  | str s =>
    have hs : ¬HasBraces s.toList := fun hs => h (.text hs)
    rw [expand_plain rfl, expandPlain, Template.render_of_unmarked hs]
    rfl
  | seq items hitems =>
    have hself : ∀ w ∈ items, expand document scope w = .ok [w] := by
      intro w hw
      exact hitems w hw (holdsOperators_seq_eq_false.1 hplain w hw) fun hm => h (.item hw hm)
    rw [expand_plain rfl, expandPlain, expandItems_eq_self hself]
    rfl
  | map entries hread hentries =>
    have hself : ∀ e ∈ entries, expandSlot document scope e.2 = .ok (some e.2) := by
      intro e he
      have hvalue : holdsOperators e.2 = false := (holdsOperators_map_eq_false.1 hplain).2.2 e he
      refine expandSlot_eq_self (Operator.read?_of_plain hvalue) ?_
      exact hentries e he hvalue fun hm => h (.entry he hm)
    rw [expand_plain hread, expandPlain, expandEntries_eq_self hself]
    rfl
  | _ =>
    rw [expand_plain rfl, expandPlain_scalar (by simp) (by simp) (by simp)]
    rfl

/-- A section like that is left as it is. -/
theorem expandSection_of_unmarked (hplain : holdsOperators v = false) (h : ¬Marked v) :
    expandSection document v = .ok v := by
  have hself : expand document [] v = .ok [v] := expand_of_unmarked hplain h
  rw [expandSection, expandSlot_eq_self (Operator.read?_of_plain hplain) hself]
  rfl

end WorkloadSpec
