import WorkloadSpec.Operator.Reference

/-!
References as they are written: a name, then words, each after a dot. A text reads as a
reference just when it is written like that, and the reference it reads as is the one whose
text it is. What such a text resolves to is the data that the reference finds, as long as that
is free of operators.
-/
namespace WorkloadSpec

/-- The characters of names lie between the digits and the braces. -/
theorem toNat_of_isWordChar {c : Char} (h : isWordChar c = true) :
    48 ≤ c.toNat ∧ c.toNat ≤ 122 := by
  have hclasses : (((c.isUpper || c.isLower) || c.isDigit) || c == '_') = true := h
  rw [Bool.or_eq_true, Bool.or_eq_true, Bool.or_eq_true, beq_iff_eq] at hclasses
  rcases hclasses with ((hupper | hlower) | hdigit) | rfl
  · have hbounds : 65 ≤ c.toNat ∧ c.toNat ≤ 90 := of_decide_eq_true hupper
    omega
  · have hbounds : 97 ≤ c.toNat ∧ c.toNat ≤ 122 :=
      (Bool.and_eq_true_iff.1 hlower).imp of_decide_eq_true of_decide_eq_true
    omega
  · have hbounds : 48 ≤ c.toNat ∧ c.toNat ≤ 57 :=
      (Bool.and_eq_true_iff.1 hdigit).imp of_decide_eq_true of_decide_eq_true
    omega
  · decide

namespace Reference

/-- The names with dots between them. -/
def written (r : Reference) : List Char :=
  r.head.toList ++ r.path.flatMap fun name => '.' :: name.toList

/-- A reference that can be written: it begins with a binding and goes on with words. -/
structure Dotted (r : Reference) : Prop where
  head : isBinding r.head.toList = true
  path : ∀ name ∈ r.path, isWord name.toList = true

theorem not_mem_dot_of_isWord {cs : List Char} (h : isWord cs = true) : '.' ∉ cs := by
  intro hdot
  have hall := List.all_eq_true.1 (Bool.and_eq_true_iff.1 h).2 '.' hdot
  exact absurd hall (by decide)

theorem isWord_of_isBinding {cs : List Char} (h : isBinding cs = true) : isWord cs = true :=
  (Bool.and_eq_true_iff.1 h).1

theorem splitDots_ne_nil (cs : List Char) : splitDots cs ≠ [] := by
  cases cs with
  | nil => simp [splitDots]
  | cons c cs =>
    unfold splitDots
    split
    · simp
    · split <;> simp

theorem splitDots_dot (cs : List Char) : splitDots ('.' :: cs) = [] :: splitDots cs := by
  rw [splitDots]
  split
  · next h => exact absurd h (splitDots_ne_nil cs)
  · next h => rw [h, if_pos rfl]

/-- Up to a dot, or to the end, a text without dots is one piece. -/
theorem splitDots_append {cs : List Char} (h : '.' ∉ cs) {rest piece : List Char}
    {pieces : List (List Char)} (hrest : splitDots rest = piece :: pieces) :
    splitDots (cs ++ rest) = (cs ++ piece) :: pieces := by
  induction cs with
  | nil => exact hrest
  | cons c cs ih =>
    rw [List.mem_cons, not_or] at h
    rw [List.cons_append, splitDots, ih h.2]
    dsimp only
    rw [if_neg (Ne.symm h.1)]
    rfl

/-- Words with dots in front of them are split at the dots. -/
theorem splitDots_flatMap {names : List String} (h : ∀ name ∈ names, '.' ∉ name.toList) :
    splitDots (names.flatMap fun name => '.' :: name.toList) =
      [] :: names.map String.toList := by
  induction names with
  | nil => rfl
  | cons name names ih =>
    obtain ⟨hname, hnames⟩ := List.forall_mem_cons.1 h
    rw [List.flatMap_cons, List.cons_append, splitDots_dot, splitDots_append hname (ih hnames),
      List.append_nil, List.map_cons]

/-- The pieces between dots, with the dots put back. -/
theorem append_flatMap_of_splitDots {cs head : List Char} {path : List (List Char)}
    (h : splitDots cs = head :: path) : head ++ path.flatMap ('.' :: ·) = cs := by
  induction cs generalizing head path with
  | nil =>
    obtain ⟨rfl, rfl⟩ := List.cons.inj h
    rfl
  | cons c cs ih =>
    unfold splitDots at h
    split at h
    · next hnil => exact absurd hnil (splitDots_ne_nil cs)
    · next piece pieces hsplit =>
      have hjoined := ih hsplit
      split at h
      · next hdot =>
        obtain ⟨rfl, rfl⟩ := List.cons.inj h
        rw [List.nil_append, List.flatMap_cons, List.cons_append, hjoined, hdot]
      · obtain ⟨rfl, rfl⟩ := List.cons.inj h
        rw [List.cons_append, hjoined]

/-- A text reads as a reference just when it is the text of one. -/
theorem ofList?_eq_some_iff {cs : List Char} {r : Reference} :
    ofList? cs = some r ↔ r.Dotted ∧ r.written = cs := by
  constructor
  · intro h
    unfold ofList? at h
    split at h
    · cases h
    · next head path hsplit =>
      split at h
      · next hnames =>
        obtain rfl := Option.some.inj h
        obtain ⟨hhead, hpath⟩ := hnames
        refine ⟨⟨?_, ?_⟩, ?_⟩
        · rwa [String.toList_ofList]
        · intro name hname
          obtain ⟨cs, hcs, rfl⟩ := List.mem_map.1 hname
          rw [String.toList_ofList]
          exact List.all_eq_true.1 hpath cs hcs
        · have hjoined := append_flatMap_of_splitDots hsplit
          simp only [written, List.flatMap_map, String.toList_ofList]
          exact hjoined
      · cases h
  · rintro ⟨⟨hhead, hpath⟩, rfl⟩
    have hsplit : splitDots r.written = r.head.toList :: r.path.map String.toList := by
      have hdots : ∀ name ∈ r.path, '.' ∉ name.toList := fun name hname =>
        not_mem_dot_of_isWord (hpath name hname)
      have hword := not_mem_dot_of_isWord (isWord_of_isBinding hhead)
      rw [written, splitDots_append hword (splitDots_flatMap hdots), List.append_nil]
    have hwords : (r.path.map String.toList).all isWord = true := by
      rw [List.all_map]
      exact List.all_eq_true.2 hpath
    unfold ofList?
    rw [hsplit]
    dsimp only
    rw [if_pos ⟨hhead, hwords⟩, List.map_map]
    simp

theorem ofString?_written {r : Reference} (h : r.Dotted) :
    ofString? (String.ofList r.written) = some r := by
  rw [ofString?, String.toList_ofList]
  exact ofList?_eq_some_iff.2 ⟨h, rfl⟩

/-- The reference leads to data that is free of operators. -/
structure PointsAt (document : Mapping) (scope : Scope) (r : Reference) (v : Value) : Prop where
  found : r.find? document scope = some v
  plain : holdsOperators v = false

end Reference

variable {document : Mapping} {scope : Scope} {r : Reference} {v : Value}

/-- The text of a reference resolves to what the reference points at, and to nothing else. -/
theorem resolveReference_written (h : r.Dotted) :
    resolveReference document scope (String.ofList r.written) = .ok v ↔
      r.PointsAt document scope v := by
  unfold resolveReference
  rw [Reference.ofString?_written h]
  dsimp only
  constructor
  · intro hv
    split at hv
    · cases hv
    · next w hw =>
      split at hv
      · cases hv
      · next hplain =>
        obtain rfl := Except.ok.inj hv
        exact ⟨hw, eq_false_of_ne_true hplain⟩
  · rintro ⟨hfound, hplain⟩
    rw [hfound]
    dsimp only
    rw [hplain]
    rfl

end WorkloadSpec
