import WorkloadSpec.Proofs.Mentions
import WorkloadSpec.Proofs.OperatorForms
import WorkloadSpec.Proofs.TemplateLanguage

/-!
Items of a sequence by loop and by index. A reference to a sequence can be gone over, with a name
bound to each item, or be written on with the number of an item. From the item on the two go the
same way, and what they find is guarded alike, so a loop over the sequence yields what the
indexed references find, item by item. The marks around the reference that a loop goes over
change nothing.
-/
namespace WorkloadSpec

open Template

namespace Numeral

theorem digit?_of_isDigit {c : Char} (h : c.isDigit = true) :
    digit? 10 c = some (c.toNat - '0'.toNat) := by
  have hbounds : '0' ≤ c ∧ c ≤ '9' :=
    (Bool.and_eq_true_iff.1 h).imp of_decide_eq_true of_decide_eq_true
  have hlow : 48 ≤ c.toNat ∧ c.toNat ≤ 57 :=
    (Bool.and_eq_true_iff.1 h).imp of_decide_eq_true of_decide_eq_true
  have hlt : c.toNat - '0'.toNat < 10 := by
    change c.toNat - 48 < 10
    omega
  rw [digit?, if_pos hbounds, if_pos hlt]

theorem foldlM_digits {cs : List Char} (h : ∀ c ∈ cs, c.isDigit = true) (n : Nat) :
    cs.foldlM (fun n c => (digit? 10 c).map (n * 10 + ·)) n = some (Nat.ofDigitChars 10 cs n) := by
  induction cs generalizing n with
  | nil => rfl
  | cons c cs ih =>
    obtain ⟨hc, hcs⟩ := List.forall_mem_cons.1 h
    rw [List.foldlM_cons, digit?_of_isDigit hc, Nat.ofDigitChars_cons, Nat.mul_comm]
    exact ih hcs _

/-- A number is read from its decimal digits. -/
theorem natural?_toString (n : Nat) : natural? 10 (toString n).toList = some n := by
  have hdigits : ∀ c ∈ Nat.toDigits 10 n, c.isDigit = true := fun c hc =>
    Nat.isDigit_of_mem_toDigits (by decide) (by decide) hc
  have hne : ¬(Nat.toDigits 10 n).isEmpty = true := by simp
  rw [Nat.toString_eq_repr, Nat.toList_repr, natural?, if_neg hne, foldlM_digits hdigits,
    Nat.ofDigitChars_ten_toDigits]

theorem isWord_toString (n : Nat) : isWord (toString n).toList = true := by
  have hne : (Nat.toDigits 10 n).isEmpty = false := by simp
  rw [Nat.toString_eq_repr, Nat.toList_repr, isWord, hne]
  refine List.all_eq_true.2 fun c hc => ?_
  have hdigit := Nat.isDigit_of_mem_toDigits (by decide) (by decide) hc
  rw [isWordChar_iff, Char.isAlphanum, hdigit, Bool.or_true]
  exact .inl rfl

end Numeral

namespace Text

theorem trimList_append {before cs after : List Char} (hbefore : ∀ c ∈ before, isBlank c = true)
    (hafter : ∀ c ∈ after, isBlank c = true)
    (hfirst : ∀ c, (cs ++ after).head? = some c → isBlank c = false)
    (hlast : ∀ c, cs.reverse.head? = some c → isBlank c = false) :
    trimList (before ++ (cs ++ after)) = cs := by
  have hafter : ∀ c ∈ after.reverse, isBlank c = true := fun c hc =>
    hafter c (List.mem_reverse.1 hc)
  rw [trimList, dropWhile_append_of_head hbefore hfirst, List.reverse_append,
    dropWhile_append_of_head hafter hlast, List.reverse_reverse]

theorem trimList_eq_self {cs : List Char} (hfirst : ∀ c, cs.head? = some c → isBlank c = false)
    (hlast : ∀ c, cs.reverse.head? = some c → isBlank c = false) : trimList cs = cs := by
  have hnone : ∀ c ∈ [], isBlank c = true := List.forall_mem_nil _
  have h := trimList_append hnone hnone (fun c hc => hfirst c (List.append_nil cs ▸ hc)) hlast
  rwa [List.append_nil, List.nil_append] at h

end Text

namespace Reference

def text (r : Reference) : String := String.ofList r.written

/-- The reference in double braces, with a blank on either side. -/
def marked (r : Reference) : String := String.ofList (Marker.written ⟨[' '], r, [' ']⟩)

/-- The reference that goes on with the number of an item, and with more names. -/
def item (r : Reference) (i : Nat) (rest : List String) : Reference :=
  ⟨r.head, r.path ++ toString i :: rest⟩

variable {document : Mapping} {scope : Scope} {r : Reference} {rest : List String} {i : Nat}
  {items : List Value} {v : Value} {name : String}

theorem Dotted.item (h : r.Dotted) (hrest : ∀ name ∈ rest, isWord name.toList = true) :
    (r.item i rest).Dotted where
  head := h.head
  path := List.forall_mem_append.2 ⟨h.path,
    List.forall_mem_cons.2 ⟨Numeral.isWord_toString i, hrest⟩⟩

/-- The number leads to the item at that place. -/
theorem find?_item (h : r.find? document scope = some (.seq items)) :
    (r.item i rest).find? document scope = items[i]? >>= rest.foldlM enter? := by
  have hindex : enter? (.seq items) (toString i) = items[i]? := by
    rw [enter?, Numeral.natural?_toString, Option.bind_some]
  unfold find? at h ⊢
  obtain ⟨u, hroot, hpath⟩ := Option.bind_eq_some_iff.1 h
  change (root? document scope r.head).bind ((r.path ++ toString i :: rest).foldlM enter?) = _
  rw [hroot, Option.bind_some, List.foldlM_append, hpath]
  change List.foldlM enter? (.seq items) (toString i :: rest) = _
  rw [List.foldlM_cons, hindex]

/-- From a bound name the way goes on as from the item that is bound to it. -/
theorem find?_bound (item : Value) : (Reference.mk name rest).find? document
    ((name, item) :: scope) = rest.foldlM enter? item := by
  rw [find?_bind, if_pos rfl]

/-- What an indexed reference points at is what the same names lead to from the bound item. -/
theorem pointsAt_item_iff (h : r.find? document scope = some (.seq items)) :
    (r.item i rest).PointsAt document scope v ↔ ∃ item, items[i]? = some item ∧
      (Reference.mk name rest).PointsAt document ((name, item) :: scope) v := by
  constructor
  · rintro ⟨hfound, hplain⟩
    rw [find?_item h] at hfound
    obtain ⟨item, hitem, hrest⟩ := Option.bind_eq_some_iff.1 hfound
    exact ⟨item, hitem, (find?_bound item).trans hrest, hplain⟩
  · rintro ⟨item, hitem, hfound, hplain⟩
    rw [find?_bound] at hfound
    refine ⟨?_, hplain⟩
    rw [find?_item h, hitem]
    exact hfound

/-- No character of a reference is a blank. -/
theorem not_isBlank_of_mem_written (h : r.Dotted) {c : Char} (hc : c ∈ r.written) :
    Text.isBlank c = false := by
  have hbounds := toNat_of_isReferenceChar (isReferenceChar_of_mem_written h c hc)
  refine eq_false_of_ne_true fun hblank => ?_
  simp only [Text.isBlank, Bool.or_eq_true, Bool.and_eq_true, decide_eq_true_eq,
    beq_iff_eq] at hblank
  omega

theorem bare_text (h : r.Dotted) : bare r.text = r.text := by
  have htrim : Text.trimList r.written = r.written :=
    Text.trimList_eq_self (fun c hc => not_isBlank_of_mem_written h (List.mem_of_head? hc))
      fun c hc => not_isBlank_of_mem_written h (List.mem_reverse.1 (List.mem_of_head? hc))
  rw [bare, text, String.toList_ofList, htrim]
  split
  · next hbraces =>
    have hbrace := isReferenceChar_of_mem_written h '\x7b' (hbraces ▸ List.mem_cons_self)
    exact absurd hbrace (by decide)
  · rfl

/-- The marks are taken off with the blanks in them. -/
theorem bare_marked (h : r.Dotted) : bare r.marked = r.text := by
  let inner := [' '] ++ (r.written ++ [' '])
  let outer := '\x7b' :: '\x7b' :: (inner ++ ['\x7d', '\x7d'])
  have hmarked : r.marked.toList = outer := by
    simp [marked, Marker.written, outer, inner]
  have houter : Text.trimList outer = outer := by
    refine Text.trimList_eq_self (fun c hc => ?_) fun c hc => ?_
    · obtain rfl := Option.some.inj hc
      decide
    · rw [List.reverse_cons, List.reverse_cons, List.reverse_append] at hc
      obtain rfl := Option.some.inj hc
      decide
  have hinner : Text.trimList inner = r.written := by
    have hblank : ∀ c ∈ [' '], Text.isBlank c = true := List.forall_mem_singleton.2 rfl
    refine Text.trimList_append hblank hblank (fun c hc => ?_) fun c hc => ?_
    · obtain ⟨d, ds, hd⟩ := exists_written_eq_cons h
      rw [hd] at hc
      obtain rfl := Option.some.inj hc
      exact not_isBlank_of_mem_written h (hd ▸ List.mem_cons_self)
    · exact not_isBlank_of_mem_written h (List.mem_reverse.1 (List.mem_of_head? hc))
  have hclosed : ['\x7d', '\x7d'].isSuffixOf (inner ++ ['\x7d', '\x7d']) = true :=
    List.isSuffixOf_iff_suffix.2 (List.suffix_append _ _)
  have htake : (inner ++ ['\x7d', '\x7d']).take ((inner ++ ['\x7d', '\x7d']).length - 2) =
      inner := by
    rw [List.length_append]
    exact List.take_left
  rw [bare, hmarked, houter]
  change (if ['\x7d', '\x7d'].isSuffixOf (inner ++ ['\x7d', '\x7d']) then
    String.ofList (Text.trimList ((inner ++ ['\x7d', '\x7d']).take
      ((inner ++ ['\x7d', '\x7d']).length - 2))) else _) = _
  rw [if_pos hclosed, htake, hinner, text]

/-- A text that is nothing but a marker yields what its reference points at. -/
theorem expand_marked (h : r.Dotted) {ws : List Value} :
    expand document scope (.str r.marked) = .ok ws ↔
      ∃ v, r.PointsAt document scope v ∧ ws = [v] := by
  have hblank : IsBlank [' '] := List.forall_mem_singleton.2 rfl
  have hm : (⟨[' '], r, [' ']⟩ : Marker).WellFormed := ⟨hblank, h, hblank⟩
  have hnone : IsBlank [] := List.forall_mem_nil _
  have hpieces : (Pieces.marked [] ⟨[' '], r, [' ']⟩ (.last [])).WellFormed :=
    Pieces.wellFormed_of_whole hm hnone hnone
  have htemplate : Template.ofString r.marked =
      (Pieces.marked [] ⟨[' '], r, [' ']⟩ (.last [])).toTemplate := by
    have hsplit := Pieces.split_written hpieces
    rw [Pieces.written, Pieces.written, List.nil_append, List.append_nil] at hsplit
    rw [Template.ofString, marked, String.toList_ofList, hsplit]
  have hwhole := Pieces.whole?_eq_some ⟨[' '], r, [' ']⟩ hnone hnone
  rw [expand_plain rfl, expandPlain, htemplate, render_of_whole hwhole, Outcome.map_eq_ok]
  simp only [resolveReference_written h, eq_comm]

end Reference

variable {document : Mapping} {scope : Scope} {p : Reference} {x : String} {q : List String}
  {loop v : Value} {items ws : List Value}

/-- Results that are found one for each item can be listed. -/
theorem exists_forall₂_iff {α β : Type} {R : α → β → Prop} {xs : List α} :
    (∃ ys, List.Forall₂ R xs ys) ↔ ∀ x ∈ xs, ∃ y, R x y := by
  induction xs with
  | nil => exact ⟨fun _ => List.forall_mem_nil _, fun _ => ⟨[], .nil⟩⟩
  | cons x xs ih =>
    rw [List.forall_mem_cons, ← ih]
    constructor
    · rintro ⟨ys, h⟩
      obtain ⟨y, ys, hy, hys, rfl⟩ := List.forall₂_cons_left_iff.1 h
      exact ⟨⟨y, hy⟩, ys, hys⟩
    · rintro ⟨⟨y, hy⟩, ys, hys⟩
      exact ⟨y :: ys, .cons hy hys⟩

/-- Lists correspond item by item just when they do place by place. -/
theorem forall₂_iff_getElem? {α β : Type} {R : α → β → Prop} {xs : List α} {ys : List β} :
    List.Forall₂ R xs ys ↔ ys.length = xs.length ∧
      ∀ (i : Nat) y, ys[i]? = some y → ∃ x, xs[i]? = some x ∧ R x y := by
  rw [List.forall₂_iff_get]
  constructor
  · rintro ⟨hlength, h⟩
    refine ⟨hlength.symm, fun i y hy => ?_⟩
    obtain ⟨hi, rfl⟩ := List.getElem?_eq_some_iff.1 hy
    exact ⟨_, List.getElem?_eq_getElem (hlength ▸ hi), h i (hlength ▸ hi) hi⟩
  · rintro ⟨hlength, h⟩
    refine ⟨hlength.symm, fun i hx hy => ?_⟩
    obtain ⟨x, hfound, hr⟩ := h i _ (List.getElem?_eq_getElem hy)
    obtain ⟨_, rfl⟩ := List.getElem?_eq_some_iff.1 hfound
    exact hr

/-- Yields of one value each are those values, one after the other. -/
theorem forall₂_flatten_iff {α β : Type} {R : α → β → Prop} {xs : List α} {ys : List β} :
    (∃ yss, List.Forall₂ (fun x zs => ∃ y, R x y ∧ zs = [y]) xs yss ∧ yss.flatten = ys) ↔
      List.Forall₂ R xs ys := by
  constructor
  · rintro ⟨yss, h, rfl⟩
    induction h with
    | nil => exact .nil
    | cons hx _ ih =>
      obtain ⟨y, hy, rfl⟩ := hx
      exact .cons hy ih
  · intro h
    refine ⟨ys.map ([·]), ?_, ?_⟩
    · rw [List.forall₂_map_right_iff]
      exact h.imp fun x y hy => ⟨y, hy, rfl⟩
    · rw [← List.flatMap_def, List.flatMap_singleton']

theorem iterable_of_resolveReference {s : String}
    (h : resolveReference document scope (Reference.bare s) = .ok (.seq items)) :
    iterable document scope (.str s) = .ok items := by
  rw [iterable, h]
  rfl

/-- A loop over data yields what the bound name leads to, item by item. -/
theorem expand_loop_eq_ok (hx : isBinding x.toList = true)
    (hq : ∀ name ∈ q, isWord name.toList = true) {s : String}
    (hloop : Operator.read? loop = .ok (some (.loop x (.str s) (.str (Reference.marked ⟨x, q⟩)))))
    (hfound : resolveReference document scope (Reference.bare s) = .ok (.seq items)) :
    expand document scope loop = .ok ws ↔ List.Forall₂ (fun item w =>
      (Reference.mk x q).PointsAt document ((x, item) :: scope) w) items ws := by
  have hdotted : (Reference.mk x q).Dotted := ⟨hx, hq⟩
  have hbody : ∀ item us, expand document ((x, item) :: scope) (.str (Reference.marked ⟨x, q⟩)) =
      .ok us ↔ ∃ w, (Reference.mk x q).PointsAt document ((x, item) :: scope) w ∧ us = [w] :=
    fun item us => Reference.expand_marked hdotted
  rw [expand_loop hloop, iterable_of_resolveReference hfound, ← forall₂_flatten_iff]
  change (items.mapM _ >>= fun yields => pure yields.flatten) = Except.ok ws ↔ _
  simp only [Outcome.bind_eq_ok, Outcome.mapM_eq_ok, Outcome.pure_eq_ok, hbody]

/-- An indexed marker yields what the bound name leads to from the item at that place. -/
theorem expand_item_eq_ok (hp : p.Dotted) (hq : ∀ name ∈ q, isWord name.toList = true)
    (hfound : p.find? document scope = some (.seq items)) {i : Nat} {w : Value} :
    expand document scope (.str (p.item i q).marked) = .ok [w] ↔
      ∃ item, items[i]? = some item ∧
        (Reference.mk x q).PointsAt document ((x, item) :: scope) w := by
  rw [Reference.expand_marked (hp.item hq), ← Reference.pointsAt_item_iff hfound]
  simp only [List.cons.injEq, and_true, exists_eq_right']

/-- A loop over a sequence that a reference leads to agrees with the references to its items:
it yields values just when each of them does, and then the same ones in the order of the items.
Whether the reference that is gone over stands in double braces makes no difference. -/
theorem loop_agrees_with_indices (hp : p.Dotted) (hq : ∀ name ∈ q, isWord name.toList = true)
    (hloop : Operator.read? loop =
      .ok (some (.loop x (.str p.text) (.str (Reference.marked ⟨x, q⟩))))) :
    (∀ items, resolveReference document scope p.text = .ok (.seq items) →
      ((∃ ws, expand document scope loop = .ok ws) ↔ ∀ i < items.length,
        ∃ us, expand document scope (.str (p.item i q).marked) = .ok us) ∧
      ∀ ws, expand document scope loop = .ok ws ↔ ws.length = items.length ∧
        ∀ (i : Nat) w, ws[i]? = some w →
          expand document scope (.str (p.item i q).marked) = .ok [w]) ∧
    ∀ binding body plain other,
      Operator.read? plain = .ok (some (.loop binding (.str p.text) body)) →
      Operator.read? other = .ok (some (.loop binding (.str p.marked) body)) →
      expand document scope other = expand document scope plain := by
  obtain ⟨_, -, hentries⟩ := Operator.read?_eq_loop.1 hloop
  have hx := isBinding_iff.2 hentries.isName
  refine ⟨fun items hresolve => ?_, fun binding body plain other hplain hother => ?_⟩
  · have hfound := ((resolveReference_written hp).1 hresolve).found
    have hrounds : ∀ ws, expand document scope loop = .ok ws ↔ List.Forall₂ (fun item w =>
        (Reference.mk x q).PointsAt document ((x, item) :: scope) w) items ws := fun ws =>
      expand_loop_eq_ok hx hq hloop (by rw [Reference.bare_text hp, hresolve])
    constructor
    · simp only [hrounds, exists_forall₂_iff]
      constructor
      · intro h i hi
        obtain ⟨w, hw⟩ := h items[i] (List.getElem_mem hi)
        exact ⟨[w], (expand_item_eq_ok hp hq hfound).2 ⟨_, List.getElem?_eq_getElem hi, hw⟩⟩
      · intro h item hmem
        obtain ⟨i, hi, rfl⟩ := List.mem_iff_getElem.1 hmem
        obtain ⟨us, hus⟩ := h i hi
        obtain ⟨w, -, rfl⟩ := (Reference.expand_marked (hp.item hq)).1 hus
        obtain ⟨item, hitem, hw⟩ := (expand_item_eq_ok hp hq hfound).1 hus
        obtain ⟨_, rfl⟩ := List.getElem?_eq_some_iff.1 hitem
        exact ⟨w, hw⟩
    · intro ws
      simp only [hrounds, forall₂_iff_getElem?, expand_item_eq_ok (x := x) hp hq hfound]
  · rw [expand_loop hother, expand_loop hplain, iterable, iterable, Reference.bare_marked hp,
      Reference.bare_text hp]

/-- Hosts of a cluster, one of which is named by a number. -/
def fleet : Mapping :=
  [("clusters", .seq [.map [("hosts", .seq [.map [("name", .str "a")], .map [("name", .int 7)]])]])]

/-- A loop that binds the name which the sequence is found by. -/
def hostNames : Value :=
  .map [("for", .str "clusters"), ("in", .str "clusters.0.hosts"),
    ("do", .str "\x7b\x7b clusters.name \x7d\x7d")]

/-- Within the loop the bound name is meant, and around it the section. -/
theorem loop_agrees_with_indices_hostNames :
    resolveReference fleet [] "clusters.0.hosts" =
      .ok (.seq [.map [("name", .str "a")], .map [("name", .int 7)]]) ∧
    expand fleet [] (.str "\x7b\x7b clusters.0.hosts.0.name \x7d\x7d") = .ok [.str "a"] ∧
    expand fleet [] (.str "\x7b\x7b clusters.0.hosts.1.name \x7d\x7d") = .ok [.int 7] ∧
    expand fleet [] hostNames = .ok [.str "a", .int 7] := by
  have hp : (Reference.mk "clusters" ["0", "hosts"]).Dotted := ⟨by decide, by decide⟩
  have hresolve : resolveReference fleet [] "clusters.0.hosts" =
      .ok (.seq [.map [("name", .str "a")], .map [("name", .int 7)]]) := rfl
  have hfirst : expand fleet [] (.str "\x7b\x7b clusters.0.hosts.0.name \x7d\x7d") =
      .ok [.str "a"] := by
    rw [expand_plain rfl, expandPlain]
    rfl
  have hsecond : expand fleet [] (.str "\x7b\x7b clusters.0.hosts.1.name \x7d\x7d") =
      .ok [.int 7] := by
    rw [expand_plain rfl, expandPlain]
    rfl
  have hloop : Operator.read? hostNames = .ok (some (.loop "clusters"
      (.str (Reference.mk "clusters" ["0", "hosts"]).text)
      (.str (Reference.mk "clusters" ["name"]).marked))) := rfl
  obtain ⟨hitems, -⟩ := loop_agrees_with_indices hp (by decide) hloop
  obtain ⟨-, hyields⟩ := hitems _ hresolve
  refine ⟨hresolve, hfirst, hsecond, (hyields _).2 ⟨rfl, fun i w hw => ?_⟩⟩
  rcases i with _ | _ | i
  · obtain rfl := Option.some.inj hw
    exact hfirst
  · obtain rfl := Option.some.inj hw
    exact hsecond
  · cases hw

end WorkloadSpec
