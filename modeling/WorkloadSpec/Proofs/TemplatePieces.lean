import Mathlib.Data.List.TakeWhile
import WorkloadSpec.Proofs.References
import WorkloadSpec.Proofs.Unmarked

/-!
Texts cut up into literal pieces with markers between them. A marker is a reference in double
braces, with blanks around it, and no literal piece has double braces that open. What is read
of a text from its left end are these pieces, and there is one way at most to cut it up.
-/
namespace WorkloadSpec.Template

/-- Nothing but white space of ASCII. -/
def IsBlank (cs : List Char) : Prop := ∀ c ∈ cs, Text.isAsciiBlank c = true

/-- A marker as it is written. -/
structure Marker where
  before : List Char
  reference : Reference
  after : List Char

namespace Marker

def written (m : Marker) : List Char :=
  '\x7b' :: '\x7b' :: (m.before ++ (m.reference.written ++ (m.after ++ ['\x7d', '\x7d'])))

structure WellFormed (m : Marker) : Prop where
  before : IsBlank m.before
  reference : m.reference.Dotted
  after : IsBlank m.after

end Marker

/-- A text that is cut up into literal pieces with markers between them. -/
inductive Pieces where
  | last (cs : List Char)
  | marked (cs : List Char) (m : Marker) (rest : Pieces)

namespace Pieces

def written : Pieces → List Char
  | last cs => cs
  | marked cs m rest => cs ++ (m.written ++ rest.written)

def literals : Pieces → List (List Char)
  | last cs => [cs]
  | marked cs _ rest => cs :: rest.literals

def markers : Pieces → List Marker
  | last _ => []
  | marked _ m rest => m :: rest.markers

structure WellFormed (p : Pieces) : Prop where
  literals : ∀ cs ∈ p.literals, ¬HasBraces cs
  markers : ∀ m ∈ p.markers, m.WellFormed

/-- One marker, and nothing but blanks around it. -/
def IsWhole : Pieces → Prop
  | marked before _ (last after) => IsBlank before ∧ IsBlank after
  | _ => False

/-- The text with the data of its references in the place of the markers. -/
def filled (data : Reference → Value) : Pieces → List Char
  | last cs => cs
  | marked cs m rest => cs ++ ((dataText (data m.reference)).toList ++ rest.filled data)

/-- The template that the pieces are read as: blanks within markers are forgotten. -/
def toTemplate : Pieces → Template
  | last cs => ⟨cs, []⟩
  | marked cs m rest =>
    ⟨cs, (String.ofList m.reference.written, rest.toTemplate.lead) :: rest.toTemplate.markers⟩

/-- One more character in front of the first literal piece. -/
def prepend (c : Char) : Pieces → Pieces
  | last cs => last (c :: cs)
  | marked cs m rest => marked (c :: cs) m rest

variable {p q : Pieces}

theorem written_prepend (c : Char) : (p.prepend c).written = c :: p.written := by
  cases p <;> rfl

theorem markers_prepend (c : Char) : (p.prepend c).markers = p.markers := by
  cases p <;> rfl

theorem toTemplate_prepend (c : Char) :
    (p.prepend c).toTemplate = ⟨c :: p.toTemplate.lead, p.toTemplate.markers⟩ := by
  cases p <;> rfl

theorem WellFormed.rest {cs : List Char} {m : Marker} (h : (marked cs m p).WellFormed) :
    p.WellFormed where
  literals ds hds := h.literals ds (List.mem_cons_of_mem cs hds)
  markers n hn := h.markers n (List.mem_cons_of_mem m hn)

end Pieces

/-! Where a run of characters of one class ends is seen from the character after it. -/

section Runs

variable {p : Char → Bool} {cs ds rest more : List Char}

theorem takeWhile_append_of_head (h : ∀ c ∈ cs, p c = true)
    (hrest : ∀ c, rest.head? = some c → p c = false) : (cs ++ rest).takeWhile p = cs := by
  have hnone : rest.takeWhile p = [] := by
    cases rest with
    | nil => rfl
    | cons c rest => exact List.takeWhile_cons_of_neg (by simp [hrest c rfl])
  rw [List.takeWhile_append_of_pos h, hnone, List.append_nil]

theorem dropWhile_append_of_head (h : ∀ c ∈ cs, p c = true)
    (hrest : ∀ c, rest.head? = some c → p c = false) : (cs ++ rest).dropWhile p = rest := by
  rw [List.dropWhile_append_of_pos h]
  cases rest with
  | nil => rfl
  | cons c rest => exact List.dropWhile_cons_of_neg (by simp [hrest c rfl])

/-- Two texts that begin with runs of one class agree on the runs and on what follows. -/
theorem append_inj_of_head (hcs : ∀ c ∈ cs, p c = true) (hds : ∀ c ∈ ds, p c = true)
    (hrest : ∀ c, rest.head? = some c → p c = false)
    (hmore : ∀ c, more.head? = some c → p c = false) (h : cs ++ rest = ds ++ more) :
    cs = ds ∧ rest = more := by
  have hrun : cs = ds := by
    rw [← takeWhile_append_of_head hcs hrest, h, takeWhile_append_of_head hds hmore]
  have htail : rest = more := by
    rw [← dropWhile_append_of_head hcs hrest, h, dropWhile_append_of_head hds hmore]
  exact ⟨hrun, htail⟩

end Runs

/-- The characters of references: those of names, and dots. -/
abbrev isReferenceChar (c : Char) : Bool := isWordChar c || c == '.'

theorem toNat_of_isReferenceChar {c : Char} (h : isReferenceChar c = true) :
    46 ≤ c.toNat ∧ c.toNat ≤ 122 := by
  rcases Bool.or_eq_true_iff.1 h with h | h
  · have hbounds := toNat_of_isWordChar h
    omega
  · obtain rfl := eq_of_beq h
    decide

theorem toNat_of_isAsciiBlank {c : Char} (h : Text.isAsciiBlank c = true) : c.toNat ≤ 32 := by
  simp only [Text.isAsciiBlank, Bool.or_eq_true, Bool.and_eq_true, decide_eq_true_eq,
    beq_iff_eq] at h
  omega

theorem isAsciiBlank_of_isReferenceChar {c : Char} (h : isReferenceChar c = true) :
    Text.isAsciiBlank c = false := by
  refine eq_false_of_ne_true fun hblank => ?_
  have hlow := toNat_of_isAsciiBlank hblank
  have hhigh := toNat_of_isReferenceChar h
  omega

theorem isReferenceChar_of_isAsciiBlank {c : Char} (h : Text.isAsciiBlank c = true) :
    isReferenceChar c = false := by
  refine eq_false_of_ne_true fun hreference => ?_
  rw [isAsciiBlank_of_isReferenceChar hreference] at h
  cases h

theorem IsBlank.not_hasBraces {cs : List Char} (h : IsBlank cs) : ¬HasBraces cs := by
  intro hbraces
  have hbrace : '\x7b' ∈ cs := hbraces.subset List.mem_cons_self
  exact absurd (h _ hbrace) (by decide)

/-- A reference is written in characters of references, the first of them no blank. -/
theorem isReferenceChar_of_mem_written {r : Reference} (h : r.Dotted) :
    ∀ c ∈ r.written, isReferenceChar c = true := by
  have hword : ∀ {cs : List Char}, isWord cs = true → ∀ c ∈ cs, isReferenceChar c = true := by
    intro cs hcs c hc
    have hchar := List.all_eq_true.1 (Bool.and_eq_true_iff.1 hcs).2 c hc
    exact Bool.or_eq_true_iff.2 (Or.inl hchar)
  intro c hc
  rcases List.mem_append.1 hc with hc | hc
  · exact hword (Reference.isWord_of_isBinding h.head) c hc
  · obtain ⟨name, hname, hc⟩ := List.mem_flatMap.1 hc
    rcases List.mem_cons.1 hc with rfl | hc
    · decide
    · exact hword (h.path name hname) c hc

theorem exists_written_eq_cons {r : Reference} (h : r.Dotted) : ∃ c cs, r.written = c :: cs := by
  have hhead := (Bool.and_eq_true_iff.1 (Reference.isWord_of_isBinding h.head)).1
  cases hchars : r.head.toList with
  | nil =>
    rw [hchars] at hhead
    cases hhead
  | cons c cs =>
    refine ⟨c, cs ++ r.path.flatMap fun name => '.' :: name.toList, ?_⟩
    rw [Reference.written, hchars]
    rfl

namespace Marker

variable {m n : Marker} {rest more : List Char}

theorem written_append (m : Marker) (rest : List Char) :
    m.written ++ rest = '\x7b' :: '\x7b' ::
      (m.before ++ (m.reference.written ++ (m.after ++ '\x7d' :: '\x7d' :: rest))) := by
  simp [written]

/-- After the blanks in front the reference begins. -/
theorem WellFormed.head_reference (h : m.WellFormed) :
    ∀ c, (m.reference.written ++ more).head? = some c → Text.isAsciiBlank c = false := by
  intro c hc
  obtain ⟨d, ds, hd⟩ := exists_written_eq_cons h.reference
  rw [hd] at hc
  obtain rfl := Option.some.inj hc
  refine isAsciiBlank_of_isReferenceChar (isReferenceChar_of_mem_written h.reference d ?_)
  rw [hd]
  exact List.mem_cons_self

/-- After the reference there are blanks or the closing braces. -/
theorem WellFormed.head_after (h : m.WellFormed) :
    ∀ c, (m.after ++ '\x7d' :: more).head? = some c → isReferenceChar c = false := by
  intro c hc
  have hafter := h.after
  cases hcs : m.after with
  | nil =>
    rw [hcs] at hc
    obtain rfl := Option.some.inj hc
    decide
  | cons d ds =>
    rw [hcs] at hc hafter
    obtain rfl := Option.some.inj hc
    exact isReferenceChar_of_isAsciiBlank (hafter d List.mem_cons_self)

theorem head_close : ∀ c, ('\x7d' :: more).head? = some c → Text.isAsciiBlank c = false := by
  intro c hc
  obtain rfl := Option.some.inj hc
  decide

/-- A marker at the front of a text is read, whatever follows it. -/
theorem marker?_written (h : m.WellFormed) (rest : List Char) :
    marker? (m.written ++ rest) =
      some (String.ofList m.reference.written, m.written.length) := by
  have hread := Reference.ofList?_eq_some_iff.2 ⟨h.reference, rfl⟩
  have hreference := isReferenceChar_of_mem_written h.reference
  rw [written_append, marker?, takeWhile_append_of_head h.before h.head_reference,
    dropWhile_append_of_head h.before h.head_reference,
    takeWhile_append_of_head hreference h.head_after,
    dropWhile_append_of_head hreference h.head_after,
    takeWhile_append_of_head h.after head_close, dropWhile_append_of_head h.after head_close,
    hread, Option.map_some]
  simp only [written, List.length_cons, List.length_append, List.length_nil]
  congr 2
  omega

/-- What is read as a marker is the text of one. -/
theorem exists_of_marker? {cs : List Char} {x : String × Nat} (h : marker? cs = some x) :
    ∃ m : Marker, m.WellFormed ∧ ∃ rest, cs = m.written ++ rest := by
  unfold marker? at h
  split at h
  · next cs =>
    dsimp only at h
    split at h
    · next rest hclose =>
      obtain ⟨r, hr, -⟩ := Option.map_eq_some_iff.1 h
      obtain ⟨hdotted, hwritten⟩ := Reference.ofList?_eq_some_iff.1 hr
      let before := cs.takeWhile Text.isAsciiBlank
      let after := ((cs.dropWhile Text.isAsciiBlank).dropWhile isReferenceChar).takeWhile
        Text.isAsciiBlank
      refine ⟨⟨before, r, after⟩, ⟨fun c hc => List.mem_takeWhile_imp hc, hdotted,
        fun c hc => List.mem_takeWhile_imp hc⟩, rest, ?_⟩
      rw [written_append, hwritten, ← hclose, List.takeWhile_append_dropWhile,
        List.takeWhile_append_dropWhile, List.takeWhile_append_dropWhile]
    · cases h
  · cases h

/-- Texts that begin with markers agree on the markers and on what follows them. -/
theorem append_inj (hm : m.WellFormed) (hn : n.WellFormed)
    (h : m.written ++ rest = n.written ++ more) : m = n ∧ rest = more := by
  rw [written_append, written_append] at h
  have hbody := (List.cons.inj (List.cons.inj h).2).2
  obtain ⟨hbefore, htail⟩ := append_inj_of_head hm.before hn.before hm.head_reference
    hn.head_reference hbody
  obtain ⟨hwritten, htail⟩ := append_inj_of_head (isReferenceChar_of_mem_written hm.reference)
    (isReferenceChar_of_mem_written hn.reference) hm.head_after hn.head_after htail
  obtain ⟨hafter, htail⟩ := append_inj_of_head hm.after hn.after head_close head_close htail
  have hreference : m.reference = n.reference := by
    have hm' := Reference.ofList?_eq_some_iff.2 ⟨hm.reference, rfl⟩
    have hn' := Reference.ofList?_eq_some_iff.2 ⟨hn.reference, rfl⟩
    rw [hwritten] at hm'
    exact Option.some.inj (hm'.symm.trans hn')
  refine ⟨?_, (List.cons.inj (List.cons.inj htail).2).2⟩
  cases m
  cases n
  simp only [mk.injEq]
  exact ⟨hbefore, hreference, hafter⟩

end Marker

/-- Three braces that open are no marker: it would begin with the second. -/
theorem marker?_of_three_braces (cs : List Char) :
    marker? ('\x7b' :: '\x7b' :: '\x7b' :: cs) = none := by
  cases h : marker? ('\x7b' :: '\x7b' :: '\x7b' :: cs) with
  | none => rfl
  | some x =>
    obtain ⟨m, hm, rest, hcs⟩ := Marker.exists_of_marker? h
    rw [Marker.written_append] at hcs
    have hbrace := (List.cons.inj (List.cons.inj hcs).2).2
    cases hbefore : m.before with
    | nil =>
      obtain ⟨c, ds, hc⟩ := exists_written_eq_cons hm.reference
      rw [hbefore, hc] at hbrace
      obtain ⟨rfl, -⟩ := List.cons.inj hbrace
      have hchar := isReferenceChar_of_mem_written hm.reference _ (hc ▸ List.mem_cons_self)
      exact absurd hchar (by decide)
    | cons c ds =>
      rw [hbefore] at hbrace
      obtain ⟨rfl, -⟩ := List.cons.inj hbrace
      exact absurd (hm.before _ (hbefore ▸ List.mem_cons_self)) (by decide)

/-- No marker begins within a literal piece, be it with the help of what follows. -/
theorem marker?_literal {c : Char} {cs rest : List Char} (h : ¬HasBraces (c :: cs))
    (hrest : rest = [] ∨ ∃ more, rest = '\x7b' :: '\x7b' :: more) :
    marker? (c :: (cs ++ rest)) = none := by
  rcases hrest with rfl | ⟨more, rfl⟩
  · rw [List.append_nil]
    exact marker?_eq_none h
  · cases cs with
    | nil =>
      by_cases hc : c = '\x7b'
      · subst hc
        exact marker?_of_three_braces more
      · unfold marker?
        split
        · next heq => exact absurd (List.cons.inj heq).1 hc
        · rfl
    | cons d ds =>
      unfold marker?
      split
      · next heq =>
        obtain ⟨hc, htail⟩ := List.cons.inj heq
        obtain ⟨hd, -⟩ := List.cons.inj htail
        rw [hc, hd] at h
        exact absurd (hasBraces_front ds) h
      · rfl

theorem split_skip (cs rest : List Char) : split cs.length (cs ++ rest) = split 0 rest := by
  induction cs with
  | nil => rfl
  | cons c cs ih =>
    rw [List.length_cons, List.cons_append, split]
    exact ih

theorem split_marker {m : Marker} (h : m.WellFormed) (rest : List Char) :
    split 0 (m.written ++ rest) =
      ⟨[], (String.ofList m.reference.written, (split 0 rest).lead) :: (split 0 rest).markers⟩ := by
  obtain ⟨cs, hcs⟩ : ∃ cs, m.written = '\x7b' :: cs := ⟨_, rfl⟩
  have hmarker := Marker.marker?_written h rest
  rw [hcs, List.cons_append] at hmarker
  rw [hcs, List.cons_append, split, hmarker]
  dsimp only
  rw [List.length_cons, Nat.add_sub_cancel, split_skip]

theorem split_literal {cs rest : List Char} (h : ¬HasBraces cs)
    (hrest : rest = [] ∨ ∃ more, rest = '\x7b' :: '\x7b' :: more) :
    split 0 (cs ++ rest) = ⟨cs ++ (split 0 rest).lead, (split 0 rest).markers⟩ := by
  induction cs with
  | nil => rfl
  | cons c cs ih =>
    have hcs : ¬HasBraces cs := fun hcs => h hcs.cons
    rw [List.cons_append, split, marker?_literal h hrest, ih hcs]
    rfl

namespace Pieces

variable {p q : Pieces}

/-- Pieces that are well formed are found again in the text. -/
theorem split_written (h : p.WellFormed) : split 0 p.written = p.toTemplate := by
  induction p with
  | last cs => exact split_of_unmarked (h.literals cs (List.mem_singleton_self cs))
  | marked cs m rest ih =>
    have hcs := h.literals cs List.mem_cons_self
    have hm := h.markers m List.mem_cons_self
    have hopen : ∃ more, m.written ++ rest.written = '\x7b' :: '\x7b' :: more :=
      ⟨_, m.written_append rest.written⟩
    rw [written, split_literal hcs (Or.inr hopen), split_marker hm, ih h.rest, List.append_nil]
    rfl

/-- Every text is cut up into pieces, of which the markers are well formed. -/
theorem exists_split_eq (cs : List Char) :
    ∃ p : Pieces, p.written = cs ∧ (∀ m ∈ p.markers, m.WellFormed) ∧
      split 0 cs = p.toTemplate := by
  induction hn : cs.length using Nat.strongRecOn generalizing cs with
  | ind n ih =>
    cases cs with
    | nil => exact ⟨last [], rfl, List.forall_mem_nil _, rfl⟩
    | cons c cs =>
      cases hmarker : marker? (c :: cs) with
      | none =>
        obtain ⟨p, hwritten, hmarkers, hsplit⟩ := ih cs.length (by simp [← hn]) cs rfl
        refine ⟨p.prepend c, ?_, ?_, ?_⟩
        · rw [written_prepend, hwritten]
        · rw [markers_prepend]
          exact hmarkers
        · rw [split, hmarker, hsplit, toTemplate_prepend]
      | some x =>
        obtain ⟨m, hm, rest, hcs⟩ := Marker.exists_of_marker? hmarker
        have hshorter : rest.length < n := by
          rw [← hn, hcs, Marker.written_append]
          simp only [List.length_cons, List.length_append]
          omega
        obtain ⟨p, hwritten, hmarkers, hsplit⟩ := ih rest.length hshorter rest rfl
        refine ⟨marked [] m p, ?_, List.forall_mem_cons.2 ⟨hm, hmarkers⟩, ?_⟩
        · rw [hcs, written, hwritten, List.nil_append]
        · rw [hcs, split_marker hm, hsplit]
          rfl

/-- A text is cut up in one way at most. -/
theorem written_injective (hp : p.WellFormed) (hq : q.WellFormed)
    (h : p.written = q.written) : p = q := by
  induction p generalizing q with
  | last cs =>
    have htemplate := (split_written hp).symm.trans (h ▸ split_written hq)
    cases q with
    | last ds => exact congrArg last h
    | marked ds n q => cases (Template.mk.inj htemplate).2
  | marked cs m p ih =>
    have htemplate := (split_written hp).symm.trans (h ▸ split_written hq)
    cases q with
    | last ds => cases (Template.mk.inj htemplate).2
    | marked ds n q =>
      obtain rfl : cs = ds := (Template.mk.inj htemplate).1
      have htail := List.append_cancel_left h
      obtain ⟨rfl, hrest⟩ := Marker.append_inj (hp.markers m List.mem_cons_self)
        (hq.markers n List.mem_cons_self) htail
      rw [ih hp.rest hq.rest hrest]

end Pieces

end WorkloadSpec.Template
