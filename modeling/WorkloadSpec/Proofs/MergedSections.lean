import Mathlib.Data.List.GetD
import Mathlib.Data.List.Induction
import Mathlib.Data.Nat.Find
import Mathlib.Order.Bounds.Basic
import WorkloadSpec.Proofs.Layers

/-!
Where a merged section comes from. Layers are counted from one. Of the layers that
hold a key, those after the last one that sets it to null have a say: the last of them
gives the value, the first of them the place, and without any there is no such section.
The law is kept when one more layer is laid on top, so it holds of every merge.
-/
namespace WorkloadSpec

namespace Mapping

/-- The layers of a document, from the first on; nothing else is a layer. -/
def layer (documents : List Mapping) : Nat → Mapping
  | 0 => []
  | i + 1 => documents.getD i []

/-- Whether a document sets a key to null. -/
def clears (document : Mapping) (key : String) : Bool := (document.lookup key).any Value.isNull

/-- The last layer that sets a key to null, or 0. -/
def cleared (documents : List Mapping) (key : String) : Nat :=
  Nat.findGreatest (fun i => clears (layer documents i) key) documents.length

/-- A layer has a say about a key it holds, unless it or a later one sets it to null. -/
def Counts (documents : List Mapping) (key : String) (i : Nat) : Prop :=
  cleared documents key < i ∧ key ∈ keys (layer documents i)

/-- What the layers say, taken together. -/
structure Merged (documents : List Mapping) (merged : Mapping) : Prop where
  distinct : (keys merged).Nodup
  filled : ∀ e ∈ merged, e.2 ≠ .null
  mem_keys : ∀ key, key ∈ keys merged ↔ ∃ i, Counts documents key i
  lookup : ∀ key i, IsGreatest {i | Counts documents key i} i →
    merged.lookup key = (layer documents i).lookup key
  ordered : (keys merged).Pairwise fun a b => ∀ i j,
    IsLeast {i | Counts documents a i} i → IsLeast {j | Counts documents b j} j →
      i < j ∨ i = j ∧ (keys (layer documents i)).idxOf a < (keys (layer documents i)).idxOf b

variable {documents : List Mapping} {d m base merged : Mapping} {key : String}

theorem layer_append_of_le {i : Nat} (h : i ≤ documents.length) :
    layer (documents ++ [d]) i = layer documents i := by
  cases i with
  | zero => rfl
  | succ i => exact List.getD_append documents [d] [] i h

theorem layer_append_length : layer (documents ++ [d]) (documents.length + 1) = d := by
  simp [layer]

theorem layer_of_length_lt {i : Nat} (h : documents.length < i) : layer documents i = [] := by
  cases i with
  | zero => rfl
  | succ i => exact List.getD_eq_default documents [] (Nat.lt_succ_iff.1 h)

theorem Counts.le_length {i : Nat} (h : Counts documents key i) : i ≤ documents.length := by
  by_contra hlt
  have hmem := h.2
  rw [layer_of_length_lt (Nat.lt_of_not_le hlt)] at hmem
  exact List.not_mem_nil hmem

theorem findGreatest_congr {p q : Nat → Prop} [DecidablePred p] [DecidablePred q] {n : Nat}
    (h : ∀ i ≤ n, p i ↔ q i) : Nat.findGreatest p n = Nat.findGreatest q n := by
  induction n with
  | zero => rfl
  | succ n ih =>
    rw [Nat.findGreatest_succ, Nat.findGreatest_succ, ih fun i hi => h i (Nat.le_succ_of_le hi)]
    exact if_congr (h _ (Nat.le_refl _)) rfl rfl

theorem cleared_append :
    cleared (documents ++ [d]) key =
      if clears d key then documents.length + 1 else cleared documents key := by
  unfold cleared
  rw [List.length_append, List.length_singleton, Nat.findGreatest_succ, layer_append_length]
  refine if_congr Iff.rfl rfl (findGreatest_congr fun i hi => ?_)
  rw [layer_append_of_le hi]

theorem cleared_le_length : cleared documents key ≤ documents.length := Nat.findGreatest_le _

/-- One more layer takes every say away when it clears the key, and else has a say itself
when it holds the key. -/
theorem counts_append {i : Nat} :
    Counts (documents ++ [d]) key i ↔ clears d key = false ∧
      (Counts documents key i ∨ i = documents.length + 1 ∧ key ∈ keys d) := by
  have hlast : ∀ j, Counts (documents ++ [d]) key j → j ≤ documents.length + 1 := by
    intro j hj
    simpa using hj.le_length
  constructor
  · intro h
    have hle := hlast i h
    obtain ⟨hlt, hmem⟩ := h
    rw [cleared_append] at hlt
    have hclears : clears d key = false := by
      by_contra hc
      rw [if_pos (Bool.eq_true_of_not_eq_false hc)] at hlt
      omega
    refine ⟨hclears, ?_⟩
    rw [hclears] at hlt
    by_cases hi : i ≤ documents.length
    · rw [layer_append_of_le hi] at hmem
      exact Or.inl ⟨hlt, hmem⟩
    · have hi : i = documents.length + 1 := by omega
      rw [hi, layer_append_length] at hmem
      exact Or.inr ⟨hi, hmem⟩
  · rintro ⟨hclears, h⟩
    have heq : cleared (documents ++ [d]) key = cleared documents key := by
      rw [cleared_append, hclears]
      rfl
    rcases h with h | ⟨rfl, hmem⟩
    · refine ⟨heq ▸ h.1, ?_⟩
      rw [layer_append_of_le h.le_length]
      exact h.2
    · refine ⟨?_, ?_⟩
      · rw [heq]
        exact Nat.lt_succ_of_le cleared_le_length
      · rw [layer_append_length]
        exact hmem

theorem clears_of_not_mem (h : key ∉ keys m) : clears m key = false := by
  rw [clears, lookup_eq_none_of_not_mem h]
  rfl

theorem clears_cons (k : String) (v : Value) :
    clears ((k, v) :: m) key = if key = k then v.isNull else clears m key := by
  unfold clears
  rw [lookup_cons]
  split <;> rfl

/-- The value of a key after one more layer, whose keys are distinct. -/
theorem lookup_overlay (hd : (keys d).Nodup) :
    (overlay base d).lookup key =
      match d.lookup key with
      | some v => if v.isNull then none else some v
      | none => base.lookup key := by
  induction d generalizing base with
  | nil => rfl
  | cons e d ih =>
    obtain ⟨k, v⟩ := e
    obtain ⟨hk, hd⟩ := List.nodup_cons.1 hd
    change (overlay (overlayEntry base (k, v)) d).lookup key = _
    rw [ih hd, lookup_cons]
    by_cases h : key = k
    · subst h
      have hnone : d.lookup key = none := lookup_eq_none_of_not_mem hk
      rw [hnone, if_pos rfl]
      exact (lookup_overlayEntry base (key, v) key).trans (if_pos rfl)
    · rw [if_neg h]
      cases d.lookup key with
      | some w => rfl
      | none => exact (lookup_overlayEntry base (k, v) key).trans (if_neg h)

theorem keys_erase : keys (erase m key) = (keys m).filter (· ≠ key) := by
  induction m with
  | nil => rfl
  | cons e m ih =>
    unfold erase keys at ih ⊢
    by_cases h : e.1 = key
    · simpa [h] using ih
    · simpa [h] using ih

theorem has_eq_of_lookup_eq {n : Mapping} (h : m.lookup key = n.lookup key) :
    has m key = has n key := by rw [has, has, h]

/-- The keys after one more layer: those it does not clear stay where they are, and those
that are new follow in its order. -/
theorem keys_overlay (hd : (keys d).Nodup) :
    keys (overlay base d) = (keys base).filter (fun key => !clears d key) ++
      (keys d).filter fun key => !has base key && !clears d key := by
  induction d generalizing base with
  | nil => simp [overlay, keys, clears]
  | cons e d ih =>
    obtain ⟨k, v⟩ := e
    obtain ⟨hk, hd⟩ := List.nodup_cons.1 hd
    change keys (overlay (overlayEntry base (k, v)) d) = _
    rw [ih hd]
    have hclears : ∀ x, clears ((k, v) :: d) x = if x = k then v.isNull else clears d x :=
      fun x => clears_cons k v
    have hself : clears d k = false := clears_of_not_mem hk
    -- The keys of the rest of the layer are other keys, so the entry does not bear on them.
    have hrest : (keys d).filter (fun x => !has (overlayEntry base (k, v)) x && !clears d x) =
        (keys d).filter fun x => !has base x && !clears ((k, v) :: d) x := by
      refine List.filter_congr fun x hx => ?_
      have hne : x ≠ k := fun he => hk (he ▸ hx)
      have hlookup := (lookup_overlayEntry base (k, v) x).trans (if_neg hne)
      rw [has_eq_of_lookup_eq hlookup, hclears, if_neg hne]
    rw [hrest, show keys ((k, v) :: d) = k :: keys d from rfl, List.filter_cons, hclears k,
      if_pos rfl]
    cases hv : v.isNull with
    | true =>
      have herase : overlayEntry base (k, v) = erase base k := if_pos hv
      have hkept : (keys base).filter (fun x => !clears ((k, v) :: d) x) =
          ((keys base).filter (· ≠ k)).filter fun x => !clears d x := by
        rw [List.filter_filter]
        refine List.filter_congr fun x _ => ?_
        rw [hclears]
        by_cases hx : x = k <;> simp [hx, hv]
      rw [herase, keys_erase, hkept]
      simp
    | false =>
      have hput : overlayEntry base (k, v) = put base k v := if_neg (by simp [hv])
      have hkept : ∀ l : List String, l.filter (fun x => !clears ((k, v) :: d) x) =
          l.filter fun x => !clears d x := by
        intro l
        refine List.filter_congr fun x _ => ?_
        rw [hclears]
        by_cases hx : x = k <;> simp [hx, hv, hself]
      rw [hput, hkept]
      cases hbase : has base k with
      | true =>
        rw [keys_put_of_has hbase]
        simp
      | false =>
        rw [keys_put_of_not_has hbase, List.filter_append]
        simp [hself]

theorem mem_keys_overlay (hd : (keys d).Nodup) :
    key ∈ keys (overlay base d) ↔ clears d key = false ∧ (key ∈ keys base ∨ key ∈ keys d) := by
  rw [keys_overlay hd, List.mem_append, List.mem_filter, List.mem_filter, ← has_iff_mem_keys]
  cases has base key <;> simp [and_comm]

theorem pairwise_idxOf {l : List String} (h : l.Nodup) :
    l.Pairwise fun a b => l.idxOf a < l.idxOf b := by
  rw [List.pairwise_iff_getElem]
  intro i j hi hj hij
  rw [h.idxOf_getElem, h.idxOf_getElem]
  exact hij

theorem Merged.nil : Merged [] [] where
  distinct := List.Pairwise.nil
  filled := fun _ h => absurd h List.not_mem_nil
  mem_keys key := by
    constructor
    · intro h
      exact absurd h List.not_mem_nil
    · rintro ⟨i, hlt, hmem⟩
      cases i with
      | zero => exact absurd hlt (Nat.not_lt_zero _)
      | succ i => exact absurd hmem List.not_mem_nil
  lookup key i h := by
    have hmem := h.1.2
    cases i with
    | zero => exact absurd hmem List.not_mem_nil
    | succ i => exact absurd hmem List.not_mem_nil
  ordered := List.Pairwise.nil

/-- A key that was there and is not cleared keeps its first layer. -/
theorem isLeast_of_append {i : Nat} (hkey : ∃ i, Counts documents key i)
    (h : IsLeast {i | Counts (documents ++ [d]) key i} i) :
    i ≤ documents.length ∧ IsLeast {i | Counts documents key i} i := by
  obtain ⟨j, hj⟩ := hkey
  have hclears : clears d key = false := (counts_append.1 h.1).1
  have hij : i ≤ j := h.2 (counts_append.2 ⟨hclears, Or.inl hj⟩)
  have hi : i ≤ documents.length := Nat.le_trans hij hj.le_length
  refine ⟨hi, ?_, ?_⟩
  · rcases (counts_append.1 h.1).2 with hcounts | ⟨heq, -⟩
    · exact hcounts
    · omega
  · intro k hk
    exact h.2 (counts_append.2 ⟨hclears, Or.inl hk⟩)

/-- A key that was not there begins in the new layer. -/
theorem eq_length_of_append {i : Nat} (hkey : ¬ ∃ i, Counts documents key i)
    (h : Counts (documents ++ [d]) key i) : i = documents.length + 1 := by
  rcases (counts_append.1 h).2 with hcounts | ⟨heq, -⟩
  · exact absurd ⟨i, hcounts⟩ hkey
  · exact heq

/-- The value of a key is the one of the last layer that has a say, which is the new one
when it holds the key. -/
theorem Merged.lookup_overlay (hm : Merged documents m) (hd : (keys d).Nodup) {i : Nat}
    (h : IsGreatest {i | Counts (documents ++ [d]) key i} i) :
    (overlay m d).lookup key = (layer (documents ++ [d]) i).lookup key := by
  obtain ⟨hclears, hsay⟩ := counts_append.1 h.1
  rw [Mapping.lookup_overlay hd]
  by_cases hmem : key ∈ keys d
  · have hlast : i = documents.length + 1 := by
      have hge : documents.length + 1 ≤ i :=
        h.2 (counts_append.2 ⟨hclears, Or.inr ⟨rfl, hmem⟩⟩)
      have hle := h.1.le_length
      rw [List.length_append, List.length_singleton] at hle
      omega
    obtain ⟨v, hv⟩ := exists_lookup hmem
    have hnull : v.isNull = false := by
      rwa [clears, hv] at hclears
    rw [hlast, layer_append_length, hv]
    simp [hnull]
  · have hold : Counts documents key i := by
      rcases hsay with hcounts | ⟨-, hin⟩
      · exact hcounts
      · exact absurd hin hmem
    have hgreatest : IsGreatest {i | Counts documents key i} i := by
      refine ⟨hold, fun j hj => ?_⟩
      exact h.2 (counts_append.2 ⟨hclears, Or.inl hj⟩)
    rw [lookup_eq_none_of_not_mem hmem, layer_append_of_le hold.le_length]
    exact hm.lookup key i hgreatest

theorem Merged.ordered_overlay (hm : Merged documents m) (hd : (keys d).Nodup) :
    (keys (overlay m d)).Pairwise fun a b => ∀ i j,
      IsLeast {i | Counts (documents ++ [d]) a i} i →
      IsLeast {j | Counts (documents ++ [d]) b j} j →
        i < j ∨ i = j ∧ (keys (layer (documents ++ [d]) i)).idxOf a <
          (keys (layer (documents ++ [d]) i)).idxOf b := by
  have hnew : ∀ a ∈ (keys d).filter (fun key => !has m key && !clears d key),
      ¬ ∃ i, Counts documents a i := by
    intro a ha hcounts
    have hhas := has_iff_mem_keys.2 ((hm.mem_keys a).2 hcounts)
    rw [List.mem_filter, hhas] at ha
    exact absurd ha.2 (by simp)
  rw [keys_overlay hd, List.pairwise_append]
  refine ⟨?_, ?_, ?_⟩
  · -- Keys that stay begin in the layers in which they began before.
    refine (hm.ordered.sublist List.filter_sublist).imp_of_mem fun {a b} ha hb hab i j hi hj => ?_
    have ha := (hm.mem_keys a).1 (List.mem_of_mem_filter ha)
    have hb := (hm.mem_keys b).1 (List.mem_of_mem_filter hb)
    obtain ⟨hle, hi⟩ := isLeast_of_append ha hi
    obtain ⟨-, hj⟩ := isLeast_of_append hb hj
    rw [layer_append_of_le hle]
    exact hab i j hi hj
  · -- New keys all begin in the new layer, which has them in this order.
    refine ((pairwise_idxOf hd).sublist List.filter_sublist).imp_of_mem
      fun {a b} ha hb hab i j hi hj => ?_
    have hi := eq_length_of_append (hnew a ha) hi.1
    have hj := eq_length_of_append (hnew b hb) hj.1
    refine Or.inr ⟨hi.trans hj.symm, ?_⟩
    rw [hi, layer_append_length]
    exact hab
  · intro a ha b hb i j hi hj
    have ha := (hm.mem_keys a).1 (List.mem_of_mem_filter ha)
    have hle := (isLeast_of_append ha hi).1
    have hj := eq_length_of_append (hnew b hb) hj.1
    exact Or.inl (by omega)

/-- One more layer on top. -/
theorem Merged.overlay (hm : Merged documents m) (hd : (keys d).Nodup) :
    Merged (documents ++ [d]) (overlay m d) := by
  have hclean := Clean.overlay ⟨hm.distinct, hm.filled⟩ d
  refine ⟨hclean.distinct, hclean.filled, fun key => ?_, fun key i h => hm.lookup_overlay hd h,
    hm.ordered_overlay hd⟩
  rw [mem_keys_overlay hd, hm.mem_keys key]
  simp only [counts_append]
  constructor
  · rintro ⟨hclears, ⟨i, hi⟩ | hmem⟩
    · exact ⟨i, hclears, Or.inl hi⟩
    · exact ⟨_, hclears, Or.inr ⟨rfl, hmem⟩⟩
  · rintro ⟨i, hclears, hi | ⟨-, hmem⟩⟩
    · exact ⟨hclears, Or.inl ⟨i, hi⟩⟩
    · exact ⟨hclears, Or.inr hmem⟩

/-- Merging says what the layers say, taken together. -/
theorem merged_merge (h : ∀ d ∈ documents, (keys d).Nodup) :
    Merged documents (merge documents) := by
  induction documents using List.reverseRecOn with
  | nil => exact .nil
  | append_singleton documents d ih =>
    have hmerge : merge (documents ++ [d]) = Mapping.overlay (merge documents) d := by
      rw [merge, merge, List.foldl_append]
      rfl
    rw [hmerge]
    refine (ih fun c hc => h c (List.mem_append_left _ hc)).overlay ?_
    exact h d (List.mem_append_right _ (List.mem_singleton_self d))

end Mapping

end WorkloadSpec
