import Mathlib.Data.List.Nodup
import Mathlib.Data.List.Perm.Basic
import WorkloadSpec.Proofs.SourceReading

/-!
Layers that may change places. A mapping that repeats no key is determined up to order by what
is found under each key. What a layer does to a key does not depend on the other keys, so two
layers without a common key leave the same data whichever is laid first, in one order of the
entries or another.
-/
namespace WorkloadSpec

namespace Mapping

variable {m n base other d e : Mapping} {key : String}

theorem mem_iff_lookup (hm : (keys m).Nodup) {v : Value} :
    (key, v) ∈ m ↔ m.lookup key = some v := by
  constructor
  · exact lookup_of_mem hm
  · intro h
    obtain ⟨front, back, rfl, -⟩ := List.lookup_eq_some_iff.1 h
    exact List.mem_append_right front List.mem_cons_self

theorem nodup_keys_of_perm (hm : (keys m).Nodup) (h : m.Perm n) : (keys n).Nodup :=
  (h.map Prod.fst).nodup_iff.1 hm

theorem lookup_perm (hm : (keys m).Nodup) (h : m.Perm n) (key : String) :
    m.lookup key = n.lookup key := by
  have hn : (keys n).Nodup := nodup_keys_of_perm hm h
  ext v
  rw [← mem_iff_lookup hm, ← mem_iff_lookup hn, h.mem_iff]

theorem perm_of_lookup_eq (hm : (keys m).Nodup) (hn : (keys n).Nodup)
    (h : ∀ key, m.lookup key = n.lookup key) : m.Perm n := by
  rw [List.perm_ext_iff_of_nodup hm.of_map hn.of_map]
  rintro ⟨key, v⟩
  rw [mem_iff_lookup hm, mem_iff_lookup hn, h]

/-- What is found under a key after one more layer depends on what was found there before. -/
theorem lookup_overlay_congr (h : base.lookup key = other.lookup key) (d : Mapping) :
    (overlay base d).lookup key = (overlay other d).lookup key := by
  induction d generalizing base other with
  | nil => exact h
  | cons e d ih =>
    apply ih
    rw [lookup_overlayEntry, lookup_overlayEntry, h]

theorem lookup_foldl_overlay_congr (h : base.lookup key = other.lookup key)
    (documents : List Mapping) :
    (documents.foldl overlay base).lookup key = (documents.foldl overlay other).lookup key := by
  induction documents generalizing base other with
  | nil => exact h
  | cons d documents ih => exact ih (lookup_overlay_congr h d)

theorem lookup_overlay_of_not_mem (h : key ∉ keys d) :
    (overlay base d).lookup key = base.lookup key := by
  induction d generalizing base with
  | nil => rfl
  | cons e d ih =>
    obtain ⟨hkey, hrest⟩ := List.ne_and_not_mem_of_not_mem_cons h
    exact (ih hrest).trans ((lookup_overlayEntry base e key).trans (if_neg hkey))

theorem lookup_overlay_swap (h : (keys d).Disjoint (keys e)) (key : String) :
    (overlay (overlay base d) e).lookup key = (overlay (overlay base e) d).lookup key := by
  by_cases hd : key ∈ keys d
  · have he : key ∉ keys e := h hd
    rw [lookup_overlay_of_not_mem he]
    exact lookup_overlay_congr (lookup_overlay_of_not_mem he).symm d
  · rw [lookup_overlay_of_not_mem hd]
    exact lookup_overlay_congr (lookup_overlay_of_not_mem hd) e

/-- Whatever lies below and above, two layers without a common key may change places. -/
theorem merge_swap_perm (h : (keys d).Disjoint (keys e)) (before after : List Mapping) :
    (merge (before ++ d :: e :: after)).Perm (merge (before ++ e :: d :: after)) := by
  apply perm_of_lookup_eq (clean_merge _).distinct (clean_merge _).distinct
  intro key
  rw [merge, merge, List.foldl_append, List.foldl_append]
  exact lookup_foldl_overlay_congr (lookup_overlay_swap h key) after

/-- A document is read alike in any order of its entries. -/
theorem overlay_nil_perm (hm : (keys m).Nodup) (h : m.Perm n) :
    (overlay [] m).Perm (overlay [] n) := by
  have hn : (keys n).Nodup := nodup_keys_of_perm hm h
  apply perm_of_lookup_eq (Clean.nil.overlay m).distinct (Clean.nil.overlay n).distinct
  intro key
  rw [lookup_overlay hm, lookup_overlay hn, lookup_perm hm h]

end Mapping

namespace Source

variable {files : Files} {s t : Source} {sources before after : List Source} {data : Mapping}

/-- The sources set no section in common. -/
def Apart (files : Files) (s t : Source) : Prop :=
  ∀ m ∈ s.mapping? files, ∀ n ∈ t.mapping? files, (Mapping.keys m).Disjoint (Mapping.keys n)

theorem Apart.symm (h : s.Apart files t) : t.Apart files s :=
  fun n hn m hm => List.disjoint_symm (h m hm n hn)

theorem exists_read_perm {m n : Mapping} (hm : (Mapping.keys m).Nodup) (h : m.Perm n)
    (data : Mapping) (hread : read files [.value (.map m)] = .ok data) :
    ∃ other, read files [.value (.map n)] = .ok other ∧ data.Perm other := by
  have hdata : Mapping.overlay [] m = data := Except.ok.inj hread
  exact ⟨Mapping.overlay [] n, rfl, hdata ▸ Mapping.overlay_nil_perm hm h⟩

theorem eq_merge_of_read (h : read files sources = .ok data) :
    data = Mapping.merge (mappings files sources) := by
  rw [read_eq] at h
  obtain ⟨ds, hds, rfl⟩ := Outcome.map_eq_ok.1 h
  rw [(documents_eq_ok hds).2]

theorem merge_mappings_swap (h : s.Apart files t) (before after : List Source) :
    (Mapping.merge (mappings files (before ++ s :: t :: after))).Perm
      (Mapping.merge (mappings files (before ++ t :: s :: after))) := by
  unfold mappings
  simp only [List.filterMap_append, List.filterMap_cons]
  cases hs : s.mapping? files with
  | none => rfl
  | some m =>
    cases ht : t.mapping? files with
    | none => rfl
    | some n => exact Mapping.merge_swap_perm (h m hs n ht) _ _

/-- Sources that set no section in common are read alike in either order. -/
theorem exists_read_swap (h : s.Apart files t)
    (hread : read files (before ++ s :: t :: after) = .ok data) :
    ∃ other, read files (before ++ t :: s :: after) = .ok other ∧ data.Perm other := by
  have husable := exists_read.1 ⟨data, hread⟩
  have hswap : (before ++ s :: t :: after).Perm (before ++ t :: s :: after) :=
    (List.Perm.swap t s after).append_left before
  obtain ⟨other, hother⟩ := exists_read.2 fun u hu => husable u (hswap.mem_iff.2 hu)
  refine ⟨other, hother, ?_⟩
  rw [eq_merge_of_read hread, eq_merge_of_read hother]
  exact merge_mappings_swap h before after

end Source

end WorkloadSpec
