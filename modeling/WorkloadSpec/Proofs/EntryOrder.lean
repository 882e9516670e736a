import Mathlib.Data.List.Nodup
import Mathlib.Data.List.Perm.Basic
import WorkloadSpec.Proofs.SectionRoundTrip

/-!
The order in which the entries of a mapping are written. A mapping whose order does not count
reads the same in any order of its entries, and a record does not tell apart two forms of an
entry that its field reads alike; so a sweep is the same for any order of its parameters.
-/
namespace WorkloadSpec

namespace Codec

variable {α : Type} {c : Codec α}

/-- Entries with different keys are sorted in one way only. -/
theorem sortByKey_perm {xs ys : List (String × α)} (hkeys : (xs.map Prod.fst).Nodup)
    (h : xs.Perm ys) : sortByKey xs = sortByKey ys := by
  have hsorted : (sortByKey xs).Perm xs := List.mergeSort_perm xs _
  have hsorted' : (sortByKey ys).Perm ys := List.mergeSort_perm ys _
  apply List.Perm.eq_of_pairwise _ (ascending_sortByKey xs) (ascending_sortByKey ys)
    (hsorted.trans (h.trans hsorted'.symm))
  intro a b ha hb hab hba
  have ha : a ∈ xs := hsorted.mem_iff.1 ha
  have hb : b ∈ xs := h.mem_iff.2 (hsorted'.mem_iff.1 hb)
  exact List.inj_on_of_nodup_map hkeys ha hb (String.le_antisymm hab hba)

/-- Entries in ascending order are what any order of them is sorted to. -/
theorem sortByKey_eq_of_perm {entries written : List (String × α)}
    (hascending : (entries.map Prod.fst).Pairwise (· < ·)) (h : written.Perm entries) :
    sortByKey written = entries := by
  have hkeys : (entries.map Prod.fst).Nodup := by
    refine hascending.imp ?_
    rintro a b hlt rfl
    exact String.lt_irrefl a hlt
  have hsorted : Ascending entries := (List.pairwise_map.1 hascending).imp String.lt_asymm
  rw [sortByKey_perm ((h.map Prod.fst).nodup_iff.2 hkeys) h, sortByKey_eq_self hsorted]

/-- A mapping whose order does not count reads the same in any order. -/
theorem sortedMap_decode_perm {written other : Mapping} {entries : List (String × α)}
    (hkeys : (Mapping.keys written).Nodup) (hperm : written.Perm other)
    (h : c.sortedMap.decode (.map written) = .ok entries) :
    c.sortedMap.decode (.map other) = .ok entries := by
  obtain ⟨read, hread, rfl⟩ := Outcome.map_eq_ok.1 h
  obtain ⟨read', hread', hreads⟩ :=
    List.perm_comp_forall₂ hperm.symm (Outcome.mapM_eq_ok.1 hread)
  have hsame : read.map Prod.fst = Mapping.keys written := by
    have hnames : List.Forall₂ (fun x e => e.1 = x.1) written read := by
      refine (Outcome.mapM_eq_ok.1 hread).imp fun x e hx => ?_
      obtain ⟨a, -, he⟩ := Outcome.bind_eq_ok.1 hx
      rw [← Outcome.pure_eq_ok.1 he]
    rw [← List.forall₂_eq_eq_eq, Mapping.keys, List.forall₂_map_left_iff,
      List.forall₂_map_right_iff]
    exact hnames.flip
  rw [sortByKey_perm (hsame ▸ hkeys) hreads.symm]
  exact Outcome.map_eq_ok.2 ⟨read', Outcome.mapM_eq_ok.2 hread', rfl⟩

end Codec

namespace Record

variable {σ : Type} {r : Record σ} {s t : σ} {before after : Mapping} {key : String} {v w : Value}

theorem readEntries_replace
    (hread : ∀ f, r.field? key = some f → ∀ s t, f.read v s = .ok t → f.read w s = .ok t)
    (h : r.readEntries (before ++ (key, v) :: after) s = .ok t) :
    r.readEntries (before ++ (key, w) :: after) s = .ok t := by
  induction before generalizing s with
  | nil =>
    rw [List.nil_append, readEntries] at h ⊢
    cases hf : r.field? key with
    | none =>
      rw [hf] at h
      cases h
    | some f =>
      rw [hf] at h
      obtain ⟨u, hu, hrest⟩ := Outcome.bind_eq_ok.1 h
      exact Outcome.bind_eq_ok.2 ⟨u, hread f hf s u hu, hrest⟩
  | cons e before ih =>
    rw [List.cons_append, readEntries] at h ⊢
    cases hf : r.field? e.1 with
    | none =>
      rw [hf] at h
      cases h
    | some f =>
      rw [hf] at h
      obtain ⟨u, hu, hrest⟩ := Outcome.bind_eq_ok.1 h
      exact Outcome.bind_eq_ok.2 ⟨u, hu, ih hrest⟩

theorem missing?_congr {entries others : Mapping}
    (h : Mapping.keys entries = Mapping.keys others) : r.missing? entries = r.missing? others := by
  have hhas : ∀ name, Mapping.has entries name = Mapping.has others name := by
    intro name
    rw [Bool.eq_iff_iff, Mapping.has_iff_mem_keys, Mapping.has_iff_mem_keys, h]
  unfold missing?
  simp only [hhas]

/-- An entry may be replaced by one that its field reads alike. -/
theorem decode_replace
    (hread : ∀ f, r.field? key = some f → ∀ s t, f.read v s = .ok t → f.read w s = .ok t)
    (h : r.decode (.map (before ++ (key, v) :: after)) = .ok t) :
    r.decode (.map (before ++ (key, w) :: after)) = .ok t := by
  have hkeys : Mapping.keys (before ++ (key, v) :: after) =
      Mapping.keys (before ++ (key, w) :: after) := by
    simp [Mapping.keys]
  obtain ⟨u, hu, hrest⟩ := Outcome.bind_eq_ok.1 h
  refine Outcome.bind_eq_ok.2 ⟨u, readEntries_replace hread hu, ?_⟩
  rw [← missing?_congr hkeys]
  exact hrest

end Record

namespace Sweep

/-- A sweep does not depend on the order in which its parameters are written. -/
theorem decode_matrix_perm {before after written other : Mapping} {s : Sweep}
    (hkeys : (Mapping.keys written).Nodup) (hperm : written.Perm other)
    (h : codec.decode (.map (before ++ ("matrix", .map written) :: after)) = .ok s) :
    codec.decode (.map (before ++ ("matrix", .map other) :: after)) = .ok s := by
  refine Record.decode_replace (fun f hf s t hread => ?_) h
  obtain rfl := Option.some.inj hf
  obtain ⟨matrix, hmatrix, rfl⟩ := Outcome.map_eq_ok.1 hread
  exact Outcome.map_eq_ok.2 ⟨matrix, Codec.sortedMap_decode_perm hkeys hperm hmatrix, rfl⟩

end Sweep

end WorkloadSpec
