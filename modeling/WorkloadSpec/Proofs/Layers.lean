import WorkloadSpec.Proofs.Outcome
import WorkloadSpec.Source.Layer

/-!
Merged documents. Whatever the layers are, the merged document repeats no key and
holds no null, and laying such a document over nothing gives it back, entry by
entry and in order. A merged document can therefore stand in for the layers it was
made from, whatever comes on top.
-/
namespace WorkloadSpec

namespace Mapping

theorem lookup_eq_none_of_not_mem {m : Mapping} {key : String} (h : key ∉ keys m) :
    m.lookup key = none := by
  rw [← Option.not_isSome_iff_eq_none]
  exact fun hsome => h (has_iff_mem_keys.1 hsome)

/-- A document as merging leaves it: no key twice, and no section that is null. -/
structure Clean (m : Mapping) : Prop where
  distinct : (keys m).Nodup
  filled : ∀ e ∈ m, e.2 ≠ .null

theorem Clean.nil : Clean [] := ⟨List.Pairwise.nil, fun _ h => absurd h List.not_mem_nil⟩

theorem Clean.overlayEntry {m : Mapping} (h : Clean m) (e : String × Value) :
    Clean (overlayEntry m e) := by
  unfold Mapping.overlayEntry
  split
  · exact ⟨nodup_keys_erase h.distinct, fun d hd => h.filled d (List.mem_filter.1 hd).1⟩
  · next hnull =>
    refine ⟨nodup_keys_put h.distinct, fun d hd => ?_⟩
    rcases mem_put hd with rfl | hd
    · exact fun he => hnull (Value.isNull_iff.2 he)
    · exact h.filled d hd

theorem Clean.overlay {m : Mapping} (h : Clean m) (later : Mapping) : Clean (overlay m later) := by
  unfold Mapping.overlay
  induction later generalizing m with
  | nil => exact h
  | cons e later ih => exact ih (h.overlayEntry e)

theorem Clean.foldl_overlay {m : Mapping} (h : Clean m) (documents : List Mapping) :
    Clean (documents.foldl Mapping.overlay m) := by
  induction documents generalizing m with
  | nil => exact h
  | cons d documents ih => exact ih (h.overlay d)

theorem clean_merge (documents : List Mapping) : Clean (merge documents) :=
  Clean.nil.foldl_overlay documents

/-- Without nulls an overlay only puts entries. -/
theorem overlay_eq_foldl_put {later : Mapping} (h : ∀ e ∈ later, e.2 ≠ .null) (base : Mapping) :
    overlay base later = later.foldl (fun m e => put m e.1 e.2) base := by
  unfold overlay
  induction later generalizing base with
  | nil => rfl
  | cons e later ih =>
    have he : e.2.isNull ≠ true := fun hn => h e List.mem_cons_self (Value.isNull_iff.1 hn)
    rw [List.foldl_cons, List.foldl_cons, overlayEntry, if_neg he]
    exact ih (fun d hd => h d (List.mem_cons_of_mem e hd)) _

theorem Clean.overlay_nil {m : Mapping} (h : Clean m) : Mapping.overlay [] m = m := by
  rw [overlay_eq_foldl_put h.filled]
  exact foldl_put h.distinct

/-- A merged document stands in for its layers, whatever is laid on top of them. -/
theorem merge_cons_merge (documents extra : List Mapping) :
    merge (merge documents :: extra) = merge (documents ++ extra) := by
  have h : overlay [] (merge documents) = merge documents := (clean_merge documents).overlay_nil
  unfold merge at h ⊢
  rw [List.foldl_cons, h, List.foldl_append]

end Mapping

namespace Source

variable {files : Files} {sources extra : List Source} {document : Mapping}

/-- The documents of some layers that are not null, in order. -/
def documents (files : Files) (sources : List Source) : Except DocumentError (List Mapping) :=
  (·.filterMap id) <$> sources.mapM (document? files)

theorem read_eq (files : Files) (sources : List Source) :
    read files sources = Mapping.merge <$> documents files sources := by
  unfold read documents
  cases sources.mapM (document? files) <;> rfl

theorem documents_append (files : Files) (sources extra : List Source) :
    documents files (sources ++ extra) =
      (do return (← documents files sources) ++ (← documents files extra)) := by
  unfold documents
  rw [List.mapM_append]
  cases sources.mapM (document? files) with
  | error e => rfl
  | ok ds =>
    cases extra.mapM (document? files) with
    | error e => rfl
    | ok es => exact congrArg Except.ok List.filterMap_append

theorem clean_of_read (h : read files sources = .ok document) : document.Clean := by
  rw [read_eq] at h
  obtain ⟨ds, -, rfl⟩ := Outcome.map_eq_ok.1 h
  exact Mapping.clean_merge ds

/-- A document that is already merged is read as it is. -/
theorem read_value (files : Files) (h : document.Clean) :
    read files [.value (.map document)] = .ok document :=
  congrArg Except.ok h.overlay_nil

/-- Layers on top of a merged document are read as if they lay on its own layers,
with the same first refusal if there is one. -/
theorem read_value_cons (h : read files sources = .ok document) (extra : List Source) :
    read files (.value (.map document) :: extra) = read files (sources ++ extra) := by
  rw [read_eq] at h
  obtain ⟨ds, hds, rfl⟩ := Outcome.map_eq_ok.1 h
  have hone : documents files [.value (.map (Mapping.merge ds))] = .ok [Mapping.merge ds] := rfl
  rw [← List.singleton_append, read_eq, read_eq, documents_append, documents_append, hone, hds]
  cases documents files extra with
  | error e => rfl
  | ok es => exact congrArg Except.ok (Mapping.merge_cons_merge ds es)

end Source

end WorkloadSpec
