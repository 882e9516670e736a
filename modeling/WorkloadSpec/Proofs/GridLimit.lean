import Mathlib.Tactic.Ring
import WorkloadSpec.Proofs.ExperimentCount

/-!
The size of a grid and its limit. The size is a product that is held within 64 bits at every
step. It is the true product as far as 64 bits reach, in whatever order the parameters stand,
and nothing where a parameter has no candidates, however large the product was before. So a
check decides on the number of suggestions that is truly asked for, and an index below that
number is read digit by digit, each digit being the place of a candidate.
-/
namespace WorkloadSpec

namespace Sweep

variable {s : Sweep} {matrix entries : List (String × Axis)}

/-- How many suggestions are asked for, counted without bound. -/
def demand (s : Sweep) : Nat :=
  match s.grid.bind GridSearch.experiments with
  | some limit => min (volume s.matrix) limit.toNat
  | none => volume s.matrix

/-- The index whose digits are the places of candidates. -/
def ordinal (matrix : List (String × Axis)) (places : List Nat) : Nat :=
  (matrix.zip places).foldl (fun index digit => index * digit.1.2.size + digit.2) 0

theorem volume_perm {others : List (String × Axis)} (h : others.Perm matrix) :
    volume others = volume matrix :=
  (h.map fun e : String × Axis => e.2.size).prod_eq

theorem volume_eq_zero {e : String × Axis} (he : e ∈ matrix) (hsize : e.2.size = 0) :
    volume matrix = 0 := by
  have hpos : ¬0 < volume matrix := fun h => Nat.ne_of_gt (volume_pos_iff.1 h e he) hsize
  exact Nat.eq_zero_of_not_pos hpos

/-- The count is the true one as far as 64 bits reach; a limit is always within them. -/
theorem suggestionCount_eq (s : Sweep) : s.suggestionCount = min s.demand countLimit := by
  unfold suggestionCount demand
  rw [gridSize_eq]
  cases s.grid.bind GridSearch.experiments with
  | none => rfl
  | some limit =>
    have hlimit : limit.toNat ≤ countLimit := Nat.le_of_lt_succ limit.toNat_lt
    change min (min (volume s.matrix) countLimit) limit.toNat =
      min (min (volume s.matrix) limit.toNat) countLimit
    omega

theorem suggestionCount_le_maxSuggestions :
    s.suggestionCount ≤ maxSuggestions ↔ s.demand ≤ maxSuggestions := by
  have hlimit : maxSuggestions < countLimit := by decide
  rw [suggestionCount_eq]
  omega

/-- Without a random search a check looks at the true number of suggestions. -/
theorem check_eq_ok_of_grid (h : s.random = none) : s.check = .ok () ↔
    s.concurrency ≠ 0 ∧ s.matrix ≠ [] ∧ (∀ e ∈ s.matrix, Fit e.2) ∧
      s.demand ≤ maxSuggestions := by
  rw [check_eq_ok, accepted_iff, suggestionCount_le_maxSuggestions]
  simp only [h, or_true, true_and, forall_const]

/-- Each digit of an index is the place of a candidate. -/
theorem forall₂_places (h : ∀ e ∈ entries, 0 < e.2.size) (index : Nat) :
    List.Forall₂ (fun place e => place < e.2.size) (places entries index) entries.reverse := by
  induction entries generalizing index with
  | nil => exact List.Forall₂.nil
  | cons e entries ih =>
    obtain ⟨hsize, hentries⟩ := List.forall_mem_cons.1 h
    have hdigit : index % max e.2.size 1 < e.2.size := by
      rw [Nat.max_eq_left hsize]
      exact Nat.mod_lt index hsize
    rw [places, List.reverse_cons]
    exact List.rel_append (ih hentries _) (List.Forall₂.cons hdigit List.Forall₂.nil)

/-- Reading the digits back, from any index that was read before, gives what the radix leaves
of the index. -/
theorem foldl_places (h : ∀ e ∈ entries, 0 < e.2.size) (start index : Nat) :
    (entries.reverse.zip (places entries index)).foldl
        (fun index digit => index * digit.1.2.size + digit.2) start =
      start * radix entries + index % radix entries := by
  induction entries generalizing index with
  | nil => simp [places, radix, Nat.mod_one]
  | cons e entries ih =>
    obtain ⟨hsize, hentries⟩ := List.forall_mem_cons.1 h
    have hlength : entries.reverse.length = (places entries (index / e.2.size)).length := by
      rw [List.length_reverse, length_places]
    have hradix : radix (e :: entries) = e.2.size * radix entries := by
      rw [radix, List.map_cons, List.prod_cons, Nat.max_eq_left hsize, radix]
    rw [places, List.reverse_cons, Nat.max_eq_left hsize, List.zip_append hlength,
      List.foldl_append, ih hentries, hradix, Nat.mod_mul]
    simp only [List.zip_cons_cons, List.zip_nil_right, List.foldl_cons, List.foldl_nil]
    ring

theorem ordinal_places (h : ∀ e ∈ matrix, 0 < e.2.size) {index : Nat}
    (hindex : index < volume matrix) : ordinal matrix (places matrix.reverse index) = index := by
  have hreverse : ∀ e ∈ matrix.reverse, 0 < e.2.size := fun e he => h e (List.mem_reverse.1 he)
  have hfold := foldl_places hreverse 0 index
  rw [List.reverse_reverse, radix_reverse h, Nat.zero_mul, Nat.zero_add,
    Nat.mod_eq_of_lt hindex] at hfold
  exact hfold

/-- The grid is as large as the product of its parameters, as far as 64 bits reach: in any order
of the parameters, and with nothing in it where one of them is empty. A check without random
search accepts just what asks for few enough suggestions by the unbounded count. Whatever index
is counted finds candidates for all parameters, at the places that are its digits, and no digit
is taken by zero. -/
theorem grid_limit_bounds_volume (s : Sweep) :
    s.gridSize = min (volume s.matrix) countLimit ∧
    (∀ matrix, matrix.Perm s.matrix → { s with matrix := matrix }.gridSize = s.gridSize) ∧
    ((∃ e ∈ s.matrix, e.2.size = 0) → s.gridSize = 0) ∧
    (s.random = none → (s.check = .ok () ↔
      s.concurrency ≠ 0 ∧ s.matrix ≠ [] ∧ (∀ e ∈ s.matrix, Fit e.2) ∧
        s.demand ≤ maxSuggestions)) ∧
    ∀ index < s.suggestionCount, (∀ e ∈ s.matrix, 0 < e.2.size) ∧
      List.Forall₂ (fun place e => place < e.2.size) (places s.matrix.reverse index) s.matrix ∧
      s.suggestionAt index =
        List.zipWith candidate s.matrix (places s.matrix.reverse index) ∧
      ordinal s.matrix (places s.matrix.reverse index) = index := by
  refine ⟨gridSize_eq s, fun matrix hperm => ?_, ?_, check_eq_ok_of_grid, fun index hindex => ?_⟩
  · rw [gridSize_eq, gridSize_eq, volume_perm hperm]
  · rintro ⟨e, he, hsize⟩
    rw [gridSize_eq, volume_eq_zero he hsize, Nat.zero_min]
  · have hvolume : index < volume s.matrix := Nat.lt_of_lt_of_le hindex (suggestionCount_le s)
    have hsizes : ∀ e ∈ s.matrix, 0 < e.2.size := volume_pos_iff.1 (Nat.zero_lt_of_lt hvolume)
    have hreverse : ∀ e ∈ s.matrix.reverse, 0 < e.2.size :=
      fun e he => hsizes e (List.mem_reverse.1 he)
    have hplaces := forall₂_places hreverse index
    have hpick := pick_eq hreverse index
    rw [List.reverse_reverse] at hplaces hpick
    exact ⟨hsizes, hplaces, hpick, ordinal_places hsizes hvolume⟩

/-- Five parameters of ten thousand candidates each, in more combinations than 64 bits count. -/
def vastGrid : Sweep where
  matrix := ["a", "b", "c", "d", "e"].map fun name => (name, .linspace 0.0 1.0 10000)
  grid := some ⟨some 10⟩

/-- The grid is past the limit and ten of its suggestions are not. A parameter without candidates
after that leaves nothing. -/
theorem grid_limit_bounds_volume_vast :
    countLimit < volume vastGrid.matrix ∧ vastGrid.gridSize = countLimit ∧
      vastGrid.random = none ∧ vastGrid.demand = 10 ∧ vastGrid.check = .ok () ∧
      { vastGrid with matrix := vastGrid.matrix ++ [("f", Axis.values [])] }.gridSize = 0 ∧
      7 < vastGrid.suggestionCount ∧ places vastGrid.matrix.reverse 7 = [0, 0, 0, 0, 7] ∧
      ordinal vastGrid.matrix [0, 0, 0, 0, 7] = 7 := by
  have hvolume : countLimit < volume vastGrid.matrix := by decide +kernel
  have hcount : 7 < vastGrid.suggestionCount := by decide +kernel
  have hplaces : places vastGrid.matrix.reverse 7 = [0, 0, 0, 0, 7] := by decide +kernel
  have hfit : ∀ e ∈ vastGrid.matrix, Fit e.2 := by
    have haxis : Fit (.linspace 0.0 1.0 10000) := ⟨⟨by decide, by decide⟩, by decide, by decide⟩
    intro e he
    obtain ⟨name, -, rfl⟩ := List.mem_map.1 he
    exact haxis
  obtain ⟨hsize, -, -, hcheck, hindex⟩ := grid_limit_bounds_volume vastGrid
  obtain ⟨-, -, -, hordinal⟩ := hindex 7 hcount
  obtain ⟨-, -, hnone, -⟩ := grid_limit_bounds_volume
    { vastGrid with matrix := vastGrid.matrix ++ [("f", Axis.values [])] }
  have hdemand : vastGrid.demand = 10 := by decide +kernel
  refine ⟨hvolume, ?_, rfl, hdemand, (hcheck rfl).2 ⟨?_, ?_, hfit, ?_⟩,
    hnone ⟨("f", .values []), ?_, rfl⟩, hcount, hplaces, hplaces ▸ hordinal⟩
  · rw [hsize]
    exact Nat.min_eq_right hvolume.le
  · decide
  · exact List.cons_ne_nil _ _
  · rw [hdemand]
    decide
  · exact List.mem_append_right _ (List.mem_singleton_self _)

end Sweep

end WorkloadSpec
