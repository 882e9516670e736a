import Mathlib.Algebra.BigOperators.Group.List.Basic
import Mathlib.Data.List.Nodup
import WorkloadSpec.Proofs.EntryOrder

/-!
The suggestions of a grid as a product. A suggestion is read off an index digit by digit, the
last digit belonging to the last parameter. The indices below the size of the grid stand for
all choices of a place for each parameter, in order and each once, so that the suggestions are
the first of all combinations of candidates, as many as are asked for. The order in which the
parameters were written does not count.
-/
namespace WorkloadSpec

namespace Sweep

section Product

variable {α : Type}

/-- One element of each list; the element of the last list changes first. -/
def product : List (List α) → List (List α)
  | [] => [[]]
  | xs :: rest => xs.flatMap fun x => (product rest).map (x :: ·)

theorem mem_product {ls : List (List α)} {xs : List α} :
    xs ∈ product ls ↔ List.Forall₂ (· ∈ ·) xs ls := by
  induction ls generalizing xs with
  | nil => rw [product, List.mem_singleton, List.forall₂_nil_right_iff]
  | cons l ls ih =>
    rw [product, List.mem_flatMap, List.forall₂_cons_right_iff]
    constructor
    · rintro ⟨x, hx, hxs⟩
      obtain ⟨rest, hrest, rfl⟩ := List.mem_map.1 hxs
      exact ⟨x, rest, hx, ih.1 hrest, rfl⟩
    · rintro ⟨x, rest, hx, hrest, rfl⟩
      exact ⟨x, hx, List.mem_map.2 ⟨rest, ih.2 hrest, rfl⟩⟩

theorem length_product (ls : List (List α)) :
    (product ls).length = (ls.map List.length).prod := by
  induction ls with
  | nil => rfl
  | cons l ls ih => simp [product, List.length_flatMap, ih]

theorem nodup_product {ls : List (List α)} (h : ∀ l ∈ ls, l.Nodup) : (product ls).Nodup := by
  induction ls with
  | nil => exact List.nodup_singleton []
  | cons l ls ih =>
    obtain ⟨hl, hls⟩ := List.forall_mem_cons.1 h
    rw [product, List.nodup_flatMap]
    constructor
    · intro x _
      exact (ih hls).map fun a b hab => (List.cons.inj hab).2
    · refine hl.imp fun {a b} hab => ?_
      intro xs ha hb
      obtain ⟨_, -, rfl⟩ := List.mem_map.1 ha
      obtain ⟨_, -, hsame⟩ := List.mem_map.1 hb
      exact hab (List.cons.inj hsame).1.symm

theorem range_mul (m n : Nat) :
    List.range (m * n) = (List.range m).flatMap fun q => (List.range n).map (q * n + ·) := by
  induction m with
  | zero => rw [Nat.zero_mul]; rfl
  | succ m ih =>
    rw [Nat.succ_mul, List.range_add, List.range_succ, List.flatMap_append, ih,
      List.flatMap_singleton]

end Product

variable {s : Sweep} {matrix entries : List (String × Axis)}

/-- Where the candidates stand that an index picks; its last digit belongs to the first entry. -/
def places : List (String × Axis) → Nat → List Nat
  | [], _ => []
  | (_, axis) :: rest, index =>
    let size := max axis.size 1
    places rest (index / size) ++ [index % size]

/-- What stands at a place of a parameter, under its name. -/
def candidate (e : String × Axis) (place : Nat) : String × Value :=
  (e.1, (e.2.valueAt? place).getD .null)

/-- The places that the suggestions are picked from, in order. -/
def picks (s : Sweep) : List (List Nat) :=
  (List.range s.suggestionCount).map (places s.matrix.reverse)

/-- Every choice of a candidate for each parameter; the last parameter varies fastest. -/
def combinations (matrix : List (String × Axis)) : List Mapping :=
  product (matrix.map fun e => e.2.toList.map (e.1, ·))

/-- How many combinations there are. -/
def volume (matrix : List (String × Axis)) : Nat := (matrix.map fun e => e.2.size).prod

theorem length_places (entries : List (String × Axis)) (index : Nat) :
    (places entries index).length = entries.length := by
  induction entries generalizing index with
  | nil => rfl
  | cons e entries ih => simp [places, ih]

theorem exists_valueAt? {axis : Axis} {place : Nat} (h : place < axis.size) :
    ∃ v, axis.valueAt? place = some v :=
  Option.isSome_iff_exists.1 (Axis.isSome_valueAt?.2 h)

/-- Where no parameter is without candidates, none is skipped. -/
theorem pick_eq (h : ∀ e ∈ entries, 0 < e.2.size) (index : Nat) :
    pick entries index = List.zipWith candidate entries.reverse (places entries index) := by
  induction entries generalizing index with
  | nil => rfl
  | cons e entries ih =>
    obtain ⟨hsize, hentries⟩ := List.forall_mem_cons.1 h
    have hmax : max e.2.size 1 = e.2.size := by omega
    obtain ⟨v, hv⟩ := exists_valueAt? (Nat.mod_lt index hsize)
    have hlength : entries.reverse.length = (places entries (index / e.2.size)).length := by
      rw [List.length_reverse, length_places]
    rw [pick, places, hmax, ih hentries, hv, List.reverse_cons, List.zipWith_append hlength]
    simp [candidate, hv]

/-- The product of the radices that the digits of an index are taken in. -/
def radix (entries : List (String × Axis)) : Nat := (entries.map fun e => max e.2.size 1).prod

theorem radix_reverse (h : ∀ e ∈ entries, 0 < e.2.size) :
    radix entries.reverse = volume entries := by
  have hsizes : entries.map (fun e => max e.2.size 1) = entries.map fun e => e.2.size := by
    refine List.map_congr_left fun e he => ?_
    have := h e he
    omega
  rw [radix, List.map_reverse, List.prod_reverse, hsizes, volume]

theorem places_append (xs ys : List (String × Axis)) (index : Nat) :
    places (xs ++ ys) index = places ys (index / radix xs) ++ places xs index := by
  induction xs generalizing index with
  | nil => simp [radix, places]
  | cons e xs ih =>
    rw [List.cons_append, places, places, ih, Nat.div_div_eq_div_mul, List.append_assoc]
    rfl

/-- The digits of an index repeat with the radix. -/
theorem places_mod (entries : List (String × Axis)) (index : Nat) :
    places entries (index % radix entries) = places entries index := by
  induction entries generalizing index with
  | nil => rfl
  | cons e entries ih =>
    have hradix : radix (e :: entries) = max e.2.size 1 * radix entries := rfl
    rw [places, places, hradix, Nat.mod_mul_right_div_self, Nat.mod_mul_right_mod, ih]

/-- The indices below the volume stand for all places, in order. -/
theorem map_places (h : ∀ e ∈ matrix, 0 < e.2.size) :
    (List.range (volume matrix)).map (places matrix.reverse) =
      product (matrix.map fun e => List.range e.2.size) := by
  induction matrix with
  | nil => rfl
  | cons e matrix ih =>
    obtain ⟨hsize, hmatrix⟩ := List.forall_mem_cons.1 h
    have hvolume : volume (e :: matrix) = e.2.size * volume matrix := rfl
    have hmax : max e.2.size 1 = e.2.size := by omega
    have hdigits : ∀ q < e.2.size, ∀ r < volume matrix,
        places (e :: matrix).reverse (q * volume matrix + r) = q :: places matrix.reverse r := by
      intro q hq r hr
      have hdiv : (q * volume matrix + r) / volume matrix = q := by
        rw [Nat.mul_comm, Nat.mul_add_div (by omega), Nat.div_eq_of_lt hr, Nat.add_zero]
      have hmod : (q * volume matrix + r) % volume matrix = r := by
        rw [Nat.mul_comm, Nat.mul_add_mod, Nat.mod_eq_of_lt hr]
      rw [List.reverse_cons, places_append, ← places_mod matrix.reverse, radix_reverse hmatrix,
        hdiv, hmod, places, places, hmax, Nat.mod_eq_of_lt hq]
      rfl
    rw [hvolume, range_mul, List.map_flatMap, List.map_cons, product, ← ih hmatrix]
    refine List.flatMap_congr fun q hq => ?_
    rw [List.map_map, List.map_map]
    exact List.map_congr_left fun r hr => hdigits q (List.mem_range.1 hq) r (List.mem_range.1 hr)

theorem toList_eq (axis : Axis) :
    axis.toList = (List.range axis.size).map fun place => (axis.valueAt? place).getD .null := by
  rw [Axis.toList, ← List.filterMap_eq_map]
  refine List.filterMap_congr fun place hplace => ?_
  obtain ⟨v, hv⟩ := exists_valueAt? (List.mem_range.1 hplace)
  rw [Function.comp_apply, hv]
  rfl

theorem combinations_eq (matrix : List (String × Axis)) :
    combinations matrix = (product (matrix.map fun e => List.range e.2.size)).map
      (List.zipWith candidate matrix) := by
  induction matrix with
  | nil => rfl
  | cons e matrix ih =>
    have hcombinations : combinations (e :: matrix) =
        (e.2.toList.map (e.1, ·)).flatMap fun x => (combinations matrix).map (x :: ·) := rfl
    rw [hcombinations, ih, toList_eq, List.map_cons, product, List.map_flatMap, List.map_map,
      List.flatMap_map]
    simp only [List.map_map]
    rfl

/-- A grid is counted in full, but for the limit. -/
theorem gridSize_eq (s : Sweep) : s.gridSize = min (volume s.matrix) countLimit := by
  have hfold : ∀ (matrix : List (String × Axis)) (n : Nat),
      matrix.foldl (fun size e => min (size * e.2.size) countLimit) (min n countLimit) =
        min (n * volume matrix) countLimit := by
    intro matrix
    induction matrix with
    | nil => intro n; rw [volume]; simp
    | cons e matrix ih =>
      intro n
      have hstep :
          min (min n countLimit * e.2.size) countLimit = min (n * e.2.size) countLimit := by
        rcases Nat.le_total n countLimit with hn | hn
        · rw [Nat.min_eq_left hn]
        · -- Beyond the limit the size is either none or at the limit.
          rw [Nat.min_eq_right hn]
          rcases Nat.eq_zero_or_pos e.2.size with hzero | hpos
          · rw [hzero, Nat.mul_zero, Nat.mul_zero]
          · have hlimit : countLimit ≤ countLimit * e.2.size := Nat.le_mul_of_pos_right _ hpos
            have hmore : countLimit * e.2.size ≤ n * e.2.size := Nat.mul_le_mul_right _ hn
            omega
      rw [List.foldl_cons, hstep, ih, Nat.mul_assoc]
      rfl
  have h := hfold s.matrix 1
  rwa [Nat.one_mul] at h

theorem suggestionCount_le (s : Sweep) : s.suggestionCount ≤ volume s.matrix := by
  have hgrid : s.gridSize ≤ volume s.matrix := by
    rw [gridSize_eq]
    exact Nat.min_le_left _ _
  unfold suggestionCount
  split
  · exact Nat.le_trans (Nat.min_le_left _ _) hgrid
  · exact hgrid

theorem volume_pos_iff : 0 < volume matrix ↔ ∀ e ∈ matrix, 0 < e.2.size := by
  rw [volume, List.prod_pos_iff_forall_pos_nat, List.forall_mem_map]

theorem suggestionCount_eq_zero_or (s : Sweep) :
    s.suggestionCount = 0 ∨ ∀ e ∈ s.matrix, 0 < e.2.size := by
  have hcount := suggestionCount_le s
  rcases Nat.eq_zero_or_pos (volume s.matrix) with hzero | hpos
  · left
    omega
  · right
    exact volume_pos_iff.1 hpos

/-- The picks are the first places of all, as many as there are suggestions. -/
theorem picks_eq_take (s : Sweep) :
    s.picks = (product (s.matrix.map fun e => List.range e.2.size)).take s.suggestionCount := by
  rcases suggestionCount_eq_zero_or s with hzero | hsizes
  · rw [picks, hzero]
    rfl
  · rw [← map_places hsizes, ← List.map_take, List.take_range,
      Nat.min_eq_left (suggestionCount_le s)]
    rfl

/-- A suggestion is what stands at the places picked for it. -/
theorem suggestions_eq_map_picks (s : Sweep) :
    s.suggestions = s.picks.map (List.zipWith candidate s.matrix) := by
  rcases suggestionCount_eq_zero_or s with hzero | hsizes
  · rw [suggestions, picks, hzero]
    rfl
  · have hreverse : ∀ e ∈ s.matrix.reverse, 0 < e.2.size :=
      fun e he => hsizes e (List.mem_reverse.1 he)
    rw [suggestions, picks, List.map_map]
    refine List.map_congr_left fun index _ => ?_
    rw [suggestionAt, pick_eq hreverse, List.reverse_reverse]
    rfl

theorem suggestions_eq_take (s : Sweep) :
    s.suggestions = (combinations s.matrix).take s.suggestionCount := by
  rw [suggestions_eq_map_picks, picks_eq_take, combinations_eq, List.map_take]

theorem nodup_picks (s : Sweep) : s.picks.Nodup := by
  rw [picks_eq_take]
  apply List.Nodup.sublist (List.take_sublist _ _)
  apply nodup_product
  intro l hl
  obtain ⟨e, -, rfl⟩ := List.mem_map.1 hl
  exact List.nodup_range

/-- A grid with as many suggestions as combinations picks all places. -/
theorem picks_of_count (h : s.suggestionCount = volume s.matrix) :
    s.picks = product (s.matrix.map fun e => List.range e.2.size) := by
  rw [picks_eq_take, h, List.take_of_length_le]
  rw [length_product, List.map_map, volume]
  simp only [Function.comp_def, List.length_range, Nat.le_refl]

theorem mem_picks_of_count (h : s.suggestionCount = volume s.matrix) {ps : List Nat} :
    ps ∈ s.picks ↔ List.Forall₂ (fun p e => p < e.2.size) ps s.matrix := by
  rw [picks_of_count h, mem_product, List.forall₂_map_right_iff]
  simp only [List.mem_range]

theorem keys_zipWith {ps : List Nat} (h : ps.length = matrix.length) :
    Mapping.keys (List.zipWith candidate matrix ps) = matrix.map Prod.fst := by
  induction matrix generalizing ps with
  | nil => cases ps <;> rfl
  | cons e matrix ih =>
    cases ps with
    | nil => cases h
    | cons p ps => exact congrArg (e.1 :: ·) (ih (Nat.succ.inj h))

theorem keys_of_mem_suggestions {m : Mapping} (h : m ∈ s.suggestions) :
    Mapping.keys m = s.matrix.map Prod.fst := by
  rw [suggestions_eq_map_picks] at h
  obtain ⟨ps, hps, rfl⟩ := List.mem_map.1 h
  obtain ⟨index, -, rfl⟩ := List.mem_map.1 hps
  apply keys_zipWith
  rw [length_places, List.length_reverse]

/-- The same sweep as a grid with a limit, or without one. -/
def limited (s : Sweep) (limit : Option UInt64) : Sweep := { s with grid := some ⟨limit⟩ }

theorem suggestions_prefix {t : Sweep} (hmatrix : s.matrix = t.matrix)
    (h : s.suggestionCount ≤ t.suggestionCount) : s.suggestions <+: t.suggestions := by
  have hrange : List.range s.suggestionCount <+: List.range t.suggestionCount := by
    rw [← Nat.min_eq_left h, ← List.take_range]
    exact List.take_prefix _ _
  have hat : s.suggestionAt = t.suggestionAt := by
    unfold suggestionAt
    rw [hmatrix]
  rw [suggestions, suggestions, hat]
  exact hrange.map t.suggestionAt

theorem suggestions_limited_prefix {fewer more : UInt64} (h : fewer ≤ more) :
    (s.limited (some fewer)).suggestions <+: (s.limited (some more)).suggestions := by
  have hle : fewer.toNat ≤ more.toNat := UInt64.le_iff_toNat_le.1 h
  have hcount : min s.gridSize fewer.toNat ≤ min s.gridSize more.toNat := by omega
  exact suggestions_prefix (t := s.limited (some more)) rfl hcount

theorem suggestions_limited_prefix_all (limit : UInt64) :
    (s.limited (some limit)).suggestions <+: (s.limited none).suggestions :=
  suggestions_prefix rfl (Nat.min_le_left s.gridSize limit.toNat)

theorem suggestionCount_of_unlimited (hlimit : s.grid.bind GridSearch.experiments = none)
    (hsize : volume s.matrix ≤ countLimit) : s.suggestionCount = volume s.matrix := by
  unfold suggestionCount
  rw [hlimit, gridSize_eq]
  exact Nat.min_eq_left hsize

/-- The suggestions of a grid are the first of the combinations of its candidates. Each binds
the parameters in ascending order of their names, no two are picked from the same places, and
without a limit every choice of places is picked once. The order in which the parameters are
written does not count, and a lower limit leaves the first of the suggestions. -/
theorem suggestions_enumerate_grid (hnames : (s.matrix.map Prod.fst).Pairwise (· < ·)) :
    s.suggestions = (combinations s.matrix).take s.suggestionCount ∧
    (∀ m ∈ s.suggestions, Mapping.keys m = s.matrix.map Prod.fst ∧
      (Mapping.keys m).Pairwise (· < ·)) ∧
    s.suggestions = s.picks.map (List.zipWith candidate s.matrix) ∧ s.picks.Nodup ∧
    (s.grid.bind GridSearch.experiments = none → volume s.matrix ≤ countLimit →
      s.suggestions = combinations s.matrix ∧
      ∀ ps, List.Forall₂ (fun p e => p < e.2.size) ps s.matrix → s.picks.count ps = 1) ∧
    (∀ written, written.Perm s.matrix → Codec.sortByKey written = s.matrix) ∧
    (∀ before after written other : Mapping, (Mapping.keys written).Nodup → written.Perm other →
      codec.decode (.map (before ++ ("matrix", .map written) :: after)) = .ok s →
      codec.decode (.map (before ++ ("matrix", .map other) :: after)) = .ok s) ∧
    (∀ fewer more, fewer ≤ more →
      (s.limited (some fewer)).suggestions <+: (s.limited (some more)).suggestions) ∧
    ∀ limit, (s.limited (some limit)).suggestions <+: (s.limited none).suggestions := by
  refine ⟨suggestions_eq_take s, fun m hm => ?_, suggestions_eq_map_picks s, nodup_picks s,
    fun hlimit hsize => ?_, fun _ hperm => Codec.sortByKey_eq_of_perm hnames hperm,
    fun _ _ _ _ hkeys hperm h => decode_matrix_perm hkeys hperm h,
    fun _ _ h => suggestions_limited_prefix h, suggestions_limited_prefix_all⟩
  · have hkeys := keys_of_mem_suggestions hm
    exact ⟨hkeys, hkeys ▸ hnames⟩
  · have hcount := suggestionCount_of_unlimited hlimit hsize
    constructor
    · rw [suggestions_eq_map_picks, picks_of_count hcount, combinations_eq]
    · intro ps hps
      exact List.count_eq_one_of_mem (nodup_picks s) ((mem_picks_of_count hcount).2 hps)

/-- Three suggestions out of the four of a grid, of which one parameter is a range. -/
def cappedGrid : Sweep where
  matrix := [("batch", .range 16.0 48.0 16.0), ("rate", .values [.str "low", .str "high"])]
  grid := some ⟨some 3⟩

theorem suggestions_enumerate_cappedGrid :
    (cappedGrid.matrix.map Prod.fst).Pairwise (· < ·) ∧ cappedGrid.suggestionCount = 3 ∧
      cappedGrid.suggestions = (combinations cappedGrid.matrix).take 3 ∧
      cappedGrid.suggestions = [[("batch", .int 16), ("rate", .str "low")],
        [("batch", .int 16), ("rate", .str "high")], [("batch", .int 32), ("rate", .str "low")]] ∧
      cappedGrid.picks = [[0, 0], [0, 1], [1, 0]] ∧ cappedGrid.picks.Nodup := by
  have hnames : (cappedGrid.matrix.map Prod.fst).Pairwise (· < ·) := by decide
  have hcount : cappedGrid.suggestionCount = 3 := by decide +kernel
  obtain ⟨htake, -, -, hnodup, -⟩ := suggestions_enumerate_grid hnames
  exact ⟨hnames, hcount, hcount ▸ htake, by rfl, by decide +kernel, hnodup⟩

end Sweep

end WorkloadSpec
