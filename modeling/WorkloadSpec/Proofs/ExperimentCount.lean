import Mathlib.Tactic.MkIffOfInductiveProp
import Mathlib.Tactic.Tauto
import WorkloadSpec.Proofs.GridEnumeration
import WorkloadSpec.Proofs.SettingsRoundTrip
import WorkloadSpec.Summary

/-!
How many experiments an accepted sweep schedules. A check accepts a sweep just when its
conditions hold. These leave every parameter with a candidate and the grid small enough to
enumerate, so that the one way left to schedule nothing is to ask for no experiments.
-/
namespace WorkloadSpec

/-- Ends and steps that candidates can be counted from. -/
def Axis.Bounded : Axis → Prop
  | values _ => True
  | range start stop step =>
    start.isFinite = true ∧ stop.isFinite = true ∧ step.isFinite = true ∧ ¬step ≤ 0.0
  | linspace start stop _ | logspace start stop _ =>
    start.isFinite = true ∧ stop.isFinite = true

namespace Sweep

variable {s : Sweep}

/-- What a sweep asks of each of its parameters. -/
@[mk_iff]
structure Fit (axis : Axis) : Prop where
  bounded : axis.Bounded
  nonempty : 0 < axis.size
  small : axis.size ≤ maxValues

/-- What a check asks of a sweep. -/
@[mk_iff]
structure Accepted (s : Sweep) : Prop where
  concurrency : s.concurrency ≠ 0
  matrix : s.matrix ≠ []
  oneSearch : s.grid = none ∨ s.random = none
  fit : ∀ e ∈ s.matrix, Fit e.2
  small : s.random = none → s.suggestionCount ≤ maxSuggestions

theorem checkAxis_eq_ok {name : String} {axis : Axis} :
    checkAxis name axis = .ok () ↔ Fit axis := by
  rw [fit_iff, Nat.pos_iff_ne_zero, ← Nat.not_lt]
  unfold checkAxis
  cases axis with
  | values candidates =>
    simp only [Outcome.guard_bind_eq_ok, Outcome.guard_eq_ok, Outcome.pure_eq_ok, Axis.Bounded]
    tauto
  | _ =>
    simp only [Outcome.guard_bind_eq_ok, Outcome.guard_eq_ok, Outcome.pure_eq_ok, Axis.Bounded,
      Bool.not_eq_true', Bool.not_eq_false, Bool.and_eq_true]
    tauto

/-- A sweep is accepted for what it is, whichever condition is looked at first. -/
theorem check_eq_ok : s.check = .ok () ↔ s.Accepted := by
  have hmatrix : ¬s.matrix.isEmpty = true ↔ s.matrix ≠ [] := by rw [List.isEmpty_iff]
  have hsearch : ¬(s.grid.isSome = true ∧ s.random.isSome = true) ↔
      s.grid = none ∨ s.random = none := by
    rw [Option.isSome_iff_ne_none, Option.isSome_iff_ne_none]
    tauto
  have hfit : (s.matrix.forM fun e => checkAxis e.1 e.2) = .ok () ↔
      ∀ e ∈ s.matrix, Fit e.2 := by
    simp only [Outcome.forM_eq_ok, checkAxis_eq_ok]
  have hsmall : ¬(s.random.isNone = true ∧ maxSuggestions < s.suggestionCount) ↔
      (s.random = none → s.suggestionCount ≤ maxSuggestions) := by
    rw [Option.isNone_iff_eq_none, not_and, Nat.not_lt]
  rw [accepted_iff]
  unfold check
  simp only [Outcome.guard_bind_eq_ok, Outcome.guard_eq_ok, Outcome.bind_eq_ok, hmatrix, hsearch,
    hsmall]
  simp only [exists_const, hfit, Outcome.pure_eq_ok, and_true, ne_eq]

/-- The sweep asks for no experiments, by number. -/
def AsksForNone (s : Sweep) : Prop := s.random = some ⟨0⟩ ∨ s.grid = some ⟨some 0⟩

/-- The grid of an accepted sweep has a combination. -/
theorem Accepted.gridSize_pos (h : s.Accepted) : 0 < s.gridSize := by
  have hvolume : 0 < volume s.matrix := volume_pos_iff.2 fun e he => (h.fit e he).nonempty
  have hlimit : 0 < countLimit := by decide
  rw [gridSize_eq]
  omega

theorem toNat_eq_zero {n : UInt64} : n.toNat = 0 ↔ n = 0 := UInt64.toNat_inj (b := 0)

/-- A limit only takes from what there is, so that no limit but zero leaves nothing. -/
theorem Accepted.suggestionCount_eq_zero (h : s.Accepted) :
    s.suggestionCount = 0 ↔ s.grid = some ⟨some 0⟩ := by
  have hpos := h.gridSize_pos
  unfold suggestionCount
  cases hgrid : s.grid with
  | none =>
    simp only [Option.bind_none, reduceCtorEq, iff_false]
    omega
  | some grid =>
    obtain ⟨limit⟩ := grid
    cases limit with
    | none =>
      simp only [Option.bind_some, Option.some.injEq, GridSearch.mk.injEq, reduceCtorEq, iff_false]
      omega
    | some n =>
      have hzero : n.toNat = 0 ↔ n = 0 := toNat_eq_zero
      simp only [Option.bind_some, Option.some.injEq, GridSearch.mk.injEq, ← hzero]
      omega

theorem Accepted.experimentCount_eq_zero (h : s.Accepted) :
    s.experimentCount = 0 ↔ s.AsksForNone := by
  unfold experimentCount AsksForNone
  cases hrandom : s.random with
  | none => simp only [h.suggestionCount_eq_zero, reduceCtorEq, false_or]
  | some random =>
    have hgrid : s.grid = none := by
      rcases h.oneSearch with hgrid | hnone
      · exact hgrid
      · rw [hrandom] at hnone
        cases hnone
    obtain ⟨n⟩ := random
    simp only [hgrid, toNat_eq_zero, Option.some.injEq, RandomSearch.mk.injEq, reduceCtorEq,
      or_false]

/-- A summary reports the experiments of the sweep that the specification has. -/
theorem lookup_summary {t : Specification} (h : t.settings.sweep = some s) :
    ∃ entries, t.summary = .map entries ∧
      entries.lookup "experiments" = some (.int s.experimentCount) := by
  refine ⟨_, rfl, ?_⟩
  rw [h, Mapping.lookup_append_of_not_mem]
  · rfl
  · -- The entries before it have other keys, whichever of them are there.
    cases t.header.tags <;> cases t.header.backend <;> cases t.header.framework <;>
      simp [Mapping.keys]

/-- An accepted sweep schedules at least one experiment, unless it asks for none. Without a
random search the experiments are the suggestions of its grid, few enough to enumerate. The
count is what a summary reports. -/
theorem accepted_sweep_schedules {v : Value} (h : Settings.readSweep v = .ok (some s)) :
    (1 ≤ s.experimentCount ↔ ¬s.AsksForNone) ∧
    (s.random = none →
      s.experimentCount = s.suggestions.length ∧ s.experimentCount ≤ maxSuggestions) ∧
    ∀ t : Specification, t.settings.sweep = some s → ∃ entries, t.summary = .map entries ∧
      entries.lookup "experiments" = some (.int s.experimentCount) := by
  have haccepted : s.Accepted := check_eq_ok.1 (Settings.regular_of_readSweep h rfl).2
  refine ⟨?_, fun hrandom => ?_, fun t ht => lookup_summary ht⟩
  · have hzero := haccepted.experimentCount_eq_zero
    rw [← hzero]
    omega
  · have hcount : s.experimentCount = s.suggestionCount := by
      unfold experimentCount
      rw [hrandom]
    rw [hcount, length_suggestions]
    exact ⟨rfl, haccepted.small hrandom⟩

/-- Two batch sizes, of which a grid takes at most `n`. -/
def batches (n : UInt64) : Sweep where
  matrix := [("batch", .values [.int 16, .int 32])]
  grid := some ⟨some n⟩

def batchesValue (limit : Value) : Value :=
  .map [("matrix", .map [("batch", .map [("values", .seq [.int 16, .int 32])])]),
    ("grid_search", .map [("n_experiments", limit)])]

theorem check_batches (n : UInt64) : (batches n).check = .ok () := by
  have hconcurrency : (1 : UInt32) ≠ 0 := by decide
  refine check_eq_ok.2 ⟨hconcurrency, List.cons_ne_nil _ _, .inr rfl, ?_, ?_⟩
  · intro e he
    obtain rfl := List.mem_singleton.1 he
    exact ⟨trivial, by decide, by decide⟩
  · intro _
    have hsize : (batches n).gridSize = 2 := rfl
    have hcount : (batches n).suggestionCount = min 2 n.toNat := rfl
    have hmost : 2 ≤ maxSuggestions := by decide
    omega

/-- Whatever the limit, the sweep is accepted. -/
theorem readSweep_batches {limit : Value} {n : UInt64}
    (h : Codec.count.option.decode limit = .ok (some n)) :
    Settings.readSweep (batchesValue limit) = .ok (some (batches n)) := by
  have hmatrix : Axis.codec.sortedMap.decode
      (.map [("batch", .map [("values", .seq [.int 16, .int 32])])]) =
        .ok [("batch", .values [.int 16, .int 32])] :=
    Outcome.map_eq_ok.2 ⟨_, rfl, List.mergeSort_singleton _⟩
  have hgrid : GridSearch.record.codec.option.decode (.map [("n_experiments", limit)]) =
      .ok (some ⟨some n⟩) :=
    Outcome.map_eq_ok.2 ⟨_, Outcome.bind_eq_ok.2 ⟨_, Outcome.bind_eq_ok.2
      ⟨_, Outcome.map_eq_ok.2 ⟨_, h, rfl⟩, rfl⟩, rfl⟩, rfl⟩
  have hdecode : Sweep.codec.decode (batchesValue limit) = .ok (batches n) :=
    Outcome.bind_eq_ok.2 ⟨_, Outcome.bind_eq_ok.2 ⟨_, Outcome.map_eq_ok.2 ⟨_, hmatrix, rfl⟩,
      Outcome.bind_eq_ok.2 ⟨_, Outcome.map_eq_ok.2 ⟨_, hgrid, rfl⟩, rfl⟩⟩, rfl⟩
  have hread : readSection .hptuning Sweep.codec.option (batchesValue limit) =
      .ok (some (batches n)) :=
    Outcome.mapError_ok.2 (Outcome.map_eq_ok.2 ⟨_, hdecode, rfl⟩)
  exact Outcome.bind_eq_ok.2 ⟨_, hread, Outcome.bind_eq_ok.2
    ⟨(), Outcome.mapError_ok.2 (check_batches n), rfl⟩⟩

/-- More experiments are asked for than the grid has. -/
theorem accepted_sweep_schedules_batches :
    Settings.readSweep (batchesValue (.int 5)) = .ok (some (batches 5)) ∧
      1 ≤ (batches 5).experimentCount ∧
      (batches 5).experimentCount = (batches 5).suggestions.length ∧
      (batches 5).suggestions = [[("batch", .int 16)], [("batch", .int 32)]] := by
  have hread : Settings.readSweep (batchesValue (.int 5)) = .ok (some (batches 5)) :=
    readSweep_batches rfl
  obtain ⟨hpos, hgrid, -⟩ := accepted_sweep_schedules hread
  refine ⟨hread, hpos.2 ?_, (hgrid rfl).1, rfl⟩
  rintro (hrandom | hlimit)
  · cases hrandom
  · exact absurd hlimit (by decide)

/-- A limit of no suggestions is accepted and leaves nothing to schedule. -/
theorem exists_accepted_sweep_without_experiments :
    ¬∀ (v : Value) (s : Sweep), Settings.readSweep v = .ok (some s) → 1 ≤ s.experimentCount := by
  intro h
  have hread : Settings.readSweep (batchesValue (.int 0)) = .ok (some (batches 0)) :=
    readSweep_batches rfl
  have hcount : (batches 0).experimentCount = 0 := rfl
  have hpos := h _ _ hread
  omega

end Sweep

end WorkloadSpec
