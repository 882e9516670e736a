import WorkloadSpec.Section.Axis

/-!
The hyperparameter section of a group: a matrix of parameters, searched as a
grid or at random. A grid is counted in full, with the count held within 64
bits, but only the suggestions asked for are produced: the last parameter varies
fastest.
-/
namespace WorkloadSpec

structure GridSearch where
  /-- At most so many suggestions; all of them when unset. -/
  experiments : Option UInt64 := none
  deriving DecidableEq

def GridSearch.record : Record GridSearch where
  title := "GridSearchConfig"
  blank := {}
  fields := [.optional "n_experiments" .count experiments fun s x => { s with experiments := x }]

structure RandomSearch where
  experiments : UInt64
  deriving DecidableEq

def RandomSearch.record : Record RandomSearch where
  title := "RandomSearchConfig"
  blank := ⟨0⟩
  fields := [.required "n_experiments" .count experiments fun s x => { s with experiments := x }]

inductive Goal where
  | maximize
  | minimize
  deriving DecidableEq, Repr

namespace Goal

def name : Goal → String
  | maximize => "maximize"
  | minimize => "minimize"

def codec : Codec Goal := .choice ([maximize, minimize].map fun g => (g.name, g)) name

end Goal

/-- A group stops once the metric reaches the value. -/
structure EarlyStopping where
  metric : String
  value : Double
  goal : Goal := .maximize
  deriving DecidableEq

def EarlyStopping.record : Record EarlyStopping where
  title := "EarlyStoppingMetric"
  blank := { metric := "", value := .zero }
  fields :=
    [.required "metric" .string metric fun s x => { s with metric := x },
      .required "value" .double value fun s x => { s with value := x },
      .defaulted "optimization" Goal.codec goal fun s x => { s with goal := x }]

structure Sweep where
  /-- How many experiments run at the same time. -/
  concurrency : UInt32 := 1
  seed : Option UInt64 := none
  /-- Parameters in ascending order of their names. -/
  matrix : List (String × Axis)
  grid : Option GridSearch := none
  random : Option RandomSearch := none
  earlyStopping : List EarlyStopping := []

/-- Why a sweep that could be read is refused. -/
inductive SweepFault where
  | noConcurrency
  | emptyMatrix
  | twoSearches
  | infiniteRange (name : String)
  | stepNotPositive (name : String)
  | infiniteBounds (name : String)
  | noValues (name : String)
  | tooManyValues (name : String) (size : Nat)
  | gridTooLarge (size : Nat)
  deriving DecidableEq

namespace Sweep

def record : Record Sweep where
  title := "HpTuningConfig"
  blank := { matrix := [] }
  fields :=
    [.defaulted "concurrency" .natural32 concurrency fun s x => { s with concurrency := x },
      .optional "seed" .natural64 seed fun s x => { s with seed := x },
      .required "matrix" (.sortedMap Axis.codec) matrix fun s x => { s with matrix := x },
      .optional "grid_search" GridSearch.record.codec grid fun s x => { s with grid := x },
      .optional "random_search" RandomSearch.record.codec random fun s x => { s with random := x },
      .many "early_stopping" EarlyStopping.record.codec earlyStopping
        fun s x => { s with earlyStopping := x }]

def codec : Codec Sweep := record.codec

/-- Most values one parameter may have. -/
def maxValues : Nat := 10000

/-- Most suggestions a grid may have. -/
def maxSuggestions : Nat := 100000

def gridSize (s : Sweep) : Nat :=
  s.matrix.foldl (fun size entry => min (size * entry.2.size) countLimit) 1

def suggestionCount (s : Sweep) : Nat :=
  match s.grid.bind GridSearch.experiments with
  | some limit => min s.gridSize limit.toNat
  | none => s.gridSize

/-- One candidate for each parameter, decoded from an index whose last digit
belongs to the first entry. -/
def pick : List (String × Axis) → Nat → Mapping
  | [], _ => []
  | (name, axis) :: rest, index =>
    let size := max axis.size 1
    pick rest (index / size) ++ ((axis.valueAt? (index % size)).map (name, ·)).toList

def suggestionAt (s : Sweep) (index : Nat) : Mapping := pick s.matrix.reverse index

def suggestions (s : Sweep) : List Mapping := (List.range s.suggestionCount).map s.suggestionAt

theorem length_suggestions (s : Sweep) : s.suggestions.length = s.suggestionCount := by
  simp [suggestions]

def checkAxis (name : String) (axis : Axis) : Except SweepFault Unit := do
  match axis with
  | .range start stop step =>
    if !(start.isFinite && stop.isFinite && step.isFinite) then .error (.infiniteRange name)
    if step ≤ 0.0 then .error (.stepNotPositive name)
  | .linspace start stop _ | .logspace start stop _ =>
    if !(start.isFinite && stop.isFinite) then .error (.infiniteBounds name)
  | .values _ => pure ()
  if axis.size = 0 then .error (.noValues name)
  if maxValues < axis.size then .error (.tooManyValues name axis.size)

def check (s : Sweep) : Except SweepFault Unit := do
  if s.concurrency = 0 then .error .noConcurrency
  if s.matrix.isEmpty then .error .emptyMatrix
  if s.grid.isSome ∧ s.random.isSome then .error .twoSearches
  s.matrix.forM fun (name, axis) => checkAxis name axis
  if s.random.isNone ∧ maxSuggestions < s.suggestionCount then .error (.gridTooLarge s.gridSize)

/-- How many experiments a group schedules. -/
def experimentCount (s : Sweep) : Nat :=
  match s.random with
  | some random => random.experiments.toNat
  | none => s.suggestionCount

end Sweep

def SweepFault.message : SweepFault → String
  | noConcurrency => "concurrency must be at least 1"
  | emptyMatrix => "matrix must declare at least one hyperparameter"
  | twoSearches => "grid_search and random_search are mutually exclusive"
  | infiniteRange name => s!"matrix `{name}` range bounds must be finite"
  | stepNotPositive name => s!"matrix `{name}` range step must be positive"
  | infiniteBounds name => s!"matrix `{name}` bounds must be finite"
  | noValues name => s!"matrix `{name}` declares no values"
  | tooManyValues name size =>
    s!"matrix `{name}` declares {size} values; at most {Sweep.maxValues} are allowed"
  | gridTooLarge size =>
    s!"the grid has {size} combinations; at most {Sweep.maxSuggestions} are allowed, " ++
      "set grid_search.n_experiments to sample fewer"

end WorkloadSpec
