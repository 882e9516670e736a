import WorkloadSpec.Proofs.RoundTrip
import WorkloadSpec.Section.Build
import WorkloadSpec.Section.Environment
import WorkloadSpec.Section.Sweep

/-!
The environment, the build and the sweep read back as they were written. For a sweep
this takes parameters in order and finite bounds, which every sweep that was read has.
-/
namespace WorkloadSpec

open Codec Record WorkloadSpec.Field

theorem Quota.restores (q : Quota) : Quota.record.codec.Restores q :=
  Record.restores (by decide) <|
    .cons (optional_carries double_ne_null (fun a _ => double_restores a) rfl) <|
    .cons (optional_carries double_ne_null (fun a _ => double_restores a) rfl) <|
    .nil rfl

theorem Resources.restores (r : Resources) : Resources.record.codec.Restores r :=
  Record.restores (by decide) <|
    .cons (optional_carries (encode_ne_null _) (fun a _ => a.restores) rfl) <|
    .cons (optional_carries (encode_ne_null _) (fun a _ => a.restores) rfl) <|
    .cons (optional_carries (encode_ne_null _) (fun a _ => a.restores) rfl) <|
    .cons (optional_carries (encode_ne_null _) (fun a _ => a.restores) rfl) <|
    .nil rfl

theorem Persistence.restores (p : Persistence) : Persistence.record.codec.Restores p :=
  Record.restores (by decide) <|
    .cons (many_carries (fun a _ => string_restores a) rfl) <|
    .cons (optional_carries string_ne_null (fun a _ => string_restores a) rfl) <|
    .nil rfl

theorem Outputs.restores (o : Outputs) : Outputs.record.codec.Restores o :=
  Record.restores (by decide) <|
    .cons (many_carries (fun v _ => value_restores v) rfl) <|
    .cons (many_carries (fun v _ => value_restores v) rfl) <|
    .nil rfl

theorem Environment.restores (e : Environment) : Environment.codec.Restores e :=
  Record.restores (by decide) <|
    .cons (optional_carries (encode_ne_null _) (fun a _ => a.restores) rfl) <|
    .cons (optional_carries mapping_ne_null (fun a _ => mapping_restores a) rfl) <|
    .cons (optional_carries mapping_ne_null (fun a _ => mapping_restores a) rfl) <|
    .cons (many_carries (fun a _ => mapping_restores a) rfl) <|
    .cons (optional_carries (encode_ne_null _) (fun a _ => a.restores) rfl) <|
    .cons (optional_carries (encode_ne_null _) (fun a _ => a.restores) rfl) <|
    .cons (many_carries (fun a _ => string_restores a) rfl) <|
    .cons (many_carries (fun a _ => string_restores a) rfl) <|
    .nil rfl

theorem Variable.restores (x : Variable) : Variable.codec.Restores x := rfl

theorem Build.restores (b : Build) : Build.codec.Restores b :=
  Record.restores (by decide) <|
    .cons (required_carries (string_restores b.image)) <|
    .cons (many_carries (fun a _ => string_restores a) rfl) <|
    .cons (many_carries (fun a _ => a.restores) rfl) <|
    .cons (optional_carries string_ne_null (fun a _ => string_restores a) rfl) <|
    .cons (optional_carries string_ne_null (fun a _ => string_restores a) rfl) <|
    .cons (optional_carries string_ne_null (fun a _ => string_restores a) rfl) <|
    .cons (optional_carries string_ne_null (fun a _ => string_restores a) rfl) <|
    .cons (optional_carries bool_ne_null (fun a _ => bool_restores a) rfl) <|
    .nil rfl

theorem GridSearch.restores (g : GridSearch) : GridSearch.record.codec.Restores g :=
  Record.restores (by decide) <|
    .cons (optional_carries natural_ne_null (fun a _ => count_restores a) rfl) <|
    .nil rfl

theorem RandomSearch.restores (r : RandomSearch) : RandomSearch.record.codec.Restores r :=
  Record.restores (by decide) <|
    .cons (required_carries (count_restores r.experiments)) <|
    .nil rfl

theorem Goal.restores (g : Goal) : Goal.codec.Restores g :=
  choice_restores (by cases g <;> rfl)

theorem EarlyStopping.restores (e : EarlyStopping) : EarlyStopping.record.codec.Restores e :=
  Record.restores (by decide) <|
    .cons (required_carries (string_restores e.metric)) <|
    .cons (required_carries (double_restores e.value)) <|
    .cons (defaulted_carries e.goal.restores) <|
    .nil rfl

namespace Axis

/-- No bound is infinite or no number. -/
def Finite : Axis → Prop
  | values _ => True
  | range start stop step =>
    start.isFinite = true ∧ stop.isFinite = true ∧ step.isFinite = true
  | linspace start stop _ | logspace start stop _ =>
    start.isFinite = true ∧ stop.isFinite = true

theorem triple_eq_ok {α : Type} {title : String} {last : Codec α} {content : Option Value}
    {row : Float × Float × α} (h : triple title last content = .ok row) :
    row.1.isFinite = true ∧ row.2.1.isFinite = true := by
  unfold triple at h
  split at h
  · cases h
  · cases h
  · obtain ⟨a, -, h⟩ := Outcome.bind_eq_ok.1 h
    obtain ⟨b, -, h⟩ := Outcome.bind_eq_ok.1 h
    obtain ⟨c, -, h⟩ := Outcome.bind_eq_ok.1 h
    split at h
    · cases h
    · cases h
      exact ⟨a.finite, b.finite⟩
  · cases h

theorem triple_restores {α : Type} (title : String) {last : Codec α} {a : α}
    (start stop : Double) (h : last.Restores a) :
    triple title last (some (.seq [.float start, .float stop, last.encode a])) =
      .ok (start.val, stop.val, a) :=
  Outcome.bind_eq_ok.2 ⟨start, rfl, Outcome.bind_eq_ok.2 ⟨stop, rfl,
    Outcome.bind_eq_ok.2 ⟨a, h, rfl⟩⟩⟩

/-- Bounds are read as doubles, so they are finite. -/
theorem finite_of_decode {v : Value} {axis : Axis} (h : decode v = .ok axis) : axis.Finite := by
  obtain ⟨⟨name, content⟩, -, h⟩ := Outcome.bind_eq_ok.1 h
  dsimp only at h
  split at h
  · split at h
    · cases h
    · obtain ⟨_, -, rfl⟩ := Outcome.map_eq_ok.1 h
      trivial
  · obtain ⟨⟨start, stop, step⟩, hrow, h⟩ := Outcome.bind_eq_ok.1 h
    cases h
    exact ⟨(triple_eq_ok hrow).1, (triple_eq_ok hrow).2, step.finite⟩
  · obtain ⟨row, hrow, h⟩ := Outcome.bind_eq_ok.1 h
    cases h
    exact triple_eq_ok hrow
  · obtain ⟨row, hrow, h⟩ := Outcome.bind_eq_ok.1 h
    cases h
    exact triple_eq_ok hrow
  · cases h

theorem bound_of_finite {x : Float} (h : x.isFinite = true) : bound x = .float ⟨x, h⟩ := by
  unfold bound
  rw [Double.ofFloat?_val ⟨x, h⟩]
  rfl

theorem restores {axis : Axis} (h : axis.Finite) : codec.Restores axis := by
  cases axis with
  | values candidates =>
    have hread : value.list.decode (.seq candidates) = .ok candidates :=
      Outcome.mapM_eq_ok.2 (List.forall₂_same.2 fun v _ => value_restores v)
    exact Outcome.bind_eq_ok.2 ⟨("values", _), rfl, Outcome.map_eq_ok.2 ⟨_, hread, rfl⟩⟩
  | range start stop step =>
    obtain ⟨hstart, hstop, hstep⟩ := h
    have hrow := triple_restores "Range" ⟨start, hstart⟩ ⟨stop, hstop⟩
      (double_restores ⟨step, hstep⟩)
    change decode (encode (range start stop step)) = _
    rw [encode, bound_of_finite hstart, bound_of_finite hstop, bound_of_finite hstep]
    exact Outcome.bind_eq_ok.2 ⟨("range", _), rfl, Outcome.bind_eq_ok.2 ⟨_, hrow, rfl⟩⟩
  | linspace start stop num =>
    have hrow := triple_restores "Linspace" ⟨start, h.1⟩ ⟨stop, h.2⟩
      (natural32_restores num)
    change decode (encode (linspace start stop num)) = _
    rw [encode, bound_of_finite h.1, bound_of_finite h.2]
    exact Outcome.bind_eq_ok.2 ⟨("linspace", _), rfl, Outcome.bind_eq_ok.2 ⟨_, hrow, rfl⟩⟩
  | logspace start stop num =>
    have hrow := triple_restores "Logspace" ⟨start, h.1⟩ ⟨stop, h.2⟩
      (natural32_restores num)
    change decode (encode (logspace start stop num)) = _
    rw [encode, bound_of_finite h.1, bound_of_finite h.2]
    exact Outcome.bind_eq_ok.2 ⟨("logspace", _), rfl, Outcome.bind_eq_ok.2 ⟨_, hrow, rfl⟩⟩

end Axis

namespace Sweep

/-- Parameters in the order of their names, with finite bounds. -/
structure Regular (s : Sweep) : Prop where
  ascending : Ascending s.matrix
  finite : ∀ e ∈ s.matrix, e.2.Finite

theorem regular_of_decode {v : Value} {s : Sweep} (h : codec.decode v = .ok s) :
    s.Regular := by
  have hblank : record.blank.Regular := ⟨List.Pairwise.nil, List.forall_mem_nil _⟩
  refine Record.decode_preserves hblank ?_ h
  simp only [record, List.forall_mem_cons]
  -- Only the third field, the matrix, is not kept as it was.
  refine ⟨fun _ _ _ ht => Outcome.map_preserves fun _ _ => ⟨ht.ascending, ht.finite⟩,
    fun _ _ _ ht => Outcome.map_preserves fun _ _ => ⟨ht.ascending, ht.finite⟩, ?_,
    fun _ _ _ ht => Outcome.map_preserves fun _ _ => ⟨ht.ascending, ht.finite⟩,
    fun _ _ _ ht => Outcome.map_preserves fun _ _ => ⟨ht.ascending, ht.finite⟩,
    fun _ _ _ ht => Outcome.map_preserves fun _ _ => ⟨ht.ascending, ht.finite⟩,
    List.forall_mem_nil _⟩
  intro v t u _
  refine Outcome.map_preserves fun matrix hmatrix => ?_
  obtain ⟨hascending, hread⟩ := sortedMap_decode hmatrix
  refine ⟨hascending, fun e he => ?_⟩
  obtain ⟨w, hw⟩ := hread e he
  exact Axis.finite_of_decode hw

theorem restores {s : Sweep} (h : s.Regular) : codec.Restores s :=
  Record.restores (by decide) <|
    .cons (defaulted_carries (natural32_restores s.concurrency)) <|
    .cons (optional_carries natural_ne_null (fun a _ => natural64_restores a) rfl) <|
    .cons (required_carries
      (sortedMap_restores h.ascending fun e he => Axis.restores (h.finite e he))) <|
    .cons (optional_carries (encode_ne_null _) (fun a _ => a.restores) rfl) <|
    .cons (optional_carries (encode_ne_null _) (fun a _ => a.restores) rfl) <|
    .cons (many_carries (fun a _ => a.restores) rfl) <|
    .nil rfl

end Sweep

end WorkloadSpec
