import WorkloadSpec.Proofs.LossRoundTrip
import WorkloadSpec.Proofs.OptimizerRoundTrip
import WorkloadSpec.Proofs.RoundTrip
import WorkloadSpec.Section.Run

/-!
A run reads back as it was written: the command the same, the loss and the optimizer
with numerically equal doubles. For the loss this takes the name it goes by, which every
loss that was made has.
-/
namespace WorkloadSpec

open Variant

namespace Command

theorem encode_ne_null (c : Command) : c.encode ≠ .null := by
  cases c <;> simp [encode]

theorem decode_encode (c : Command) : decode c.encode = .ok c := by
  cases c with
  | line text => rfl
  | steps texts =>
    have hread : Codec.string.list.decode (.seq (texts.map .str)) = .ok texts :=
      Codec.list_restores fun text _ => Codec.string_restores text
    rw [encode, decode, hread]
    · rfl
    · simp

end Command

namespace Run

/-- The same run with numerically equal doubles. -/
structure Same (r s : Run) : Prop where
  cmd : r.cmd = s.cmd
  loss : Option.Rel Loss.Same r.loss s.loss
  optimizer : Option.Rel Optimizer.Same r.optimizer s.optimizer

/-- What is made of the fields of a run that are given. -/
def ofFields (cmd loss optimizer : Option Value) : Except ResolutionError Run := do
  let cmd ← cmd.mapM fun v =>
    (Command.decode v).mapError fun e => .document (.invalidSection .run (.decode e))
  let loss ← loss.mapM fun v => Loss.family.make v
  let optimizer ← optimizer.mapM fun v => Optimizer.family.make v
  pure { cmd, loss, optimizer }

/-- No field is unknown. -/
def Known (entries : Mapping) : Prop :=
  entries.find? (fun e => !fieldNames.contains e.1) = none

theorem ofMapping_eq {entries : Mapping} (h : Known entries) :
    ofMapping entries =
      ofFields (given entries "cmd") (given entries "loss") (given entries "optimizer") := by
  rw [ofMapping, h]
  rfl

theorem known_of_ofMapping {entries : Mapping} {r : Run} (h : ofMapping entries = .ok r) :
    Known entries := by
  unfold ofMapping at h
  split at h
  · cases h
  · next hfind => exact Option.eq_none_iff_forall_ne_some.2 hfind

/-- What is written of a run whose fields are written as given. -/
def entries (cmd loss optimizer : Option Value) : Mapping :=
  (cmd.map ("cmd", ·)).toList ++ (loss.map ("loss", ·)).toList ++
    (optimizer.map ("optimizer", ·)).toList

theorem toValue_eq (r : Run) : r.toValue = .map (entries (r.cmd.map Command.encode)
    (r.loss.map Loss.toValue) (r.optimizer.map Optimizer.toValue)) := by
  simp only [toValue, entries, Option.map_map]
  rfl

theorem known_entries (cmd loss optimizer : Option Value) :
    Known (entries cmd loss optimizer) := by
  cases cmd <;> cases loss <;> cases optimizer <;> rfl

theorem lookup_entries (cmd loss optimizer : Option Value) :
    (entries cmd loss optimizer).lookup "cmd" = cmd ∧
      (entries cmd loss optimizer).lookup "loss" = loss ∧
      (entries cmd loss optimizer).lookup "optimizer" = optimizer := by
  cases cmd <;> cases loss <;> cases optimizer <;> exact ⟨rfl, rfl, rfl⟩

theorem given_eq {m : Mapping} {field : String} {o : Option Value} (h : m.lookup field = o)
    (hnull : ∀ v ∈ o, v ≠ .null) : given m field = o := by
  rw [given, h]
  cases o with
  | none => rfl
  | some v =>
    have hfull : v.isNull = false := Bool.eq_false_iff.2 fun hv =>
      hnull v rfl (Value.isNull_iff.1 hv)
    rw [Option.filter_some, hfull]
    rfl

theorem ne_null_of_mem_map {α : Type} {write : α → Value} (hwrite : ∀ a, write a ≠ .null)
    {o : Option α} : ∀ v ∈ o.map write, v ≠ .null := by
  intro v hv
  obtain ⟨a, -, rfl⟩ := Option.map_eq_some_iff.1 hv
  exact hwrite a

/-- An option whose content is written and made again, up to `R`. -/
theorem exists_mapM {α : Type} {R : α → α → Prop} {write : α → Value}
    {make : Value → Except ResolutionError α} {o : Option α}
    (h : ∀ a ∈ o, ∃ b, make (write a) = .ok b ∧ R b a ∧ write b = write a) :
    ∃ p, (o.map write).mapM make = .ok p ∧ Option.Rel R p o ∧ p.map write = o.map write := by
  cases o with
  | none => exact ⟨none, rfl, .none, rfl⟩
  | some a =>
    obtain ⟨b, hb, hrel, hwrite⟩ := h a rfl
    refine ⟨some b, Outcome.map_eq_ok.2 ⟨b, hb, rfl⟩, .some hrel, congrArg some hwrite⟩

/-- Losses that are made have the name they go by. -/
def Named (r : Run) : Prop := ∀ l ∈ r.loss, l.named = l

theorem named_of_ofMapping {m : Mapping} {r : Run} (h : ofMapping m = .ok r) : r.Named := by
  rw [ofMapping_eq (known_of_ofMapping h)] at h
  obtain ⟨cmd, -, h⟩ := Outcome.bind_eq_ok.1 h
  obtain ⟨loss, hloss, h⟩ := Outcome.bind_eq_ok.1 h
  obtain ⟨optimizer, -, h⟩ := Outcome.bind_eq_ok.1 h
  obtain rfl := Outcome.pure_eq_ok.1 h
  intro l hl
  obtain ⟨raw, hraw⟩ := Outcome.exists_of_mapM_option hloss hl
  exact Loss.named_of_make (Outcome.lift_variant_eq_ok.1 hraw)

/-- What is written of a run reads as the same run. -/
theorem exists_ofValue_toValue {r : Run} (h : r.Named) :
    ∃ s, ofValue r.toValue = .ok (some s) ∧ s.Same r ∧ s.toValue = r.toValue := by
  have hcmd : (r.cmd.map Command.encode).mapM (fun v => (Command.decode v).mapError
      fun e => ResolutionError.document (.invalidSection .run (.decode e))) = .ok r.cmd := by
    cases r.cmd with
    | none => rfl
    | some c => exact Outcome.map_eq_ok.2 ⟨c, Outcome.mapError_ok.2 c.decode_encode, rfl⟩
  obtain ⟨loss, hloss, hlosses, hlossValue⟩ : ∃ loss, (r.loss.map Loss.toValue).mapM
        (fun v => (liftM (Loss.family.make v) : Except ResolutionError Loss)) = .ok loss ∧
      Option.Rel Loss.Same loss r.loss ∧ loss.map Loss.toValue = r.loss.map Loss.toValue := by
    refine exists_mapM fun l hl => ?_
    obtain ⟨k, hk, hsame, hvalue⟩ := l.exists_make_toValue
    exact ⟨k, Outcome.lift_variant_eq_ok.2 hk, h l hl ▸ hsame, hvalue⟩
  obtain ⟨optimizer, hoptimizer, hoptimizers, hoptimizerValue⟩ :
      ∃ optimizer, (r.optimizer.map Optimizer.toValue).mapM
        (fun v => (liftM (Optimizer.family.make v) : Except ResolutionError Optimizer)) =
          .ok optimizer ∧
      Option.Rel Optimizer.Same optimizer r.optimizer ∧
      optimizer.map Optimizer.toValue = r.optimizer.map Optimizer.toValue := by
    refine exists_mapM fun o _ => ?_
    obtain ⟨p, hp, hsame, hvalue⟩ := o.exists_make_toValue
    exact ⟨p, Outcome.lift_variant_eq_ok.2 hp, hsame, hvalue⟩
  refine ⟨{ cmd := r.cmd, loss, optimizer }, ?_, ⟨rfl, hlosses, hoptimizers⟩, ?_⟩
  · rw [toValue_eq]
    refine Outcome.map_eq_ok.2 ⟨_, ?_, rfl⟩
    obtain ⟨hcmd', hloss', hoptimizer'⟩ := lookup_entries (r.cmd.map Command.encode)
      (r.loss.map Loss.toValue) (r.optimizer.map Optimizer.toValue)
    rw [ofMapping_eq (known_entries _ _ _),
      given_eq hcmd' (ne_null_of_mem_map Command.encode_ne_null),
      given_eq hloss' (ne_null_of_mem_map fun _ => Family.reduce_ne_null _ _),
      given_eq hoptimizer' (ne_null_of_mem_map fun _ => Family.reduce_ne_null _ _)]
    exact Outcome.bind_eq_ok.2 ⟨_, hcmd, Outcome.bind_eq_ok.2 ⟨_, hloss,
      Outcome.bind_eq_ok.2 ⟨_, hoptimizer, rfl⟩⟩⟩
  · rw [toValue_eq, toValue_eq, hlossValue, hoptimizerValue]

end Run

end WorkloadSpec
