import WorkloadSpec.Proofs.RunRoundTrip
import WorkloadSpec.Specification

/-!
What the stages after the checks of version, kind and keys can fail with. They look into the
sections, so they fail with a fault in the content of one, with an operator that cannot be
expanded, or with a selection that a family refuses, and never with anything else. A chain of
steps fails as one of its steps does, so this is read off step by step.
-/
namespace WorkloadSpec

namespace Outcome

variable {ε δ α β : Type} {P : ε → Prop} {Q : δ → Prop}

/-- Whatever a step fails with has a property. -/
def FailsWith (P : ε → Prop) (x : Except ε α) : Prop := ∀ e, x = .error e → P e

theorem failsWith_ok (a : α) : FailsWith P (.ok a : Except ε α) := by
  intro e h
  cases h

theorem failsWith_error {e : ε} (h : P e) : FailsWith P (.error e : Except ε α) := by
  intro e' h'
  exact Except.error.inj h' ▸ h

theorem FailsWith.bind {x : Except ε α} {f : α → Except ε β} (hx : FailsWith P x)
    (hf : ∀ a, FailsWith P (f a)) : FailsWith P (x >>= f) := by
  intro e h
  rcases bind_eq_error.1 h with h | ⟨a, -, h⟩
  · exact hx e h
  · exact hf a e h

theorem FailsWith.map {x : Except ε α} (f : α → β) (hx : FailsWith P x) :
    FailsWith P (f <$> x) := by
  cases x with
  | error e => exact failsWith_error (hx e rfl)
  | ok a => exact failsWith_ok (f a)

theorem FailsWith.mapError {x : Except ε α} {f : ε → δ} (hx : FailsWith P x)
    (h : ∀ e, P e → Q (f e)) : FailsWith Q (x.mapError f) := by
  cases x with
  | error e => exact failsWith_error (h e (hx e rfl))
  | ok a => exact failsWith_ok a

/-- A step whose errors are all renamed. -/
theorem failsWith_mapError {x : Except ε α} {f : ε → δ} (h : ∀ e, Q (f e)) :
    FailsWith Q (x.mapError f) :=
  FailsWith.mapError (P := fun _ => True) (fun _ _ => trivial) fun e _ => h e

theorem failsWith_mapM {f : α → Except ε β} {xs : List α} (h : ∀ x, FailsWith P (f x)) :
    FailsWith P (xs.mapM f) := by
  intro e he
  obtain ⟨-, x, -, -, -, hx⟩ := mapM_eq_error.1 he
  exact h x e hx

theorem failsWith_mapM_option {f : α → Except ε β} {o : Option α} (h : ∀ x, FailsWith P (f x)) :
    FailsWith P (o.mapM f) := by
  cases o with
  | none => exact failsWith_ok none
  | some x => exact (h x).map some

theorem failsWith_foldlM {f : β → α → Except ε β} {xs : List α} (b : β)
    (h : ∀ b x, FailsWith P (f b x)) : FailsWith P (xs.foldlM f b) := by
  induction xs generalizing b with
  | nil => exact failsWith_ok b
  | cons x xs ih => exact (h b x).bind ih

end Outcome

open Outcome

/-- The error finds fault with what a section holds. -/
def DocumentError.ConcernsContent (e : DocumentError) : Prop :=
  ∃ place fault, e = .invalidSection place fault

/-- The error finds fault with what a section holds, with an operator in it or with a selection. -/
inductive ResolutionError.ConcernsContent : ResolutionError → Prop
  | invalid (place : Section) (fault : SectionFault) :
    ConcernsContent (.document (.invalidSection place fault))
  | operator (e : OperatorError) (place : Option Section) : ConcernsContent (.operator e place)
  | variant (e : VariantError) : ConcernsContent (.variant e)

theorem DocumentError.ConcernsContent.lift {e : DocumentError} (h : e.ConcernsContent) :
    (ResolutionError.document e).ConcernsContent := by
  obtain ⟨place, fault, rfl⟩ := h
  exact .invalid place fault

theorem failsWith_lift_document {α : Type} {x : Except DocumentError α}
    (h : FailsWith DocumentError.ConcernsContent x) :
    FailsWith ResolutionError.ConcernsContent (liftM x : Except ResolutionError α) :=
  FailsWith.mapError h fun _ he => he.lift

theorem failsWith_lift_variant {α : Type} (x : Except VariantError α) :
    FailsWith ResolutionError.ConcernsContent (liftM x : Except ResolutionError α) :=
  failsWith_mapError .variant

theorem failsWith_readSection {α : Type} (place : Section) (c : Codec α) (v : Value) :
    FailsWith DocumentError.ConcernsContent (readSection place c v) :=
  failsWith_mapError fun e => ⟨place, .decode e, rfl⟩

namespace Header

theorem failsWith_readTags (v : Value) : FailsWith DocumentError.ConcernsContent (readTags v) := by
  unfold readTags
  split
  · exact failsWith_ok _
  · exact failsWith_ok _
  · refine FailsWith.bind (failsWith_mapM fun item => ?_) fun tags => failsWith_ok _
    cases item with
    | str tag => exact failsWith_ok tag
    | _ => exact failsWith_error ⟨_, _, rfl⟩
  · exact failsWith_error ⟨_, _, rfl⟩

theorem failsWith_readPart (document : Mapping) (h : Header) (place : Section) :
    FailsWith DocumentError.ConcernsContent (h.readPart document place) := by
  unfold readPart
  split
  · exact (failsWith_readTags _).bind fun _ => failsWith_ok _
  · exact (failsWith_readSection _ _ _).bind fun _ => failsWith_ok _
  · exact (failsWith_readSection _ _ _).bind fun _ => failsWith_ok _
  · exact (failsWith_readSection _ _ _).bind fun _ => failsWith_ok _
  · exact failsWith_ok h

theorem failsWith_read (document : Mapping) (c : Contract) (version : Int) (kind : Kind) :
    FailsWith DocumentError.ConcernsContent (read document c version kind) :=
  failsWith_foldlM _ (failsWith_readPart document)

end Header

namespace Run

theorem failsWith_ofFields (cmd loss optimizer : Option Value) :
    FailsWith ResolutionError.ConcernsContent (ofFields cmd loss optimizer) := by
  refine FailsWith.bind (failsWith_mapM_option fun v => ?_) fun _ => ?_
  · exact failsWith_mapError fun e => .invalid .run (.decode e)
  refine FailsWith.bind (failsWith_mapM_option fun v => failsWith_lift_variant _) fun _ => ?_
  exact FailsWith.bind (failsWith_mapM_option fun v => failsWith_lift_variant _) fun _ =>
    failsWith_ok _

theorem failsWith_ofMapping (entries : Mapping) :
    FailsWith ResolutionError.ConcernsContent (ofMapping entries) := by
  by_cases hknown : Known entries
  · rw [ofMapping_eq hknown]
    exact failsWith_ofFields _ _ _
  · obtain ⟨e, he⟩ := Option.ne_none_iff_exists'.1 hknown
    rw [ofMapping, he]
    exact failsWith_error (.invalid .run (.unknownRunField e.1 fieldNames))

theorem failsWith_ofValue (v : Value) :
    FailsWith ResolutionError.ConcernsContent (ofValue v) := by
  cases v with
  | null => exact failsWith_ok none
  | map entries => exact (failsWith_ofMapping entries).map some
  | _ => exact failsWith_error (.invalid .run _)

end Run

namespace Settings

theorem failsWith_readDeclarations (v : Value) :
    FailsWith DocumentError.ConcernsContent (readDeclarations v) := by
  cases v with
  | null => exact failsWith_ok none
  | map entries => exact failsWith_ok (some entries)
  | _ => exact failsWith_error ⟨_, _, rfl⟩

theorem failsWith_readSweep (v : Value) :
    FailsWith DocumentError.ConcernsContent (readSweep v) := by
  refine (failsWith_readSection _ _ v).bind fun sweep => ?_
  cases sweep with
  | none => exact failsWith_ok none
  | some s =>
    exact (failsWith_mapError fun fault => ⟨.hptuning, .sweep fault, rfl⟩).bind fun _ =>
      failsWith_ok _

theorem failsWith_read (s : Settings) (place : Section) (v : Value) :
    FailsWith ResolutionError.ConcernsContent (s.read place v) := by
  have hsection : ∀ {α : Type} (c : Codec α), FailsWith ResolutionError.ConcernsContent
      (liftM (readSection place c v) : Except ResolutionError α) :=
    fun c => failsWith_lift_document (failsWith_readSection place c v)
  cases place with
  | environment | build => exact (hsection _).bind fun _ => failsWith_ok _
  | declarations =>
    exact (failsWith_lift_document (failsWith_readDeclarations v)).bind fun _ => failsWith_ok _
  | hptuning =>
    exact (failsWith_lift_document (failsWith_readSweep v)).bind fun _ => failsWith_ok _
  | run => exact (Run.failsWith_ofValue v).bind fun _ => failsWith_ok _
  | _ => exact failsWith_ok s

theorem failsWith_ofSections (sections : Mapping) :
    FailsWith ResolutionError.ConcernsContent (ofSections sections) := by
  refine failsWith_foldlM _ fun s e => ?_
  split
  · exact failsWith_read s _ e.2
  · exact failsWith_ok s

end Settings

namespace Specification

theorem failsWith_expandSections (c : Contract) (data : Mapping) :
    FailsWith ResolutionError.ConcernsContent (expandSections c data) := by
  refine failsWith_mapM fun e => ?_
  unfold expandEntry
  split
  · next place _ => exact failsWith_mapError fun fault => .operator fault (some place)
  · exact failsWith_ok e

/-- What comes after the checks: header, operators and settings. -/
def finish (kind : Kind) (sources : List Source) (data : Mapping) (version : Int) :
    Except ResolutionError Specification := do
  let header ← Header.read data kind.contract version kind
  let sections ← expandSections kind.contract data
  let settings ← Settings.ofSections sections
  pure { sources, data, header, sections, settings }

theorem failsWith_finish (kind : Kind) (sources : List Source) (data : Mapping) (version : Int) :
    FailsWith ResolutionError.ConcernsContent (finish kind sources data version) := by
  refine (failsWith_lift_document (Header.failsWith_read _ _ _ _)).bind fun _ => ?_
  refine (failsWith_expandSections _ _).bind fun sections => ?_
  exact (Settings.failsWith_ofSections sections).bind fun _ => failsWith_ok _

end Specification

end WorkloadSpec
