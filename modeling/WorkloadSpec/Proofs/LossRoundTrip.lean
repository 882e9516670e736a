import WorkloadSpec.Proofs.TypedReading

/-!
The minimal form of a loss makes it again. Doubles come back numerically equal: a zero
that is default may change its sign.
-/
namespace WorkloadSpec

open Variant Member

namespace LossForm

/-- The same form with numerically equal parameters. -/
inductive Same : LossForm → LossForm → Prop
  | refl (form : LossForm) : Same form form
  | logLoss {x y : Double} (h : x.same y = true) : Same (.logLoss x) (.logLoss y)
  | huberLoss {x y : Double} (h : x.same y = true) : Same (.huberLoss x) (.huberLoss y)
  | clippedDeltaLoss {x₁ x₂ y₁ y₂ : Double} (h₁ : x₁.same y₁ = true) (h₂ : x₂.same y₂ = true) :
    Same (.clippedDeltaLoss x₁ x₂) (.clippedDeltaLoss y₁ y₂)
  | softmaxCrossEntropy {x y : Double} (h : x.same y = true) :
    Same (.softmaxCrossEntropy x) (.softmaxCrossEntropy y)
  | sigmoidCrossEntropy {x y : Double} (h : x.same y = true) :
    Same (.sigmoidCrossEntropy x) (.sigmoidCrossEntropy y)

/-- The name that a loss goes by when none is given. -/
def defaultName : LossForm → Option String
  | kullbackLeiberDivergence _ => some "KullbackLeiberDivergence"
  | _ => none

/-- What a form holds for a field of its own. -/
def parameter (form : LossForm) (f : FieldSpec) : Value :=
  (form.parameters.lookup f.name).getD .null

/-- The member that a form with the fields `own`, read by `read`, belongs to. -/
def memberOf (form : LossForm) (own : List FieldSpec)
    (read : Instance → Except VariantError LossForm) : Member Loss where
  identifier := form.identifier
  fields := Loss.fields own (Value.ofOption .str form.defaultName)
  build := Loss.ofInstance read

/-- The family has a member for the form with the fields `own`, read by `read`. They
can all be read again, and what is read then is the same form. -/
structure Spoken (form : LossForm) (own : List FieldSpec)
    (read : Instance → Except VariantError LossForm) : Prop where
  member : Loss.family.member? form.identifier = some (form.memberOf own read)
  names : (["input_layer", "output_layer", "weights"] ++ own.map FieldSpec.name ++
    ["name", "collect"]).Nodup
  sound : ∀ f ∈ own, Sound f (form.parameter f)
  reads : ∀ j, (∀ f ∈ own, ReadsBack j f (form.parameter f)) →
    ∃ form', read j = .ok form' ∧ form'.Same form ∧ form'.identifier = form.identifier ∧
      ∀ f ∈ own, form'.parameter f = held j f

theorem Spoken.distinct {form : LossForm} {own : List FieldSpec}
    {read : Instance → Except VariantError LossForm} (h : form.Spoken own read) :
    (form.memberOf own read).Distinct := by
  rw [Distinct, memberOf, Loss.fields, List.map_append, List.map_append]
  exact h.names

/-- The fields of a form are not among those that all losses have. -/
theorem Spoken.fresh {form : LossForm} {own : List FieldSpec}
    {read : Instance → Except VariantError LossForm} (h : form.Spoken own read) {f : FieldSpec}
    (hf : f ∈ own) : f.name ∉ Loss.optionNames :=
  not_mem_around h.names (List.mem_map_of_mem hf)

/-- A form without parameters. -/
theorem spoken_plain {form : LossForm} (hmember : Loss.family.member? form.identifier =
      some (form.memberOf [] fun _ => pure form)) : form.Spoken [] fun _ => pure form where
  member := hmember
  names := by decide
  sound _ hf := absurd hf List.not_mem_nil
  reads _ _ := ⟨form, rfl, .refl form, rfl, fun _ hf => absurd hf List.not_mem_nil⟩

/-- A form with one double. -/
theorem spoken_double {make : Double → LossForm} {name : String} {d : Double} (x : Double)
    (hmember : Loss.family.member? (make x).identifier = some
      ((make x).memberOf [Loss.float name d] fun i => return make (← i.double name)))
    (hnames : (["input_layer", "output_layer", "weights"] ++ [name] ++ ["name", "collect"]).Nodup)
    (hheld : ∀ y, (make y).parameter (Loss.float name d) = .float y)
    (hsame : ∀ y, y.same x = true → (make y).Same (make x))
    (hid : ∀ y, (make y).identifier = (make x).identifier) :
    (make x).Spoken [Loss.float name d] fun i => return make (← i.double name) where
  member := hmember
  names := hnames
  sound := by
    rw [List.forall_mem_singleton, hheld]
    exact .float d x
  reads := by
    intro j h
    rw [List.forall_mem_singleton, hheld] at h
    obtain ⟨y, hy, hyx, hj⟩ := h.double rfl
    refine ⟨make y, Outcome.bind_eq_ok.2 ⟨y, hy, rfl⟩, hsame y hyx, hid y, ?_⟩
    rw [List.forall_mem_singleton, hheld, hj]

/-- A form with the number of a dimension, which has no default. -/
theorem spoken_dim {make : Int64 → LossForm} (n : Int64)
    (hmember : Loss.family.member? (make n).identifier = some
      ((make n).memberOf [.required "dim" .int] fun i => return make (← i.int64 "dim")))
    (hheld : (make n).parameter (.required "dim" .int) = .int n.toInt) :
    (make n).Spoken [.required "dim" .int] fun i => return make (← i.int64 "dim") where
  member := hmember
  names := by decide
  sound := by
    rw [List.forall_mem_singleton, hheld]
    exact .required rfl
  reads := by
    intro j h
    rw [List.forall_mem_singleton, hheld] at h
    obtain ⟨hn, hj⟩ := h.int64 rfl
    refine ⟨make n, Outcome.bind_eq_ok.2 ⟨n, hn, rfl⟩, .refl _, rfl, ?_⟩
    rw [List.forall_mem_singleton, hheld, hj]

theorem spoken_clippedDeltaLoss (least greatest : Double) : ∃ own read,
    (clippedDeltaLoss least greatest).Spoken own read := by
  refine ⟨[Loss.float "clip_value_min" (.ofInt (-1)), Loss.float "clip_value_max" (.ofInt 1)],
    _, rfl, by decide, ?_, ?_⟩
  · simp only [List.forall_mem_cons]
    exact ⟨.float _ _, .float _ _, List.forall_mem_nil _⟩
  · intro j h
    simp only [List.forall_mem_cons] at h
    obtain ⟨hleast, hgreatest, -⟩ := h
    obtain ⟨x, hx, hsame, hj⟩ := hleast.double rfl
    obtain ⟨y, hy, hsame', hj'⟩ := hgreatest.double rfl
    refine ⟨.clippedDeltaLoss x y, Outcome.bind_eq_ok.2 ⟨x, hx, Outcome.bind_eq_ok.2 ⟨y, hy, rfl⟩⟩,
      .clippedDeltaLoss hsame hsame', rfl, ?_⟩
    simp only [List.forall_mem_cons, hj, hj']
    exact ⟨rfl, rfl, List.forall_mem_nil _⟩

theorem exists_spoken (form : LossForm) : ∃ own read, form.Spoken own read := by
  cases form with
  | absoluteDifference => exact ⟨_, _, spoken_plain rfl⟩
  | meanSquaredError => exact ⟨_, _, spoken_plain rfl⟩
  | hingeLoss => exact ⟨_, _, spoken_plain rfl⟩
  | poissonLoss => exact ⟨_, _, spoken_plain rfl⟩
  | logLoss x =>
    exact ⟨_, _, spoken_double x rfl (by decide) (fun _ => rfl) (fun _ => .logLoss) fun _ => rfl⟩
  | huberLoss x =>
    exact ⟨_, _, spoken_double x rfl (by decide) (fun _ => rfl) (fun _ => .huberLoss) fun _ => rfl⟩
  | softmaxCrossEntropy x =>
    exact ⟨_, _, spoken_double x rfl (by decide) (fun _ => rfl) (fun _ => .softmaxCrossEntropy)
      fun _ => rfl⟩
  | sigmoidCrossEntropy x =>
    exact ⟨_, _, spoken_double x rfl (by decide) (fun _ => rfl) (fun _ => .sigmoidCrossEntropy)
      fun _ => rfl⟩
  | clippedDeltaLoss least greatest => exact spoken_clippedDeltaLoss least greatest
  | cosineDistance n => exact ⟨_, _, spoken_dim n rfl rfl⟩
  | kullbackLeiberDivergence n => exact ⟨_, _, spoken_dim n rfl rfl⟩

end LossForm

namespace Loss

/-- The same loss with numerically equal doubles. -/
structure Same (l k : Loss) : Prop where
  form : l.form.Same k.form
  inputLayer : l.inputLayer = k.inputLayer
  outputLayer : l.outputLayer = k.outputLayer
  weights : l.weights.same k.weights = true
  name : l.name = k.name
  collect : l.collect = k.collect

/-- The loss with the name it goes by. -/
def named (l : Loss) : Loss := { l with name := l.name.or l.form.defaultName }

theorem held_own (l : Loss) {f : FieldSpec} (h : f.name ∉ optionNames) :
    held l.toInstance f = l.form.parameter f := held_form l h

section Spoken

variable {l : Loss} {own : List FieldSpec} {read : Instance → Except VariantError LossForm}

theorem readable (h : l.form.Spoken own read) :
    ∀ f ∈ (l.form.memberOf own read).fields, Readable l.toInstance f := by
  simp only [LossForm.memberOf, fields, List.forall_mem_append, List.forall_mem_cons]
  refine ⟨⟨⟨readable_tensor rfl rfl rfl, readable_tensor rfl rfl rfl, Or.inr rfl,
    List.forall_mem_nil _⟩, fun f hf => ?_⟩, readable_string rfl rfl rfl rfl, Or.inr rfl,
    List.forall_mem_nil _⟩
  refine Or.inr ?_
  rw [held_own l (h.fresh hf)]
  exact (h.sound f hf).allows

theorem defaultsAgree (h : l.form.Spoken own read) :
    (l.form.memberOf own read).DefaultsAgree := by
  unfold DefaultsAgree
  simp only [LossForm.memberOf, fields, List.forall_mem_append, List.forall_mem_cons]
  refine ⟨⟨⟨?_, ?_, (Sound.float _ l.weights).reflexive, List.forall_mem_nil _⟩,
    fun f hf => (h.sound f hf).reflexive⟩,
    ?_, (Sound.bool _ l.collect).reflexive, List.forall_mem_nil _⟩
  · rintro _ ⟨⟩
    rfl
  · rintro _ ⟨⟩
    rfl
  · rintro _ ⟨⟩
    cases l.form.defaultName with
    | none => rfl
    | some s => exact beq_self_eq_true s

end Spoken

/-- The minimal form of a loss makes it again, under the name it goes by, and what is
made has the same minimal form. -/
theorem exists_make_toValue (l : Loss) :
    ∃ k, family.make l.toValue = .ok k ∧ k.Same l.named ∧ k.toValue = l.toValue := by
  obtain ⟨own, read, h⟩ := l.form.exists_spoken
  obtain ⟨j, hmake, hback, hreduce⟩ :=
    Family.exists_reread h.member h.distinct (defaultsAgree h) (readable h)
  simp only [LossForm.memberOf, fields, List.forall_mem_append, List.forall_mem_cons]
    at hback hreduce
  obtain ⟨⟨⟨hinput, houtput, hweights, -⟩, hown⟩, hname, hcollect, -⟩ := hback
  obtain ⟨hinput, hinput'⟩ := ReadsBack.tensor? rfl hinput
  obtain ⟨houtput, houtput'⟩ := ReadsBack.tensor? rfl houtput
  obtain ⟨weights, hweights, hsame, hweights'⟩ := ReadsBack.double rfl hweights
  obtain ⟨hname, hname'⟩ := ReadsBack.string? rfl rfl hname
  obtain ⟨hcollect, hcollect'⟩ := ReadsBack.bool rfl hcollect
  obtain ⟨form, hform, hforms, hid, hown'⟩ :=
    h.reads j fun f hf => held_own l (h.fresh hf) ▸ hown f hf
  let k : Loss := { l.named with form, weights }
  refine ⟨k, hmake.trans ?_, ⟨hforms, rfl, rfl, hsame, rfl, rfl⟩, hreduce k.toInstance hid ?_⟩
  · exact Outcome.bind_eq_ok.2 ⟨_, hinput, Outcome.bind_eq_ok.2 ⟨_, houtput,
      Outcome.bind_eq_ok.2 ⟨_, hweights, Outcome.bind_eq_ok.2 ⟨_, hname,
      Outcome.bind_eq_ok.2 ⟨_, hcollect, Outcome.bind_eq_ok.2 ⟨_, hform, rfl⟩⟩⟩⟩⟩⟩
  · refine ⟨⟨⟨hinput'.symm, houtput'.symm, hweights'.symm, List.forall_mem_nil _⟩, fun f hf => ?_⟩,
      hname'.symm, hcollect'.symm, List.forall_mem_nil _⟩
    rw [held_own k (h.fresh hf)]
    exact hown' f hf

theorem mem_name (own : List FieldSpec) (name : Value) :
    { FieldSpec.defaulted "name" .str name with reduced := true } ∈ fields own name :=
  List.mem_append_right _ List.mem_cons_self

/-- A loss that was made has the name it goes by. -/
theorem named_of_make {raw : Value} {l : Loss} (h : family.make raw = .ok l) : l.named = l := by
  obtain ⟨m, parameters, i, hm, hresolve, hbuild⟩ := Family.exists_of_make h
  have hfaithful := faithful_of_mem m (List.mem_of_find?_eq_some hm)
  obtain ⟨own, read, hs⟩ := l.form.exists_spoken
  have hmember : m = l.form.memberOf own read := by
    have hid : l.form.identifier = m.identifier := hfaithful.identifier_eq i l hbuild
    have hfound := hs.member
    rw [hid, hm] at hfound
    exact Option.some.inj hfound
  subst hmember
  have hkept : l.name.or l.form.defaultName = l.name := by
    cases hd : l.form.defaultName with
    | none => exact Option.or_none
    | some s =>
      -- The field for the name is not nullable, so it holds a string.
      obtain ⟨v, hv, hvalue⟩ := get?_of_resolve hs.distinct hresolve (mem_name own _)
      have hname : Value.ofOption .str l.name = v := by
        have hheld : Value.ofOption .str l.name = held i _ :=
          hfaithful.mirrors i l hbuild _ (mem_name own _)
        rwa [held_of_get? hv] at hheld
      rw [hd] at hvalue
      obtain ⟨t, rfl⟩ : ∃ t, v = .str t := by
        rcases allows_of_fieldValue hvalue with hallows | hdefault
        · cases v with
          | str t => exact ⟨t, rfl⟩
          | _ => cases hallows
        · exact ⟨s, (Option.some.inj hdefault).symm⟩
      cases hn : l.name with
      | none =>
        rw [hn] at hname
        cases hname
      | some n => rfl
  rw [named, hkept]

end Loss

end WorkloadSpec
