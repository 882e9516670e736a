import WorkloadSpec.Proofs.TypedReading

/-!
The minimal form of an optimizer makes it again. Doubles come back numerically equal: a
zero that is default may change its sign.
-/
namespace WorkloadSpec

open Variant Member

namespace Method

/-- The same method with numerically equal parameters. -/
inductive Same : Method → Method → Prop
  | sgd : Same .sgd .sgd
  | momentum {x y : Double} (useNesterov : Bool) (h : x.same y = true) :
    Same (.momentum x useNesterov) (.momentum y useNesterov)
  | adam {x₁ x₂ x₃ y₁ y₂ y₃ : Double} (h₁ : x₁.same y₁ = true) (h₂ : x₂.same y₂ = true)
    (h₃ : x₃.same y₃ = true) : Same (.adam x₁ x₂ x₃) (.adam y₁ y₂ y₃)
  | adagrad {x y : Double} (h : x.same y = true) : Same (.adagrad x) (.adagrad y)
  | rmsProp {x₁ x₂ x₃ y₁ y₂ y₃ : Double} (h₁ : x₁.same y₁ = true) (h₂ : x₂.same y₂ = true)
    (h₃ : x₃.same y₃ = true) : Same (.rmsProp x₁ x₂ x₃) (.rmsProp y₁ y₂ y₃)

/-- What a method holds for a field of its own. -/
def parameter (method : Method) (f : FieldSpec) : Value :=
  (method.parameters.lookup f.name).getD .null

/-- The family has a member for the method with the fields `own`, read by `read`. They
can all be read again, and what is read then is the same method. -/
structure Spoken (method : Method) (rate : Double) (own : List FieldSpec)
    (read : Instance → Except VariantError Method) : Prop where
  member : Optimizer.family.member? method.identifier =
    some (Optimizer.member method.identifier rate own read)
  names : (["learning_rate"] ++ own.map FieldSpec.name ++ ["name"]).Nodup
  sound : ∀ f ∈ own, Sound f (method.parameter f)
  reads : ∀ j, (∀ f ∈ own, ReadsBack j f (method.parameter f)) →
    ∃ method', read j = .ok method' ∧ method'.Same method ∧
      method'.identifier = method.identifier ∧ ∀ f ∈ own, method'.parameter f = held j f

theorem Spoken.distinct {method : Method} {rate : Double} {own : List FieldSpec}
    {read : Instance → Except VariantError Method} (h : method.Spoken rate own read) :
    (Optimizer.member method.identifier rate own read).Distinct := by
  rw [Distinct, Optimizer.member, List.map_append, List.map_append]
  exact h.names

/-- The fields of a method are not among those that all optimizers have. -/
theorem Spoken.fresh {method : Method} {rate : Double} {own : List FieldSpec}
    {read : Instance → Except VariantError Method} (h : method.Spoken rate own read)
    {f : FieldSpec} (hf : f ∈ own) : f.name ∉ Optimizer.optionNames :=
  not_mem_around h.names (List.mem_map_of_mem hf)

/-- A method with three doubles. -/
theorem spoken_doubles {make : Double → Double → Double → Method} {rate : Double}
    {name₁ name₂ name₃ : String} {d₁ d₂ d₃ : Double} (x₁ x₂ x₃ : Double)
    (hmember : Optimizer.family.member? (make x₁ x₂ x₃).identifier = some
      (Optimizer.member (make x₁ x₂ x₃).identifier rate
        [Optimizer.float name₁ d₁, Optimizer.float name₂ d₂, Optimizer.float name₃ d₃]
        fun i => return make (← i.double name₁) (← i.double name₂) (← i.double name₃)))
    (hnames : (["learning_rate"] ++ [name₁, name₂, name₃] ++ ["name"]).Nodup)
    (hheld₁ : ∀ y₁ y₂ y₃, (make y₁ y₂ y₃).parameter (Optimizer.float name₁ d₁) = .float y₁)
    (hheld₂ : ∀ y₁ y₂ y₃, (make y₁ y₂ y₃).parameter (Optimizer.float name₂ d₂) = .float y₂)
    (hheld₃ : ∀ y₁ y₂ y₃, (make y₁ y₂ y₃).parameter (Optimizer.float name₃ d₃) = .float y₃)
    (hsame : ∀ y₁ y₂ y₃, y₁.same x₁ = true → y₂.same x₂ = true → y₃.same x₃ = true →
      (make y₁ y₂ y₃).Same (make x₁ x₂ x₃))
    (hid : ∀ y₁ y₂ y₃, (make y₁ y₂ y₃).identifier = (make x₁ x₂ x₃).identifier) :
    (make x₁ x₂ x₃).Spoken rate
      [Optimizer.float name₁ d₁, Optimizer.float name₂ d₂, Optimizer.float name₃ d₃]
      fun i => return make (← i.double name₁) (← i.double name₂) (← i.double name₃) where
  member := hmember
  names := hnames
  sound := by
    simp only [List.forall_mem_cons, hheld₁, hheld₂, hheld₃]
    exact ⟨.float d₁ x₁, .float d₂ x₂, .float d₃ x₃, List.forall_mem_nil _⟩
  reads := by
    intro j h
    simp only [List.forall_mem_cons, hheld₁, hheld₂, hheld₃] at h
    obtain ⟨h₁, h₂, h₃, -⟩ := h
    obtain ⟨y₁, hy₁, hsame₁, hj₁⟩ := h₁.double rfl
    obtain ⟨y₂, hy₂, hsame₂, hj₂⟩ := h₂.double rfl
    obtain ⟨y₃, hy₃, hsame₃, hj₃⟩ := h₃.double rfl
    refine ⟨make y₁ y₂ y₃, ?_, hsame y₁ y₂ y₃ hsame₁ hsame₂ hsame₃, hid y₁ y₂ y₃, ?_⟩
    · exact Outcome.bind_eq_ok.2 ⟨y₁, hy₁, Outcome.bind_eq_ok.2 ⟨y₂, hy₂,
        Outcome.bind_eq_ok.2 ⟨y₃, hy₃, rfl⟩⟩⟩
    · simp only [List.forall_mem_cons, hheld₁, hheld₂, hheld₃, hj₁, hj₂, hj₃]
      exact ⟨trivial, trivial, trivial, List.forall_mem_nil _⟩

theorem spoken_sgd : ∃ rate own read, sgd.Spoken rate own read :=
  ⟨_, [], fun _ => pure .sgd, rfl, by decide, List.forall_mem_nil _,
    fun _ _ => ⟨.sgd, rfl, .sgd, rfl, List.forall_mem_nil _⟩⟩

theorem spoken_momentum (x : Double) (useNesterov : Bool) :
    ∃ rate own read, (momentum x useNesterov).Spoken rate own read := by
  refine ⟨_, [Optimizer.float "momentum" ⟨0.9, by decide⟩,
    .defaulted "use_nesterov" .bool (.bool false)], _, rfl, by decide, ?_, ?_⟩
  · simp only [List.forall_mem_cons]
    exact ⟨.float _ x, .bool false useNesterov, List.forall_mem_nil _⟩
  · intro j h
    simp only [List.forall_mem_cons] at h
    obtain ⟨hmomentum, hnesterov, -⟩ := h
    obtain ⟨y, hy, hsame, hj⟩ := ReadsBack.double rfl hmomentum
    obtain ⟨hb, hj'⟩ := ReadsBack.bool rfl hnesterov
    refine ⟨.momentum y useNesterov, ?_, .momentum useNesterov hsame, rfl, ?_⟩
    · exact Outcome.bind_eq_ok.2 ⟨y, hy, Outcome.bind_eq_ok.2 ⟨useNesterov, hb, rfl⟩⟩
    · simp only [List.forall_mem_cons, hj, hj']
      exact ⟨rfl, rfl, List.forall_mem_nil _⟩

theorem spoken_adagrad (x : Double) : ∃ rate own read, (adagrad x).Spoken rate own read := by
  refine ⟨_, [Optimizer.float "initial_accumulator_value" ⟨0.1, by decide⟩], _, rfl,
    by decide, ?_, ?_⟩
  · rw [List.forall_mem_singleton]
    exact .float _ x
  · intro j h
    rw [List.forall_mem_singleton] at h
    obtain ⟨y, hy, hsame, hj⟩ := ReadsBack.double rfl h
    refine ⟨.adagrad y, Outcome.bind_eq_ok.2 ⟨y, hy, rfl⟩, .adagrad hsame, rfl, ?_⟩
    rw [List.forall_mem_singleton, hj]
    rfl

theorem exists_spoken (method : Method) : ∃ rate own read, method.Spoken rate own read := by
  cases method with
  | sgd => exact spoken_sgd
  | momentum x useNesterov => exact spoken_momentum x useNesterov
  | adagrad x => exact spoken_adagrad x
  | adam x₁ x₂ x₃ =>
    exact ⟨_, _, _, spoken_doubles x₁ x₂ x₃ rfl (by decide) (fun _ _ _ => rfl) (fun _ _ _ => rfl)
      (fun _ _ _ => rfl) (fun _ _ _ => .adam) fun _ _ _ => rfl⟩
  | rmsProp x₁ x₂ x₃ =>
    exact ⟨_, _, _, spoken_doubles x₁ x₂ x₃ rfl (by decide) (fun _ _ _ => rfl) (fun _ _ _ => rfl)
      (fun _ _ _ => rfl) (fun _ _ _ => .rmsProp) fun _ _ _ => rfl⟩

end Method

namespace Optimizer

/-- The same optimizer with numerically equal doubles. -/
structure Same (o p : Optimizer) : Prop where
  learningRate : o.learningRate.same p.learningRate = true
  name : o.name = p.name
  method : o.method.Same p.method

theorem held_own (o : Optimizer) {f : FieldSpec} (h : f.name ∉ optionNames) :
    held o.toInstance f = o.method.parameter f := held_method o h

section Spoken

variable {o : Optimizer} {rate : Double} {own : List FieldSpec}
  {read : Instance → Except VariantError Method}

theorem readable (h : o.method.Spoken rate own read) :
    ∀ f ∈ (member o.method.identifier rate own read).fields, Readable o.toInstance f := by
  simp only [member, List.forall_mem_append, List.forall_mem_cons]
  refine ⟨⟨⟨Or.inr rfl, List.forall_mem_nil _⟩, fun f hf => ?_⟩,
    readable_string rfl rfl rfl rfl, List.forall_mem_nil _⟩
  refine Or.inr ?_
  rw [held_own o (h.fresh hf)]
  exact (h.sound f hf).allows

theorem defaultsAgree (h : o.method.Spoken rate own read) :
    (member o.method.identifier rate own read).DefaultsAgree := by
  unfold DefaultsAgree
  simp only [member, List.forall_mem_append, List.forall_mem_cons]
  refine ⟨⟨⟨(Sound.float _ o.learningRate).reflexive, List.forall_mem_nil _⟩,
    fun f hf => (h.sound f hf).reflexive⟩, ?_, List.forall_mem_nil _⟩
  rintro _ ⟨⟩
  rfl

end Spoken

/-- The minimal form of an optimizer makes it again, and what is made has the same
minimal form. -/
theorem exists_make_toValue (o : Optimizer) :
    ∃ p, family.make o.toValue = .ok p ∧ p.Same o ∧ p.toValue = o.toValue := by
  obtain ⟨rate, own, read, h⟩ := o.method.exists_spoken
  obtain ⟨j, hmake, hback, hreduce⟩ :=
    Family.exists_reread h.member h.distinct (defaultsAgree h) (readable h)
  simp only [member, List.forall_mem_append, List.forall_mem_cons] at hback hreduce
  obtain ⟨⟨⟨hrate, -⟩, hown⟩, hname, -⟩ := hback
  obtain ⟨learningRate, hrate, hsame, hrate'⟩ := ReadsBack.double rfl hrate
  obtain ⟨hname, hname'⟩ := ReadsBack.string? (m := none) rfl rfl hname
  rw [Option.or_none] at hname hname'
  obtain ⟨method, hmethod, hmethods, hid, hown'⟩ :=
    h.reads j fun f hf => held_own o (h.fresh hf) ▸ hown f hf
  let p : Optimizer := { o with learningRate, method }
  refine ⟨p, hmake.trans ?_, ⟨hsame, rfl, hmethods⟩, hreduce p.toInstance hid ?_⟩
  · exact Outcome.bind_eq_ok.2 ⟨_, hrate, Outcome.bind_eq_ok.2 ⟨_, hname,
      Outcome.bind_eq_ok.2 ⟨_, hmethod, rfl⟩⟩⟩
  · refine ⟨⟨⟨hrate'.symm, List.forall_mem_nil _⟩, fun f hf => ?_⟩,
      hname'.symm, List.forall_mem_nil _⟩
    rw [held_own p (h.fresh hf)]
    exact hown' f hf

end Optimizer

end WorkloadSpec
