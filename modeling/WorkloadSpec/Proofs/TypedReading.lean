import WorkloadSpec.Proofs.FieldReading
import WorkloadSpec.Variant.Loss
import WorkloadSpec.Variant.Optimizer

/-!
What a typed value was read from is written again: every field with the value that was read,
but with a double for any number where a float is due. The minimal form takes no notice of
that change, so that of a typed value is that of the instance it was built from, in doubles.
-/
namespace WorkloadSpec

open Variant Member

namespace Variant

variable {α β : Type} {m : Member α} {i k : Instance} {f : FieldSpec} {v : Value}

/-- The value of a field with a double for a number where a float is due. -/
def FieldSpec.inDoubles (f : FieldSpec) (v : Value) : Value :=
  match f.kind, v.double? with
  | .float, some x => .float x
  | _, _ => v

theorem FieldSpec.inDoubles_of_double? {x : Double} (hkind : f.kind = .float)
    (h : v.double? = some x) : f.inDoubles v = .float x := by
  rw [inDoubles, hkind, h]

theorem FieldSpec.inDoubles_of_ne (h : f.kind ≠ .float) : f.inDoubles v = v := by
  unfold inDoubles
  cases hkind : f.kind with
  | float => exact absurd hkind h
  | _ => rfl

/-- A field in doubles is as it was, or the double nearest to a number that was there. -/
theorem FieldSpec.inDoubles_cases (f : FieldSpec) (v : Value) :
    f.inDoubles v = v ∨ ∃ x, v.double? = some x ∧ f.inDoubles v = .float x := by
  by_cases hkind : f.kind = .float
  · cases hx : v.double? with
    | none =>
      left
      rw [inDoubles, hkind, hx]
    | some x => exact Or.inr ⟨x, rfl, inDoubles_of_double? hkind hx⟩
  · exact Or.inl (inDoubles_of_ne hkind)

theorem agrees_float {d : Value} {x : Double} (h : v.double? = some x) :
    agrees d (.float x) = agrees d v := by
  cases d with
  | int n => rw [agrees_of_double? rfl h, agrees_of_double? rfl rfl]
  | float y => rw [agrees_of_double? rfl h, agrees_of_double? rfl rfl]
  | _ =>
    cases v with
    | int | float => rfl
    | _ => cases h

@[simp] theorem FieldSpec.isDefault_inDoubles (f : FieldSpec) (v : Value) :
    f.isDefault (f.inDoubles v) = f.isDefault v := by
  rcases f.inDoubles_cases v with h | ⟨x, hx, h⟩
  · rw [h]
  · have hagrees : (agrees · (Value.float x)) = (agrees · v) := funext fun d => agrees_float hx
    rw [h, isDefault, isDefault, hagrees]

@[simp] theorem FieldSpec.isNull_inDoubles (f : FieldSpec) (v : Value) :
    (f.inDoubles v).isNull = v.isNull := by
  rcases f.inDoubles_cases v with h | ⟨x, hx, h⟩
  · rw [h]
  · rw [h]
    cases v with
    | null => cases hx
    | _ => rfl

/-- Parameters with doubles for the numbers where a float is due. -/
def Member.inDoubles (m : Member α) (parameters : Mapping) : Mapping :=
  parameters.map fun e => (e.1, ((m.field? e.1).map (·.inDoubles e.2)).getD e.2)

/-- A selection with doubles for the numbers where a float is due. -/
def Family.inDoubles (family : Family α) : Value → Value
  | .map [(identifier, .map parameters)] =>
    .map [(identifier, .map (((family.member? identifier).map (·.inDoubles parameters)).getD
      parameters))]
  | v => v

theorem Member.field?_of_mem (hnames : m.Distinct) (hf : f ∈ m.fields) :
    m.field? f.name = some f := by
  have hsome : (m.field? f.name).isSome = true :=
    List.find?_isSome.2 ⟨f, hf, beq_self_eq_true f.name⟩
  obtain ⟨g, hg⟩ := Option.isSome_iff_exists.1 hsome
  have hname := List.find?_some hg
  have hsame : g = f :=
    List.inj_on_of_nodup_map hnames (List.mem_of_find?_eq_some hg) hf (eq_of_beq hname)
  rw [hg, hsame]

/-- Among the declared fields `k` holds what `i` holds, in doubles. -/
def Mirrors (fields : List FieldSpec) (k i : Instance) : Prop :=
  ∀ f ∈ fields, held k f = f.inDoubles (held i f)

theorem Mirrors.reduce (hnames : m.Distinct) (h : Mirrors m.fields k i) {family : Family α}
    (hm : family.member? m.identifier = some m) :
    m.reduce k = family.inDoubles (m.reduce i) := by
  have hdropped : ∀ f ∈ m.fields, isDropped k f = isDropped i f := by
    intro f hf
    rw [isDropped, isDropped, h f hf, FieldSpec.isNull_inDoubles, FieldSpec.isDefault_inDoubles]
  have hkept : m.kept k = m.kept i := kept_congr hdropped
  have hmem : ∀ f ∈ m.kept i, f ∈ m.fields := fun f hf => (mem_kept.1 hf).1
  have hbare : m.isBare k = m.isBare i := by
    refine isBare_congr hkept fun f hf => ?_
    rw [h f (hmem f hf), FieldSpec.isDefault_inDoubles]
  have hentries : (m.kept k).map (fun f => (f.name, held k f)) =
      m.inDoubles ((m.kept i).map fun f => (f.name, held i f)) := by
    rw [hkept, Member.inDoubles, List.map_map]
    refine List.map_congr_left fun f hf => ?_
    have hfield := field?_of_mem hnames (hmem f hf)
    rw [h f (hmem f hf), Function.comp_apply, hfield]
    rfl
  rw [reduce_eq, reduce_eq, hbare]
  by_cases hi : m.isBare i = true
  · rw [if_pos hi, if_pos hi]
    rfl
  · rw [if_neg hi, if_neg hi, Mapping.ofEntries_eq_self (nodup_kept hnames),
      Mapping.ofEntries_eq_self (nodup_kept hnames), hentries, Family.inDoubles, hm]
    rfl

/-- What is read as a typed value is written under a name and mirrors what was read. -/
structure Faithful (write : β → Instance) (identifier : String) (fields : List FieldSpec)
    (read : Instance → Except VariantError β) : Prop where
  identifier_eq : ∀ i b, read i = .ok b → (write b).identifier = identifier
  mirrors : ∀ i b, read i = .ok b → Mirrors fields (write b) i

/-- What `get` gives is the value of the field, in doubles, once it is written. -/
def Reads {γ : Type} (f : FieldSpec) (get : Instance → Except VariantError γ)
    (value : γ → Value) : Prop :=
  ∀ i c, get i = .ok c → f.inDoubles (held i f) = value c

theorem get?_of_get (h : i.get f.name = .ok v) : i.get? f.name = some v := by
  unfold Instance.get at h
  cases hget : i.get? f.name with
  | none =>
    rw [hget] at h
    cases h
  | some w =>
    rw [hget] at h
    exact congrArg some (Except.ok.inj h)

/-- A value that is no float is written as it was read. -/
theorem FieldSpec.inDoubles_of_kind {kind : FieldKind} (hkind : f.kind = kind)
    (hne : kind ≠ .float) : f.inDoubles v = v :=
  inDoubles_of_ne (hkind ▸ hne)

theorem reads_double (hkind : f.kind = .float) : Reads f (·.double f.name) .float := by
  intro i x h
  obtain ⟨v, hv, h⟩ := Outcome.bind_eq_ok.1 h
  rw [held_of_get? (get?_of_get hv)]
  cases hx : v.double? with
  | none =>
    simp only [hx] at h
    cases h
  | some y =>
    simp only [hx] at h
    rw [FieldSpec.inDoubles_of_double? hkind hx, Outcome.pure_eq_ok.1 h]

theorem reads_int64 (hkind : f.kind = .int) :
    Reads f (·.int64 f.name) fun n => .int n.toInt := by
  intro i n h
  rw [FieldSpec.inDoubles_of_kind hkind (by decide)]
  obtain ⟨v, hv, h⟩ := Outcome.bind_eq_ok.1 h
  rw [held_of_get? (get?_of_get hv)]
  cases hn : v.int64? with
  | none =>
    simp only [hn] at h
    cases h
  | some k =>
    simp only [hn] at h
    rw [Value.eq_of_int64? hn, Outcome.pure_eq_ok.1 h]

theorem reads_bool (hkind : f.kind = .bool) : Reads f (·.bool f.name) .bool := by
  intro i b h
  rw [FieldSpec.inDoubles_of_kind hkind (by decide)]
  obtain ⟨v, hv, h⟩ := Outcome.bind_eq_ok.1 h
  rw [held_of_get? (get?_of_get hv)]
  cases v with
  | bool c => exact congrArg Value.bool (Outcome.pure_eq_ok.1 h)
  | _ => cases h

theorem reads_string? (hkind : f.kind = .str) :
    Reads f (·.string? f.name) (Value.ofOption .str) := by
  intro i s (h : i.string? f.name = .ok s)
  rw [FieldSpec.inDoubles_of_kind hkind (by decide)]
  unfold Instance.string? at h
  unfold held
  cases hget : i.get? f.name with
  | none =>
    rw [hget] at h
    rw [← Except.ok.inj h]
    rfl
  | some v =>
    rw [hget] at h
    cases v with
    | null | str =>
      rw [← Except.ok.inj h]
      rfl
    | _ => cases h

theorem reads_tensor? (hkind : f.kind = .tensor) :
    Reads f (·.tensor? f.name) (Value.ofOption Tensor.toValue) := by
  intro i t (h : i.tensor? f.name = .ok t)
  rw [FieldSpec.inDoubles_of_kind hkind (by decide)]
  unfold held
  cases hget : i.get? f.name with
  | none =>
    rw [Instance.tensor?, hget] at h
    rw [← Except.ok.inj h]
    rfl
  | some v =>
    cases ht : Tensor.ofValue? v with
    | some u =>
      rw [tensor?_of_get? hget ht] at h
      rw [← Except.ok.inj h]
      exact Tensor.eq_toValue_of_ofValue? ht
    | none =>
      rw [Instance.tensor?, hget] at h
      cases v with
      | null =>
        rw [← Except.ok.inj h]
        rfl
      | _ =>
        simp only [ht] at h
        cases h

theorem Faithful.plain {write : β → Instance} (b : β) :
    Faithful write (write b).identifier [] fun _ => pure b where
  identifier_eq _ _ h := by rw [← Outcome.pure_eq_ok.1 h]
  mirrors _ _ _ := List.forall_mem_nil _

/-- A typed value of one field. -/
theorem Faithful.one {γ : Type} {write : β → Instance} {make : γ → β} {identifier : String}
    {get : Instance → Except VariantError γ} {value : γ → Value} (hget : Reads f get value)
    (hid : ∀ c, (write (make c)).identifier = identifier)
    (hheld : ∀ c, held (write (make c)) f = value c) :
    Faithful write identifier [f] fun i => return make (← get i) where
  identifier_eq i b h := by
    obtain ⟨c, -, h⟩ := Outcome.bind_eq_ok.1 h
    rw [← Outcome.pure_eq_ok.1 h, hid]
  mirrors i b h := by
    obtain ⟨c, hc, h⟩ := Outcome.bind_eq_ok.1 h
    rw [← Outcome.pure_eq_ok.1 h]
    refine List.forall_mem_singleton.2 ?_
    rw [hheld, hget i c hc]

/-- A typed value of two fields. -/
theorem Faithful.two {γ δ : Type} {write : β → Instance} {make : γ → δ → β} {identifier : String}
    {f g : FieldSpec} {get : Instance → Except VariantError γ} {value : γ → Value}
    {get' : Instance → Except VariantError δ} {value' : δ → Value}
    (hget : Reads f get value) (hget' : Reads g get' value')
    (hid : ∀ c d, (write (make c d)).identifier = identifier)
    (hheld : ∀ c d, held (write (make c d)) f = value c ∧ held (write (make c d)) g = value' d) :
    Faithful write identifier [f, g] fun i => return make (← get i) (← get' i) where
  identifier_eq i b h := by
    obtain ⟨c, -, h⟩ := Outcome.bind_eq_ok.1 h
    obtain ⟨d, -, h⟩ := Outcome.bind_eq_ok.1 h
    rw [← Outcome.pure_eq_ok.1 h, hid]
  mirrors i b h := by
    obtain ⟨c, hc, h⟩ := Outcome.bind_eq_ok.1 h
    obtain ⟨d, hd, h⟩ := Outcome.bind_eq_ok.1 h
    rw [← Outcome.pure_eq_ok.1 h]
    obtain ⟨hf, hg⟩ := hheld c d
    refine List.forall_mem_cons.2 ⟨?_, List.forall_mem_singleton.2 ?_⟩
    · rw [hf, hget i c hc]
    · rw [hg, hget' i d hd]

/-- A typed value of three doubles. -/
theorem Faithful.doubles {write : β → Instance} {make : Double → Double → Double → β}
    {identifier : String} {f g h : FieldSpec} (hf : f.kind = .float) (hg : g.kind = .float)
    (hh : h.kind = .float) (hid : ∀ x y z, (write (make x y z)).identifier = identifier)
    (hheld : ∀ x y z, held (write (make x y z)) f = .float x ∧
      held (write (make x y z)) g = .float y ∧ held (write (make x y z)) h = .float z) :
    Faithful write identifier [f, g, h] fun i =>
      return make (← i.double f.name) (← i.double g.name) (← i.double h.name) where
  identifier_eq i b hread := by
    obtain ⟨x, -, hread⟩ := Outcome.bind_eq_ok.1 hread
    obtain ⟨y, -, hread⟩ := Outcome.bind_eq_ok.1 hread
    obtain ⟨z, -, hread⟩ := Outcome.bind_eq_ok.1 hread
    rw [← Outcome.pure_eq_ok.1 hread, hid]
  mirrors i b hread := by
    obtain ⟨x, hx, hread⟩ := Outcome.bind_eq_ok.1 hread
    obtain ⟨y, hy, hread⟩ := Outcome.bind_eq_ok.1 hread
    obtain ⟨z, hz, hread⟩ := Outcome.bind_eq_ok.1 hread
    rw [← Outcome.pure_eq_ok.1 hread]
    obtain ⟨hxheld, hyheld, hzheld⟩ := hheld x y z
    unfold Mirrors
    simp only [List.forall_mem_cons]
    refine ⟨?_, ?_, ?_, List.forall_mem_nil _⟩
    · rw [hxheld, reads_double hf i x hx]
    · rw [hyheld, reads_double hg i y hy]
    · rw [hzheld, reads_double hh i z hz]

end Variant

namespace LossForm

/-- A form as an instance of its own parameters alone. -/
def written (form : LossForm) : Instance := ⟨form.identifier, form.parameters⟩

end LossForm

namespace Loss

/-- The names of the fields that all losses have. -/
def optionNames : List String := ["input_layer", "output_layer", "weights", "name", "collect"]

/-- For a field of its form a loss holds what the form does. -/
theorem held_form (l : Loss) {f : FieldSpec} (h : f.name ∉ optionNames) :
    held l.toInstance f = held l.form.written f := by
  rw [held, Instance.get?, toInstance, Mapping.lookup_append_of_not_mem h]
  rfl

/-- What reads the options and then a form is faithful when what reads the form is. -/
theorem faithful {identifier : String} {own : List FieldSpec}
    {read : Instance → Except VariantError LossForm} (name : Value)
    (hfresh : ∀ f ∈ own, f.name ∉ optionNames)
    (h : Faithful LossForm.written identifier own read) :
    Faithful toInstance identifier (fields own name) (ofInstance read) where
  identifier_eq i l hread := by
    obtain ⟨_, -, hread⟩ := Outcome.bind_eq_ok.1 hread
    obtain ⟨_, -, hread⟩ := Outcome.bind_eq_ok.1 hread
    obtain ⟨_, -, hread⟩ := Outcome.bind_eq_ok.1 hread
    obtain ⟨_, -, hread⟩ := Outcome.bind_eq_ok.1 hread
    obtain ⟨_, -, hread⟩ := Outcome.bind_eq_ok.1 hread
    obtain ⟨form, hform, hread⟩ := Outcome.bind_eq_ok.1 hread
    rw [← Outcome.pure_eq_ok.1 hread]
    exact h.identifier_eq i form hform
  mirrors i l hread := by
    obtain ⟨inputLayer, hinput, hread⟩ := Outcome.bind_eq_ok.1 hread
    obtain ⟨outputLayer, houtput, hread⟩ := Outcome.bind_eq_ok.1 hread
    obtain ⟨weights, hweights, hread⟩ := Outcome.bind_eq_ok.1 hread
    obtain ⟨name, hname, hread⟩ := Outcome.bind_eq_ok.1 hread
    obtain ⟨collect, hcollect, hread⟩ := Outcome.bind_eq_ok.1 hread
    obtain ⟨form, hform, hread⟩ := Outcome.bind_eq_ok.1 hread
    obtain rfl := Outcome.pure_eq_ok.1 hread
    unfold Mirrors
    simp only [fields, List.forall_mem_append, List.forall_mem_cons]
    refine ⟨⟨⟨?_, ?_, ?_, List.forall_mem_nil _⟩, fun f hf => ?_⟩, ?_, ?_, List.forall_mem_nil _⟩
    · exact (reads_tensor? rfl i inputLayer hinput).symm
    · exact (reads_tensor? rfl i outputLayer houtput).symm
    · exact (reads_double rfl i weights hweights).symm
    · rw [held_form _ (hfresh f hf)]
      exact h.mirrors i form hform f hf
    · exact (reads_string? rfl i name hname).symm
    · exact (reads_bool rfl i collect hcollect).symm

/-- Every member of the family is faithful. -/
theorem faithful_of_mem :
    ∀ m ∈ family.members, Faithful toInstance m.identifier m.fields m.build := by
  have hdim : ∀ f ∈ [FieldSpec.required "dim" .int], f.name ∉ optionNames := by decide
  simp only [family, List.forall_mem_cons]
  exact ⟨faithful _ (by decide) (.plain LossForm.absoluteDifference),
    faithful _ (by decide) (.plain LossForm.meanSquaredError),
    faithful _ (by decide) (.one (reads_double rfl) (fun _ => rfl) fun _ => rfl),
    faithful _ (by decide) (.one (reads_double rfl) (fun _ => rfl) fun _ => rfl),
    faithful _ (by decide) (.two (reads_double rfl) (reads_double rfl) (fun _ _ => rfl)
      fun _ _ => ⟨rfl, rfl⟩),
    faithful _ (by decide) (.one (reads_double rfl) (fun _ => rfl) fun _ => rfl),
    faithful _ (by decide) (.one (reads_double rfl) (fun _ => rfl) fun _ => rfl),
    faithful _ (by decide) (.plain LossForm.hingeLoss),
    faithful _ hdim (.one (reads_int64 rfl) (fun _ => rfl) fun _ => rfl),
    faithful _ (by decide) (.plain LossForm.poissonLoss),
    faithful _ hdim (.one (reads_int64 rfl) (fun _ => rfl) fun _ => rfl), List.forall_mem_nil _⟩

theorem distinct_of_mem : ∀ m ∈ family.members, m.Distinct := by
  have hnames : ∀ names ∈ family.members.map fun m => m.fields.map FieldSpec.name,
      names.Nodup := by decide
  exact fun m hm => hnames _ (List.mem_map_of_mem hm)

end Loss

namespace Method

/-- A method as an instance of its own parameters alone. -/
def written (method : Method) : Instance := ⟨method.identifier, method.parameters⟩

end Method

namespace Optimizer

/-- The names of the fields that all optimizers have. -/
def optionNames : List String := ["learning_rate", "name"]

/-- For a field of its method an optimizer holds what the method does. -/
theorem held_method (o : Optimizer) {f : FieldSpec} (h : f.name ∉ optionNames) :
    held o.toInstance f = held o.method.written f := by
  rw [held, Instance.get?, toInstance, Mapping.lookup_append_of_not_mem h]
  rfl

/-- What reads the options and then a method is faithful when what reads the method is. -/
theorem faithful {identifier : String} {rate : Double} {own : List FieldSpec}
    {read : Instance → Except VariantError Method} (hfresh : ∀ f ∈ own, f.name ∉ optionNames)
    (h : Faithful Method.written identifier own read) :
    Faithful toInstance identifier (member identifier rate own read).fields
      (ofInstance read) where
  identifier_eq i o hread := by
    obtain ⟨_, -, hread⟩ := Outcome.bind_eq_ok.1 hread
    obtain ⟨_, -, hread⟩ := Outcome.bind_eq_ok.1 hread
    obtain ⟨method, hmethod, hread⟩ := Outcome.bind_eq_ok.1 hread
    rw [← Outcome.pure_eq_ok.1 hread]
    exact h.identifier_eq i method hmethod
  mirrors i o hread := by
    obtain ⟨learningRate, hrate, hread⟩ := Outcome.bind_eq_ok.1 hread
    obtain ⟨name, hname, hread⟩ := Outcome.bind_eq_ok.1 hread
    obtain ⟨method, hmethod, hread⟩ := Outcome.bind_eq_ok.1 hread
    obtain rfl := Outcome.pure_eq_ok.1 hread
    unfold Mirrors
    simp only [member, List.forall_mem_append, List.forall_mem_cons]
    refine ⟨⟨⟨?_, List.forall_mem_nil _⟩, fun f hf => ?_⟩, ?_, List.forall_mem_nil _⟩
    · exact (reads_double rfl i learningRate hrate).symm
    · rw [held_method _ (hfresh f hf)]
      exact h.mirrors i method hmethod f hf
    · exact (reads_string? rfl i name hname).symm

/-- Every member of the family is faithful. -/
theorem faithful_of_mem :
    ∀ m ∈ family.members, Faithful toInstance m.identifier m.fields m.build := by
  simp only [family, List.forall_mem_cons]
  exact ⟨faithful (by decide) (.plain Method.sgd),
    faithful (by decide) (.two (reads_double rfl) (reads_bool rfl) (fun _ _ => rfl)
      fun _ _ => ⟨rfl, rfl⟩),
    faithful (by decide) (.doubles rfl rfl rfl (fun _ _ _ => rfl) fun _ _ _ => ⟨rfl, rfl, rfl⟩),
    faithful (by decide) (.one (reads_double rfl) (fun _ => rfl) fun _ => rfl),
    faithful (by decide) (.doubles rfl rfl rfl (fun _ _ _ => rfl) fun _ _ _ => ⟨rfl, rfl, rfl⟩),
    List.forall_mem_nil _⟩

theorem distinct_of_mem : ∀ m ∈ family.members, m.Distinct := by
  have hnames : ∀ names ∈ family.members.map fun m => m.fields.map FieldSpec.name,
      names.Nodup := by decide
  exact fun m hm => hnames _ (List.mem_map_of_mem hm)

end Optimizer

end WorkloadSpec
