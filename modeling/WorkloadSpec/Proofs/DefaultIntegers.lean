import WorkloadSpec.Proofs.FieldReading
import WorkloadSpec.Proofs.NearestDouble
import WorkloadSpec.Proofs.SelectionGrammar

/-!
Integers against an integer default. They are compared by their nearest doubles, so that a default
of at most 53 bits is taken for no other integer, and a longer one for just those that are rounded
like it. The minimal form writes out an integer that is rounded otherwise, whatever else it leaves
out, and what it does leave out comes back as the default.
-/
namespace WorkloadSpec

open Double Mapping Variant Member

theorem Value.natAbs_lt_of_ofInt? {n : Int} {v : Value} (h : Value.ofInt? n = some v) :
    n.natAbs < 2 ^ 64 := by
  unfold Value.ofInt? at h
  split at h
  · omega
  · cases h

/-- Where all entries of a key agree it does not matter which of them counts. -/
theorem Mapping.lookup_foldl_put {entries m : Mapping} {key : String} {v : Value}
    (hsame : ∀ e ∈ entries, e.1 = key → e.2 = v)
    (h : m.lookup key = some v ∨ key ∈ keys entries) :
    (entries.foldl (fun m e => put m e.1 e.2) m).lookup key = some v := by
  induction entries generalizing m with
  | nil => exact h.resolve_right List.not_mem_nil
  | cons e entries ih =>
    refine ih (fun e he => hsame e (List.mem_cons_of_mem _ he)) ?_
    rw [lookup_put]
    by_cases hkey : key = e.1
    · rw [if_pos hkey, hsame e List.mem_cons_self hkey.symm]
      exact Or.inl rfl
    · rw [if_neg hkey]
      exact h.imp_right fun hmem => (List.mem_cons.1 hmem).resolve_left hkey

namespace Variant

variable {α : Type} {m : Member α} {f : FieldSpec} {i j : Instance} {d v : Int}

/-- A field whose default is an integer of 64 bits. -/
structure FieldSpec.DefaultsTo (f : FieldSpec) (d : Int) : Prop where
  default : f.default = some (.int d)
  bounded : Value.ofInt? d = some (.int d)

theorem FieldSpec.DefaultsTo.isDefault_iff (hd : f.DefaultsTo d)
    (hv : Value.ofInt? v = some (.int v)) :
    f.isDefault (.int v) = true ↔ nearest v = nearest d := by
  have hsame := same_ofInt_iff (Value.natAbs_lt_of_ofInt? hd.bounded) (Value.natAbs_lt_of_ofInt? hv)
  rw [eq_comm (a := nearest v), ← hsame, FieldSpec.isDefault, hd.default]
  rfl

namespace Member

/-- Whether a field is not in the minimal form. -/
def LeftOut (m : Member α) (i : Instance) (f : FieldSpec) : Prop :=
  m.isBare i = true ∨ isDropped i f = true

/-- Only what is default or unset is left out. -/
theorem LeftOut.silent (h : m.LeftOut i f) (hf : f ∈ m.fields) :
    f.isDefault (held i f) = true ∨ held i f = .null := by
  cases hdropped : isDropped i f with
  | true =>
    rcases Bool.or_eq_true_iff.1 (Bool.and_eq_true_iff.1 hdropped).2 with hnull | hdefault
    · exact Or.inr (Value.isNull_iff.1 hnull)
    · exact Or.inl hdefault
  | false =>
    have hbare : m.isBare i = true := h.resolve_right (hdropped ▸ Bool.false_ne_true)
    exact Or.inl (List.all_eq_true.1 hbare f (mem_kept.2 ⟨hf, hdropped⟩))

theorem leftOut_of_default (hreduced : f.reduced = true) (h : f.isDefault (held i f) = true) :
    m.LeftOut i f := by
  refine Or.inr ?_
  rw [isDropped, hreduced, h, Bool.or_true, Bool.and_true]

/-- What is not left out is written, also where other fields have the same name. -/
theorem exists_reduce_of_not_leftOut (hf : f ∈ m.fields) (h : ¬m.LeftOut i f) : ∃ parameters,
    m.reduce i = .map [(m.identifier, .map parameters)] ∧
      parameters.lookup f.name = some (held i f) := by
  obtain ⟨hbare, hdropped⟩ := not_or.1 h
  rw [reduce_eq, if_neg hbare]
  refine ⟨_, rfl, lookup_foldl_put (fun e he hname => ?_) (Or.inr ?_)⟩
  · obtain ⟨g, -, rfl⟩ := List.mem_map.1 he
    exact congrArg (fun name => (i.get? name).getD .null) hname
  · rw [keys_kept]
    exact List.mem_map_of_mem (mem_kept.2 ⟨hf, Bool.eq_false_iff.2 hdropped⟩)

theorem LeftOut.lookup_parameters (h : m.LeftOut i f) (hnames : m.Distinct) (hf : f ∈ m.fields) :
    (m.parameters i).lookup f.name = none :=
  (Member.lookup_parameters hnames hf).trans (if_pos h)

theorem lookup_parameters_of_not_leftOut (h : ¬m.LeftOut i f) (hnames : m.Distinct)
    (hf : f ∈ m.fields) : (m.parameters i).lookup f.name = some (held i f) :=
  (lookup_parameters hnames hf).trans (if_neg h)

end Member

namespace Family

variable {family : Family α}

/-- The minimal form has what an instance holds for a field written out. -/
def Writes (family : Family α) (i : Instance) (f : FieldSpec) : Prop :=
  ∃ parameters, family.reduce i = .map [(i.identifier, .map parameters)] ∧
    parameters.lookup f.name = some (held i f)

theorem reduce_of_member? (hm : family.member? i.identifier = some m) :
    family.reduce i = m.reduce i := by
  rw [Family.reduce, hm]

theorem writes_of_not_leftOut (hm : family.member? i.identifier = some m) (hf : f ∈ m.fields)
    (h : ¬m.LeftOut i f) : family.Writes i f := by
  rw [Writes, reduce_of_member? hm, ← identifier_of_member? hm]
  exact exists_reduce_of_not_leftOut hf h

/-- Where names are different, nothing else writes what is left out. -/
theorem not_writes_of_leftOut (hm : family.member? i.identifier = some m) (hnames : m.Distinct)
    (hf : f ∈ m.fields) (h : m.LeftOut i f) : ¬family.Writes i f := by
  rintro ⟨parameters, hwritten, hlookup⟩
  have hselect := select_reduce (i := i) family hnames
  rw [← reduce_of_member? hm, hwritten] at hselect
  obtain rfl : parameters = m.parameters i := congrArg Prod.snd (Except.ok.inj hselect)
  cases hlookup.symm.trans (h.lookup_parameters hnames hf)

/-- A field is read from the minimal form as it was, or as its default where it is left out. -/
theorem get?_of_resolve_reduce (hm : family.member? i.identifier = some m) (hnames : m.Distinct)
    (hf : f ∈ m.fields) (h : family.resolve (family.reduce i) = .ok j) :
    j.get? f.name = some (held i f) ∨ m.LeftOut i f ∧ j.get? f.name = f.default := by
  rw [reduce_of_member? hm] at h
  obtain ⟨identifier, parameters, n, hraw, hn, hresolve⟩ := Family.resolve_eq_ok.1 h
  have hselect := (select_reduce family hnames).symm.trans (select_eq_ok.2 hraw)
  obtain ⟨rfl, rfl⟩ := Prod.mk.inj (Except.ok.inj hselect)
  rw [identifier_of_member? hm, hm] at hn
  obtain rfl := Option.some.inj hn
  obtain ⟨w, hw, hvalue⟩ := get?_of_resolve hnames hresolve hf
  rw [hw]
  by_cases hout : m.LeftOut i f
  · have hlookup := hout.lookup_parameters hnames hf
    rcases (fieldValue_eq_ok.1 hvalue).1 with hgiven | ⟨-, hdefault⟩
    · cases hgiven.symm.trans hlookup
    · exact Or.inr ⟨hout, hdefault.symm⟩
  · have hlookup := lookup_parameters_of_not_leftOut hout hnames hf
    rcases (fieldValue_eq_ok.1 hvalue).1 with hgiven | ⟨hnot, -⟩
    · exact Or.inl (hgiven.symm.trans hlookup)
    · exact absurd (mem_keys_of_lookup hlookup) hnot

/-- An integer of 64 bits is taken for the default of a field just when both are rounded to the
same integer, so a default of at most 53 bits is taken for no other. The minimal form writes out
whatever is rounded otherwise, and leaves out what is rounded alike if the field is reduced. What
is read from it again is the integer itself or, only where both are rounded alike, the default. -/
theorem default_integers_are_rounded_alike (hd : f.DefaultsTo d)
    (hv : Value.ofInt? v = some (.int v)) :
    (f.isDefault (.int v) = true ↔ nearest v = nearest d) ∧
    (d.natAbs < 2 ^ 53 → (f.isDefault (.int v) = true ↔ v = d)) ∧
    ∀ (family : Family α) (m : Member α) (i : Instance), f ∈ m.fields →
      family.member? i.identifier = some m → i.get? f.name = some (.int v) →
      (nearest v ≠ nearest d → family.Writes i f) ∧
      (m.Distinct → f.reduced = true → (family.Writes i f ↔ nearest v ≠ nearest d)) ∧
      (m.Distinct → ∀ j, family.resolve (family.reduce i) = .ok j →
        j.get? f.name = some (.int v) ∨
          nearest v = nearest d ∧ j.get? f.name = some (.int d)) := by
  have hiff := hd.isDefault_iff hv
  refine ⟨hiff, fun hsmall => hiff.trans (nearest_eq_iff_of_lt hsmall), ?_⟩
  intro family m i hf hm hget
  have hheld : held i f = .int v := held_of_get? hget
  have hsame : m.LeftOut i f → nearest v = nearest d := by
    intro hout
    rcases hout.silent hf with hdefault | hnull
    · exact hiff.1 (hheld ▸ hdefault)
    · rw [hheld] at hnull
      cases hnull
  have hwrites : nearest v ≠ nearest d → family.Writes i f :=
    fun hne => writes_of_not_leftOut hm hf fun hout => hne (hsame hout)
  refine ⟨hwrites, fun hnames hreduced => ⟨fun hwritten heq => ?_, hwrites⟩,
    fun hnames j hj => ?_⟩
  · have hdefault : f.isDefault (held i f) = true := hheld ▸ hiff.2 heq
    exact not_writes_of_leftOut hm hnames hf (leftOut_of_default hreduced hdefault) hwritten
  · rcases get?_of_resolve_reduce hm hnames hf hj with hsaid | ⟨hout, hdefault⟩
    · exact Or.inl (hheld ▸ hsaid)
    · exact Or.inr ⟨hsame hout, hdefault.trans hd.default⟩

/-- A reduced field with an integer for a default. -/
def count (d : Int) : FieldSpec :=
  { FieldSpec.defaulted "count" .int (.int d) with reduced := true }

/-- A family of one member, which has that field alone. -/
def samples (d : Int) : Family Instance := ⟨"sample", [⟨"Sample", [count d], .ok⟩]⟩

def sample (v : Int) : Value := .map [("Sample", .map [("count", .int v)])]

/-- The greatest default of 53 bits is told from the next integer, which is written and comes
back. -/
theorem default_integers_are_rounded_alike_count :
    let d : Int := 9007199254740991
    let v : Int := 9007199254740992
    (count d).DefaultsTo d ∧ Value.ofInt? v = some (.int v) ∧ d.natAbs < 2 ^ 53 ∧
      (count d).isDefault (.int v) = false ∧
      ∃ i, (samples d).resolve (sample v) = .ok i ∧ i.get? "count" = some (.int v) ∧
        (samples d).Writes i (count d) ∧
        ∃ j, (samples d).resolve ((samples d).reduce i) = .ok j ∧
          j.get? "count" = some (.int v) := by
  intro d v
  have hd : (count d).DefaultsTo d := ⟨rfl, rfl⟩
  have hsmall : d.natAbs < 2 ^ 53 := by decide
  have hne : nearest v ≠ nearest d := by decide
  obtain ⟨-, hexact, hreduce⟩ := default_integers_are_rounded_alike (α := Instance) hd (v := v) rfl
  have hdefault : (count d).isDefault (.int v) = false :=
    Bool.eq_false_iff.2 fun h => absurd ((hexact hsmall).1 h) (by decide)
  let m : Member Instance := ⟨"Sample", [count d], .ok⟩
  let i : Instance := ⟨"Sample", [("count", .int v)]⟩
  have hnames : m.Distinct := List.nodup_singleton _
  have hread : (samples d).resolve ((samples d).reduce i) = .ok (m.reread i) :=
    resolve_reduce_eq rfl hnames (List.forall_mem_singleton.2 (Or.inr rfl))
  obtain ⟨hwrites, -, hback⟩ := hreduce (samples d) m i (List.mem_singleton_self _) rfl rfl
  refine ⟨hd, rfl, hsmall, hdefault, i, rfl, rfl, hwrites hne, m.reread i, hread, ?_⟩
  exact (hback hnames _ hread).resolve_right fun h => hne h.1

/-- One more than `2 ^ 53` is taken for it. Where that is the default, a parameter that differs
from it is gone from the minimal form, and another comes back. -/
theorem exists_integer_taken_for_default :
    ¬(∀ (f : FieldSpec) (d v : Int), f.kind = .int → f.DefaultsTo d →
      Value.ofInt? v = some (.int v) → (f.isDefault (.int v) = true ↔ v = d)) ∧
    ∃ i j, (samples 9007199254740992).resolve (sample 9007199254740993) = .ok i ∧
      i.get? "count" = some (.int 9007199254740993) ∧
      (samples 9007199254740992).reduce i = .str "Sample" ∧
      (samples 9007199254740992).resolve (.str "Sample") = .ok j ∧
      j.get? "count" = some (.int 9007199254740992) := by
  refine ⟨fun hdefault => ?_, _, _, rfl, rfl, rfl, rfl, rfl⟩
  have hd : (count 9007199254740992).DefaultsTo 9007199254740992 := ⟨rfl, rfl⟩
  have hsame := (hdefault _ _ 9007199254740993 rfl hd rfl).1 rfl
  exact absurd hsame (by decide)

end Family

end Variant

end WorkloadSpec
