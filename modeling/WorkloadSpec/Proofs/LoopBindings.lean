import WorkloadSpec.Proofs.Mentions
import WorkloadSpec.Proofs.Unmarked

/-!
Loop bindings as declarations. A binding shadows what a name stands for just as a
declaration of that name does, so a loop expands to what its body yields over the
document with each item declared in turn, and fails with the first of these that fails.
Only a body that refers to the section of declarations itself could tell the two apart.
A loop inside that binds the same name declares it again, for its own body alone.
-/
namespace WorkloadSpec

namespace Mapping

theorem put_put (m : Mapping) (key : String) (v w : Value) :
    put (put m key v) key w = put m key w := by
  induction m with
  | nil => simp [put]
  | cons e m ih =>
    by_cases h : e.1 = key
    · simp [put, h]
    · simp [put, h, ih]

end Mapping

/-- The declarations of a document; without such a section there are none. -/
def declarations (document : Mapping) : Mapping :=
  match document.lookup Section.declarations.key with
  | some (.map m) => m
  | _ => []

/-- A document with one more declaration, or with another value for one it has. -/
def declare (document : Mapping) (name : String) (v : Value) : Mapping :=
  Mapping.put document Section.declarations.key
    (.map (Mapping.put (declarations document) name v))

/-- The section of declarations is a mapping, if there is one. -/
def DeclaresMapping (document : Mapping) : Prop :=
  ∀ v, document.lookup Section.declarations.key = some v → ∃ m, v = .map m

variable {document : Mapping} {scope : Scope} {x : String} {v w : Value}

theorem lookup_declare (document : Mapping) (x : String) (v : Value) (key : String) :
    (declare document x v).lookup key =
      if key = Section.declarations.key then
        some (.map (Mapping.put (declarations document) x v))
      else document.lookup key :=
  Mapping.lookup_put document _ key _

theorem declarations_declare :
    declarations (declare document x v) = Mapping.put (declarations document) x v := by
  conv_lhs => unfold declarations
  rw [lookup_declare, if_pos rfl]

theorem declare_declare : declare (declare document x v) x w = declare document x w := by
  unfold declare
  rw [show Mapping.put document Section.declarations.key
    (.map (Mapping.put (declarations document) x v)) = declare document x v from rfl,
    declarations_declare, Mapping.put_put, declare, Mapping.put_put]

theorem declaresMapping_declare : DeclaresMapping (declare document x v) := by
  intro u hu
  rw [lookup_declare, if_pos rfl] at hu
  exact ⟨_, (Option.some.inj hu).symm⟩

/-- A name that is looked up among the declarations is looked up in their mapping. -/
theorem lookup_declarations (h : DeclaresMapping document) (name : String) :
    (document.lookup Section.declarations.key).bind (Reference.enter? · name) =
      (declarations document).lookup name := by
  unfold declarations
  cases hd : document.lookup Section.declarations.key with
  | none => rfl
  | some u =>
    obtain ⟨m, rfl⟩ := h u hd
    rfl

/-- The outermost binding of a scope stands for what a declaration would. -/
theorem root?_declare (h : DeclaresMapping document) {name : String}
    (hname : name ≠ Section.declarations.key) :
    root? (declare document x v) scope name = root? document (scope ++ [(x, v)]) name := by
  unfold root?
  rw [lookup_declarations declaresMapping_declare, lookup_declarations h, declarations_declare,
    Mapping.lookup_put, lookup_declare, if_neg hname, List.lookup_append, Mapping.lookup_cons]
  cases scope.lookup name with
  | some u => rfl
  | none =>
    by_cases hx : name = x
    · rw [if_pos hx, if_pos hx]
      rfl
    · rw [if_neg hx, if_neg hx]
      rfl

/-- What does not refer to the declarations as a whole cannot tell the outermost binding
from a declaration, whatever is bound inside. -/
theorem expand_declare (h : DeclaresMapping document) {body : Value}
    (hbody : ¬ Mentions Section.declarations.key body) :
    expand document (scope ++ [(x, v)]) body = expand (declare document x v) scope body := by
  refine expand_congr fun name hname => ?_
  have hne : name ≠ Section.declarations.key := by
    rintro rfl
    exact hbody hname
  exact (root?_declare h hne).symm

theorem expand_rounds (h : DeclaresMapping document) {node items body : Value}
    {found : List Value}
    (hnode : Operator.read? node = .ok (some (.loop x items body)))
    (hbody : ¬ Mentions Section.declarations.key body)
    (hfound : iterable document [] items = .ok found) :
    expand document [] node =
      List.flatten <$> found.mapM fun item => expand (declare document x item) [] body := by
  have hround : ∀ item, expand document ([] ++ [(x, item)]) body =
      expand (declare document x item) [] body := fun item => expand_declare h hbody
  rw [expand_loop hnode, hfound, ← funext hround]
  exact bind_pure_comp (m := Except OperatorError) List.flatten _

/-- A loop over items that are found yields what its body yields over the document with each
of them declared, and fails as the first of these that fails. A loop over such a document
that binds the same name declares it anew, and what stands beside a loop is expanded over
the document as it is. -/
theorem expand_loop_declares (h : DeclaresMapping document) {node items body : Value}
    {found : List Value}
    (hnode : Operator.read? node = .ok (some (.loop x items body)))
    (hbody : ¬ Mentions Section.declarations.key body)
    (hfound : iterable document [] items = .ok found) :
    expand document [] node =
      List.flatten <$> found.mapM (fun item => expand (declare document x item) [] body) ∧
    (∀ e, expand document [] node = .error e ↔ ∃ before item after,
      found = before ++ item :: after ∧
      (∀ other ∈ before, ∃ ws, expand (declare document x other) [] body = .ok ws) ∧
      expand (declare document x item) [] body = .error e) ∧
    (∀ item inner among within others,
      Operator.read? inner = .ok (some (.loop x among within)) →
      ¬ Mentions Section.declarations.key within →
      iterable (declare document x item) [] among = .ok others →
        expand (declare document x item) [] inner =
          List.flatten <$> others.mapM fun other => expand (declare document x other) [] within) ∧
    (∀ before after, expandItems document [] (before ++ node :: after) = (do
      let ys ← expandItems document [] before
      let ws ← expand document [] node
      let zs ← expandItems document [] after
      pure (ys ++ ws ++ zs))) ∧
    ∀ key before after, expandEntries document [] (before ++ (key, node) :: after) = (do
      let ys ← expandEntries document [] before
      let ws ← expand document [] node
      let zs ← expandEntries document [] after
      pure (ys ++ (key, .seq ws) :: zs)) := by
  have hrounds := expand_rounds h hnode hbody hfound
  refine ⟨hrounds, fun e => ?_, ?_, ?_, ?_⟩
  · rw [hrounds, ← Outcome.mapM_eq_error]
    cases found.mapM (fun item => expand (declare document x item) [] body) <;>
      simp [Functor.map, Except.map]
  · intro item inner among within others hinner hwithin hothers
    rw [expand_rounds declaresMapping_declare hinner hwithin hothers]
    simp only [declare_declare]
  · intro before after
    rw [expandItems_append, expandItems]
    simp only [bind_assoc, pure_bind, List.append_assoc]
  · intro key before after
    rw [expandEntries_append, expandEntries, expandSlot_loop hnode]
    simp only [bind_assoc, pure_bind, bind_map_left, Option.map_some, Option.toList_some,
      List.singleton_append]

/-- A declaration of a name that a loop binds as well. -/
def shadowed : Mapping := [("declarations", .map [("x", .str "outer")])]

/-- A loop that binds the name `x`. -/
def innerLoop : Value :=
  .map [("for", .str "x"), ("in", .seq [.str "p", .str "q"]), ("do", .str "{{ a }}{{ x }}")]

/-- A loop around it that binds another name. -/
def outerLoop : Value := .map [("for", .str "a"), ("in", .seq [.int 1, .int 2]), ("do", innerLoop)]

theorem not_mentions_innerLoop : ¬ Mentions Section.declarations.key innerLoop := by
  intro h
  rcases (mentions_loop_iff rfl).1 h with ⟨v, hv, hname⟩ | hname
  · simp only [List.mem_cons, List.not_mem_nil, or_false] at hv
    rcases hv with rfl | rfl
    · obtain ⟨m, hm, -⟩ := mentions_str_iff.1 hname
      exact absurd hm List.not_mem_nil
    · obtain ⟨m, hm, -⟩ := mentions_str_iff.1 hname
      exact absurd hm List.not_mem_nil
  · obtain ⟨m, hm, hhead⟩ := mentions_str_iff.1 hname
    have hmarkers : (Template.ofString "{{ a }}{{ x }}").markers = [("a", []), ("x", [])] := rfl
    rw [hmarkers] at hm
    simp only [List.mem_cons, List.not_mem_nil, or_false] at hm
    rcases hm with rfl | rfl
    · exact absurd hhead (by decide)
    · exact absurd hhead (by decide)

theorem iterable_numbers (document : Mapping) :
    iterable document [] (.seq [.int 1, .int 2]) = .ok [.int 1, .int 2] := by
  have hnumber : ∀ n, expand document [] (.int n) = .ok [.int n] := by
    intro n
    exact expand_of_unmarked rfl (not_marked_int n)
  rw [iterable]
  exact expandItems_eq_self (by simp [hnumber])

theorem expand_innerLoop {document : Mapping} {one other : Value}
    (hone : (Template.ofString "{{ a }}{{ x }}").render document [("x", .str "p")] = .ok one)
    (hother : (Template.ofString "{{ a }}{{ x }}").render document [("x", .str "q")] =
      .ok other) : expand document [] innerLoop = .ok [one, other] := by
  have hitems : iterable document [] (.seq [.str "p", .str "q"]) = .ok [.str "p", .str "q"] := by
    have hunmarked : ∀ v ∈ [Value.str "p", Value.str "q"], expand document [] v = .ok [v] := by
      intro v hv
      simp only [List.mem_cons, List.not_mem_nil, or_false] at hv
      rcases hv with rfl | rfl
      · exact expand_of_unmarked rfl (by rw [marked_str_iff]; decide)
      · exact expand_of_unmarked rfl (by rw [marked_str_iff]; decide)
    rw [iterable]
    exact expandItems_eq_self hunmarked
  rw [innerLoop, expand_loop rfl]
  refine Outcome.bind_eq_ok.2 ⟨_, hitems, ?_⟩
  rw [List.mapM_cons, List.mapM_cons, expand_plain rfl, expand_plain rfl, expandPlain, expandPlain,
    hone, hother]
  rfl

/-- The inner binding shadows the declaration, and the outer one is there beside it. -/
theorem expand_outerLoop_declares :
    DeclaresMapping shadowed ∧
      Operator.read? outerLoop = .ok (some (.loop "a" (.seq [.int 1, .int 2]) innerLoop)) ∧
      iterable shadowed [] (.seq [.int 1, .int 2]) = .ok [.int 1, .int 2] ∧
      ¬ Mentions Section.declarations.key innerLoop ∧
      expand (declare shadowed "a" (.int 1)) [] innerLoop = .ok [.str "1p", .str "1q"] ∧
      expand (declare shadowed "a" (.int 2)) [] innerLoop = .ok [.str "2p", .str "2q"] ∧
      expand shadowed [] outerLoop = .ok [.str "1p", .str "1q", .str "2p", .str "2q"] := by
  have hdeclares : DeclaresMapping shadowed := by
    intro v hv
    exact ⟨_, (Option.some.inj hv).symm⟩
  have hfirst : expand (declare shadowed "a" (.int 1)) [] innerLoop = .ok [.str "1p", .str "1q"] :=
    expand_innerLoop rfl rfl
  have hsecond : expand (declare shadowed "a" (.int 2)) [] innerLoop = .ok [.str "2p", .str "2q"] :=
    expand_innerLoop rfl rfl
  have hread : Operator.read? outerLoop =
      .ok (some (.loop "a" (.seq [.int 1, .int 2]) innerLoop)) := rfl
  obtain ⟨hrounds, -⟩ := expand_loop_declares hdeclares hread not_mentions_innerLoop
    (iterable_numbers shadowed)
  refine ⟨hdeclares, hread, iterable_numbers shadowed, not_mentions_innerLoop, hfirst, hsecond, ?_⟩
  rw [hrounds, List.mapM_cons, List.mapM_cons, hfirst, hsecond]
  rfl

end WorkloadSpec
