import WorkloadSpec.Proofs.Expansion

/-!
Expansion leaves no operator behind. Data gets into a result as written text, through
a reference, as a loop item and as the yields of an operator in a sequence. A reference
points at operator-free data only, whatever the scope binds, and a mapping that comes
out of expansion has no key that the plain mapping it was made from did not have. So
nothing copied from the document or from a loop can bring in an operator.
-/
namespace WorkloadSpec

variable {document : Mapping} {scope : Scope} {v w : Value}

theorem plain_of_resolveReference {text : String}
    (h : resolveReference document scope text = .ok v) : holdsOperators v = false := by
  unfold resolveReference at h
  split at h
  · cases h
  split at h
  · cases h
  split at h
  · cases h
  · next hplain => exact Except.ok.inj h ▸ eq_false_of_ne_true hplain

theorem plain_of_render {t : Template} (h : t.render document scope = .ok v) :
    holdsOperators v = false := by
  unfold Template.render at h
  split at h
  · exact plain_of_resolveReference h
  · obtain ⟨lead, -, hrest⟩ := Outcome.bind_eq_ok.1 h
    obtain ⟨rest, -, hv⟩ := Outcome.bind_eq_ok.1 hrest
    obtain rfl := Except.ok.inj hv
    rfl

/-- Whatever a value yields, and whatever a loop goes over on its account, is free of
operators. The document and the scope are any. -/
structure YieldsPlain (v : Value) : Prop where
  expand : ∀ document scope ws, expand document scope v = .ok ws →
    ∀ w ∈ ws, holdsOperators w = false
  iterable : ∀ document scope items, iterable document scope v = .ok items →
    ∀ w ∈ items, holdsOperators w = false

theorem plain_of_single {ws : List Value} (hws : ∀ w ∈ ws, holdsOperators w = false)
    (h : single ws = some w) : holdsOperators w = false := by
  cases ws with
  | nil => cases h
  | cons v vs =>
    cases vs with
    | nil =>
      obtain rfl := Option.some.inj h
      exact hws v List.mem_cons_self
    | cons v' vs =>
      obtain rfl := Option.some.inj h
      exact holdsOperators_seq_eq_false.2 hws

theorem YieldsPlain.expandSlot (hv : YieldsPlain v)
    (h : expandSlot document scope v = .ok (some w)) : holdsOperators w = false := by
  by_cases hloop : ∃ binding items body,
      Operator.read? v = .ok (some (.loop binding items body))
  · obtain ⟨binding, items, body, hread⟩ := hloop
    rw [expandSlot_loop hread] at h
    obtain ⟨ws, hws, hsome⟩ := Outcome.map_eq_ok.1 h
    obtain rfl := Option.some.inj hsome
    exact holdsOperators_seq_eq_false.2 (hv.expand document scope ws hws)
  · have hread : ∀ binding items body,
        Operator.read? v ≠ .ok (some (.loop binding items body)) :=
      fun binding items body hread => hloop ⟨binding, items, body, hread⟩
    rw [expandSlot_eq_single hread] at h
    obtain ⟨ws, hws, hsome⟩ := Outcome.map_eq_ok.1 h
    exact plain_of_single (hv.expand document scope ws hws) hsome

theorem plain_of_expandItems {items ws : List Value} (hall : ∀ v ∈ items, YieldsPlain v)
    (h : expandItems document scope items = .ok ws) : ∀ w ∈ ws, holdsOperators w = false := by
  induction items generalizing ws with
  | nil =>
    rw [expandItems] at h
    exact Except.ok.inj h ▸ fun _ hw => absurd hw List.not_mem_nil
  | cons v items ih =>
    rw [expandItems] at h
    obtain ⟨yields, hyields, hmore⟩ := Outcome.bind_eq_ok.1 h
    obtain ⟨rest, hrest, hws⟩ := Outcome.bind_eq_ok.1 hmore
    obtain rfl := Except.ok.inj hws
    intro w hw
    rcases List.mem_append.1 hw with hw | hw
    · exact (hall v List.mem_cons_self).expand document scope yields hyields w hw
    · exact ih (fun u hu => hall u (List.mem_cons_of_mem v hu)) hrest w hw

/-- Expanded entries have keys that were there and operator-free values. -/
theorem plain_of_expandEntries {entries fs : Mapping} (hall : ∀ e ∈ entries, YieldsPlain e.2)
    (h : expandEntries document scope entries = .ok fs) :
    Mapping.keys fs ⊆ Mapping.keys entries ∧ ∀ f ∈ fs, holdsOperators f.2 = false := by
  induction entries generalizing fs with
  | nil =>
    rw [expandEntries] at h
    obtain rfl := Except.ok.inj h
    exact ⟨List.Subset.refl _, fun _ hf => absurd hf List.not_mem_nil⟩
  | cons e entries ih =>
    obtain ⟨key, v⟩ := e
    rw [expandEntries] at h
    obtain ⟨slot, hslot, hmore⟩ := Outcome.bind_eq_ok.1 h
    obtain ⟨rest, hrest, hfs⟩ := Outcome.bind_eq_ok.1 hmore
    obtain rfl := Except.ok.inj hfs
    obtain ⟨hkeys, hplain⟩ := ih (fun d hd => hall d (List.mem_cons_of_mem _ hd)) hrest
    cases slot with
    | none => exact ⟨fun k hk => List.mem_cons_of_mem _ (hkeys hk), hplain⟩
    | some w =>
      have hw : holdsOperators w = false := (hall _ List.mem_cons_self).expandSlot hslot
      exact ⟨List.cons_subset_cons _ hkeys, List.forall_mem_cons.2 ⟨hw, hplain⟩⟩

/-- A loop goes over data that a reference points at, or over yields. -/
theorem plain_of_iterable {items : List Value}
    (hall : ∀ vs, v = .seq vs → ∀ u ∈ vs, YieldsPlain u)
    (h : iterable document scope v = .ok items) : ∀ w ∈ items, holdsOperators w = false := by
  unfold iterable at h
  split at h
  · obtain ⟨found, hfound, hitems⟩ := Outcome.bind_eq_ok.1 h
    split at hitems
    · obtain rfl := Except.ok.inj hitems
      exact holdsOperators_seq_eq_false.1 (plain_of_resolveReference hfound)
    · cases hitems
  · next vs => exact plain_of_expandItems (hall vs rfl) h
  · cases h

/-- A value that is no operator yields itself. -/
theorem YieldsPlain.of_plain (hread : Operator.read? v = .ok none)
    (hv : ∀ document scope w, expandPlain document scope v = .ok w → holdsOperators w = false)
    (hall : ∀ vs, v = .seq vs → ∀ u ∈ vs, YieldsPlain u) : YieldsPlain v where
  expand document scope ws h w hw := by
    rw [expand_plain hread] at h
    obtain ⟨w', hw', rfl⟩ := Outcome.map_eq_ok.1 h
    obtain rfl := List.mem_singleton.1 hw
    exact hv document scope w hw'
  iterable document scope items h := plain_of_iterable hall h

/-- A scalar stands for itself. -/
theorem YieldsPlain.of_scalar (hstr : ∀ s, v ≠ .str s) (hseq : ∀ vs, v ≠ .seq vs)
    (hmap : ∀ es, v ≠ .map es) : YieldsPlain v := by
  have hplain : Operator.read? v = .ok none ∧ holdsOperators v = false := by
    cases v with
    | map es => exact absurd rfl (hmap es)
    | seq vs => exact absurd rfl (hseq vs)
    | _ => exact ⟨rfl, rfl⟩
  refine .of_plain hplain.1 (fun document scope w hw => ?_) fun vs h => absurd h (hseq vs)
  rw [expandPlain_scalar hstr hseq hmap] at hw
  exact Except.ok.inj hw ▸ hplain.2

theorem yieldsPlain (v : Value) : YieldsPlain v := by
  induction v using Operator.induction with
  | malformed v e hread =>
    refine ⟨fun document scope ws h => ?_, fun document scope items h =>
      plain_of_iterable (fun vs hv => by subst hv; cases hread) h⟩
    rw [expand_malformed hread] at h
    cases h
  | loop v binding items body hread _ hbody =>
    refine ⟨fun document scope ws h => ?_, fun document scope items h =>
      plain_of_iterable (fun vs hv => by subst hv; cases hread) h⟩
    rw [expand_loop hread] at h
    obtain ⟨found, -, hrounds⟩ := Outcome.bind_eq_ok.1 h
    obtain ⟨yields, hyields, hws⟩ := Outcome.bind_eq_ok.1 hrounds
    obtain rfl := Except.ok.inj hws
    intro w hw
    obtain ⟨us, hus, hw⟩ := List.mem_flatten.1 hw
    -- Each round of the loop is the body in a scope of its own.
    obtain ⟨item, -, hround⟩ :=
      Outcome.exists_of_mem_forall₂ (Outcome.mapM_eq_ok.1 hyields) hus
    exact hbody.expand document _ us hround w hw
  | branch v test body otherwise hread hbody hother =>
    refine ⟨fun document scope ws h => ?_, fun document scope items h =>
      plain_of_iterable (fun vs hv => by subst hv; cases hread) h⟩
    rw [expand_branch hread] at h
    obtain ⟨holds, -, hws⟩ := Outcome.bind_eq_ok.1 h
    split at hws
    · exact hbody.expand document scope ws hws
    split at hws
    · next other => exact (hother other rfl).expand document scope ws hws
    · obtain rfl := Except.ok.inj hws
      exact fun _ hw => absurd hw List.not_mem_nil
  | null => exact .of_scalar (by simp) (by simp) (by simp)
  | bool b => exact .of_scalar (by simp) (by simp) (by simp)
  | int n => exact .of_scalar (by simp) (by simp) (by simp)
  | float x => exact .of_scalar (by simp) (by simp) (by simp)
  | str s =>
    refine .of_plain rfl (fun document scope w h => ?_) (by simp)
    rw [expandPlain] at h
    exact plain_of_render h
  | seq items hitems =>
    refine .of_plain rfl (fun document scope w h => ?_) fun vs hvs => Value.seq.inj hvs ▸ hitems
    rw [expandPlain] at h
    obtain ⟨ws, hws, rfl⟩ := Outcome.map_eq_ok.1 h
    exact holdsOperators_seq_eq_false.2 (plain_of_expandItems hitems hws)
  | map entries hread hentries =>
    refine .of_plain hread (fun document scope w h => ?_) (by simp)
    rw [expandPlain] at h
    obtain ⟨fs, hfs, rfl⟩ := Outcome.map_eq_ok.1 h
    obtain ⟨hkeys, hplain⟩ := plain_of_expandEntries hentries hfs
    obtain ⟨hfor, hif⟩ := Operator.read?_map_eq_none.1 hread
    exact holdsOperators_map_eq_false.2
      ⟨fun h => hfor (hkeys h), fun h => hif (hkeys h), hplain⟩

/-- No operator comes out of a section either. -/
theorem plain_of_expandSection (h : expandSection document v = .ok w) :
    holdsOperators w = false := by
  obtain ⟨slot, hslot, rfl⟩ := Outcome.map_eq_ok.1 h
  cases slot with
  | none => rfl
  | some w => exact (yieldsPlain v).expandSlot hslot

/-- No operator comes out of expansion, in any scope: not from a value, not from a
section, and neither from the items of a loop nor from a template. -/
theorem expansion_holds_no_operators (document : Mapping) (v : Value) :
    (∀ scope ws, expand document scope v = .ok ws → ∀ w ∈ ws, holdsOperators w = false) ∧
    (∀ w, expandSection document v = .ok w → holdsOperators w = false) ∧
    (∀ scope items, iterable document scope v = .ok items →
      ∀ w ∈ items, holdsOperators w = false) ∧
    ∀ scope text w, (Template.ofString text).render document scope = .ok w →
      holdsOperators w = false := by
  refine ⟨(yieldsPlain v).expand document, fun w h => plain_of_expandSection h,
    (yieldsPlain v).iterable document, fun scope text w h => ?_⟩
  exact plain_of_render h

/-- Data to loop over, beside an operator that must not be referred to. -/
def hosts : Mapping :=
  [("declarations", .map [("hosts", .seq [.map [("name", .str "a")], .str "b"]),
    ("later", .map [("if", .str "ready"), ("do", .int 1)])])]

/-- A branch with a template for the item of a loop. -/
def visit : Value := .map [("if", .bool true), ("do", .seq [.str "{{ h }}", .int 1])]

def visits : Value := .map [("for", .str "h"), ("in", .str "hosts"), ("do", visit)]

theorem iterable_hosts :
    iterable hosts [] (.str "hosts") = .ok [.map [("name", .str "a")], .str "b"] := by
  rw [iterable]
  rfl

theorem expand_visit {item : Value} (h : holdsOperators item = false) :
    expand hosts [("h", item)] visit = .ok [.seq [item, .int 1]] := by
  have hrender : (Template.ofString "{{ h }}").render hosts [("h", item)] = .ok item := by
    change (if holdsOperators item then Except.error (OperatorError.reference "h" .holdsOperators)
      else .ok item) = Except.ok item
    rw [h]
    rfl
  have hnumber : expandPlain hosts [("h", item)] (.int 1) = .ok (.int 1) :=
    expandPlain_scalar (by simp) (by simp) (by simp)
  rw [visit, expand_branch rfl]
  refine Outcome.bind_eq_ok.2 ⟨true, rfl, ?_⟩
  rw [if_pos rfl, expand_plain rfl, expandPlain, expandItems, expand_plain rfl, expandPlain,
    expandItems, expand_plain rfl, hnumber, expandItems, hrender]
  rfl

theorem expand_visits : expand hosts [] visits =
    .ok [.seq [.map [("name", .str "a")], .int 1], .seq [.str "b", .int 1]] := by
  rw [visits, expand_loop rfl]
  refine Outcome.bind_eq_ok.2 ⟨_, iterable_hosts, ?_⟩
  rw [List.mapM_cons, expand_visit rfl, List.mapM_cons, expand_visit rfl]
  rfl

theorem expansion_of_visits_holds_no_operators :
    ∃ a b : Value, expand hosts [] visits = .ok [a, b] ∧ holdsOperators a = false ∧
      holdsOperators b = false ∧
    (∃ w, expandSection hosts visits = .ok w ∧ holdsOperators w = false) ∧
    (∃ item rest, iterable hosts [] (.str "hosts") = .ok (item :: rest) ∧
      holdsOperators item = false) ∧
    ∃ w, (Template.ofString "{{ hosts }}").render hosts [] = .ok w ∧ holdsOperators w = false := by
  obtain ⟨hexpand, hsection, -, -⟩ := expansion_holds_no_operators hosts visits
  obtain ⟨-, -, hiterable, hrender⟩ := expansion_holds_no_operators hosts (.str "hosts")
  have hroot : expandSection hosts visits =
      .ok (.seq [.seq [.map [("name", .str "a")], .int 1], .seq [.str "b", .int 1]]) := by
    rw [expandSection, expandSlot]
    exact Outcome.map_eq_ok.2 ⟨_, Outcome.map_eq_ok.2 ⟨_, expand_visits, rfl⟩, rfl⟩
  have htext : (Template.ofString "{{ hosts }}").render hosts [] =
      .ok (.seq [.map [("name", .str "a")], .str "b"]) := rfl
  have hplain := hexpand [] _ expand_visits
  exact ⟨_, _, expand_visits, hplain _ List.mem_cons_self,
    hplain _ (List.mem_cons_of_mem _ List.mem_cons_self), ⟨_, hroot, hsection _ hroot⟩,
    ⟨_, _, iterable_hosts, hiterable [] _ iterable_hosts _ List.mem_cons_self⟩,
    _, htext, hrender [] _ _ htext⟩

end WorkloadSpec
