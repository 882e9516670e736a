import WorkloadSpec.Proofs.Unmarked

/-!
A branch that is taken. It yields what its body yields, so in a sequence it might as well not be
there. In the place of a mapping's value or of a section the two differ for one kind of body: a
loop is the sequence of its yields, however few, and the branch around it is a sequence only if
there are two or more. So a loop with a single yield loses its sequence when it is guarded, and
a loop without yields becomes nothing.
-/
namespace WorkloadSpec

variable {document : Mapping} {scope : Scope} {v test body : Value} {otherwise : Option Value}

/-- A loop that yields fewer than two values. -/
def IsThinLoop (document : Mapping) (scope : Scope) (v : Value) : Prop :=
  (∃ binding items body, Operator.read? v = .ok (some (.loop binding items body))) ∧
    ∃ ws, expand document scope v = .ok ws ∧ ws.length < 2

theorem single_eq_seq_iff {ws : List Value} : single ws = some (.seq ws) ↔ 2 ≤ ws.length := by
  match ws with
  | [] => simp [single]
  | [w] =>
    -- No value is a sequence of itself.
    have hne : w ≠ .seq [w] := by
      intro h
      have hsize := congrArg sizeOf h
      simp only [Value.seq.sizeOf_spec, List.cons.sizeOf_spec, List.nil.sizeOf_spec] at hsize
      omega
    simp [single, hne]
  | w :: w' :: ws => simp [single]

/-- As a section a sequence of fewer than two yields is not what the yields are on their own. -/
theorem getD_single_eq_seq_iff {ws : List Value} :
    (single ws).getD .null = .seq ws ↔ 2 ≤ ws.length := by
  rw [← single_eq_seq_iff]
  cases ws with
  | nil => simp [single]
  | cons w ws => cases ws <;> simp [single]

theorem expand_of_taken (hread : Operator.read? v = .ok (some (.branch test body otherwise)))
    (htest : condition document scope test = .ok true) :
    expand document scope v = expand document scope body := by
  rw [expand_branch hread, htest]
  rfl

theorem expandSlot_of_taken (hread : Operator.read? v = .ok (some (.branch test body otherwise)))
    (htest : condition document scope test = .ok true) :
    expandSlot document scope v = single <$> expand document scope body := by
  have hloop : ∀ binding items inner,
      Operator.read? v ≠ .ok (some (.loop binding items inner)) := by
    intro binding items inner h
    cases hread.symm.trans h
  rw [expandSlot_eq_single hloop, expand_of_taken hread htest]

/-- What a taken branch is in its place and what its body is there come out the same under `f`,
if only `f` tells fewer than two yields from the sequence of them. -/
theorem map_expandSlot_taken_eq_iff {γ : Type} {f : Option Value → γ}
    (hf : ∀ ws, f (single ws) = f (some (.seq ws)) ↔ 2 ≤ ws.length)
    (hread : Operator.read? v = .ok (some (.branch test body otherwise)))
    (htest : condition document scope test = .ok true) :
    f <$> expandSlot document scope v = f <$> expandSlot document scope body ↔
      ¬IsThinLoop document scope body := by
  rw [expandSlot_of_taken hread htest]
  by_cases hloop : ∃ binding items inner,
      Operator.read? body = .ok (some (.loop binding items inner))
  · obtain ⟨binding, items, inner, hbody⟩ := hloop
    rw [expandSlot_loop hbody]
    cases hws : expand document scope body with
    | error e =>
      refine iff_of_true rfl ?_
      rintro ⟨-, ws, hok, -⟩
      cases hws.symm.trans hok
    | ok ws =>
      have heq : f <$> single <$> (Except.ok ws : Except OperatorError (List Value)) =
          f <$> (fun ws => some (.seq ws)) <$> Except.ok ws ↔
          f (single ws) = f (some (.seq ws)) := ⟨Except.ok.inj, congrArg Except.ok⟩
      rw [heq, hf]
      constructor
      · rintro hlength ⟨-, ws', hok, hfew⟩
        obtain rfl := Except.ok.inj (hws.symm.trans hok)
        omega
      · intro hthin
        by_contra hfew
        exact hthin ⟨⟨binding, items, inner, hbody⟩, ws, hws, by omega⟩
  · have hbody : ∀ binding items inner,
        Operator.read? body ≠ .ok (some (.loop binding items inner)) :=
      fun binding items inner h => hloop ⟨binding, items, inner, h⟩
    rw [expandSlot_eq_single hbody]
    exact iff_of_true rfl fun hthin => hloop hthin.1

theorem expandSlot_taken_eq_iff
    (hread : Operator.read? v = .ok (some (.branch test body otherwise)))
    (htest : condition document scope test = .ok true) :
    expandSlot document scope v = expandSlot document scope body ↔
      ¬IsThinLoop document scope body := by
  have h := map_expandSlot_taken_eq_iff (f := id) (fun _ => single_eq_seq_iff) hread htest
  rwa [id_map, id_map] at h

theorem expandSection_taken_eq_iff
    (hread : Operator.read? v = .ok (some (.branch test body otherwise)))
    (htest : condition document [] test = .ok true) :
    expandSection document v = expandSection document body ↔ ¬IsThinLoop document [] body :=
  map_expandSlot_taken_eq_iff (fun _ => getD_single_eq_seq_iff) hread htest

/-- A value under a condition. -/
def guarded (test body : Value) : Value := .map [("if", test), ("do", body)]

/-- A loop that goes over texts and yields each of them. -/
def each (texts : List String) : Value :=
  .map [("for", .str "x"), ("in", .seq (texts.map .str)), ("do", .str "\x7b\x7b x \x7d\x7d")]

theorem expand_each {texts : List String} (h : ∀ t ∈ texts, ¬HasBraces t.toList) :
    expand document [] (each texts) = .ok (texts.map .str) := by
  have hread : Operator.read? (each texts) = .ok (some (.loop "x" (.seq (texts.map .str))
      (.str "\x7b\x7b x \x7d\x7d"))) := rfl
  have hitems : iterable document [] (.seq (texts.map .str)) = .ok (texts.map .str) := by
    rw [iterable]
    refine expandItems_eq_self (List.forall_mem_map.2 fun t ht => ?_)
    exact expand_of_unmarked rfl fun hmarked => h t ht (marked_str_iff.1 hmarked)
  have hround : ∀ t : String, expand document [("x", .str t)] (.str "\x7b\x7b x \x7d\x7d") =
      .ok [.str t] := by
    intro t
    rw [expand_plain rfl, expandPlain]
    rfl
  rw [expand_loop hread]
  refine Outcome.bind_eq_ok.2 ⟨_, hitems, Outcome.bind_eq_ok.2
    ⟨texts.map fun t => [.str t], Outcome.mapM_eq_ok.2 ?_, ?_⟩⟩
  · rw [List.forall₂_map_left_iff, List.forall₂_map_right_iff, List.forall₂_same]
    exact fun t _ => hround t
  · rw [← List.flatMap_def, List.map_eq_flatMap]
    rfl

theorem isThinLoop_each {texts : List String} (h : ∀ t ∈ texts, ¬HasBraces t.toList) :
    IsThinLoop document [] (each texts) ↔ texts.length < 2 := by
  constructor
  · rintro ⟨-, ws, hws, hfew⟩
    obtain rfl := Except.ok.inj ((expand_each h).symm.trans hws)
    rwa [List.length_map] at hfew
  · intro hfew
    refine ⟨⟨_, _, _, rfl⟩, _, expand_each h, ?_⟩
    rwa [List.length_map]

/-- A taken branch does not always stand for its body: a loop over one item is a sequence, and
under a condition that holds it is the item. -/
theorem exists_taken_branch_not_transparent : ¬∀ document test body,
    condition document [] test = .ok true →
      expandSection document (guarded test body) = expandSection document body := by
  intro h
  have hthin : IsThinLoop [] [] (each ["a"]) := (isThinLoop_each (by decide)).2 (by decide)
  exact (expandSection_taken_eq_iff rfl rfl).1 (h [] (.bool true) (each ["a"]) rfl) hthin

/-- A taken branch stands for its body in the place of a mapping's value, in every scope, and as
a whole section, just when the body is no loop that yields fewer than two values. In the place
of such a loop the branch is its one value, or nothing. -/
theorem taken_branch_is_transparent (document : Mapping)
    (hread : Operator.read? v = .ok (some (.branch test body otherwise))) :
    (∀ scope, condition document scope test = .ok true →
      (expandSlot document scope v = expandSlot document scope body ↔
        ¬IsThinLoop document scope body) ∧
      (¬IsThinLoop document scope body → ∀ before key after,
        expandEntries document scope (before ++ (key, v) :: after) =
          expandEntries document scope (before ++ (key, body) :: after)) ∧
      ∀ binding items inner, Operator.read? body = .ok (some (.loop binding items inner)) →
        ∀ ws, expand document scope body = .ok ws →
          expandSlot document scope body = .ok (some (.seq ws)) ∧
          expandSlot document scope v = .ok (single ws)) ∧
    (condition document [] test = .ok true →
      (expandSection document v = expandSection document body ↔
        ¬IsThinLoop document [] body)) := by
  refine ⟨fun scope htest => ?_, fun htest => expandSection_taken_eq_iff hread htest⟩
  have hslot := expandSlot_taken_eq_iff hread htest
  refine ⟨hslot, fun hthin before key after => ?_, fun binding items inner hbody ws hws => ?_⟩
  · rw [expandEntries_append, expandEntries_append, expandEntries, expandEntries,
      hslot.2 hthin]
  · rw [expandSlot_loop hbody, expandSlot_of_taken hread htest, hws]
    exact ⟨rfl, rfl⟩

/-- A loop over two items is the same sequence under a condition that holds, and a loop over one
becomes its item. -/
theorem taken_branch_is_transparent_each :
    expandSection [] (guarded (.bool true) (each ["a", "b"])) =
      expandSection [] (each ["a", "b"]) ∧
    expandSlot [] [] (each ["a"]) = .ok (some (.seq [.str "a"])) ∧
    expandSlot [] [] (guarded (.bool true) (each ["a"])) = .ok (some (.str "a")) := by
  obtain ⟨-, hsection⟩ := taken_branch_is_transparent (v := guarded (.bool true) (each
    ["a", "b"])) [] rfl
  obtain ⟨hslots, -⟩ := taken_branch_is_transparent (v := guarded (.bool true) (each
    ["a"])) [] rfl
  obtain ⟨-, -, hloop⟩ := hslots [] rfl
  have htwo : ∀ t ∈ ["a", "b"], ¬HasBraces t.toList := by decide
  have hone : ∀ t ∈ ["a"], ¬HasBraces t.toList := by decide
  refine ⟨(hsection rfl).2 ?_, hloop _ _ _ rfl _ (expand_each hone)⟩
  rw [isThinLoop_each htwo]
  decide

end WorkloadSpec
