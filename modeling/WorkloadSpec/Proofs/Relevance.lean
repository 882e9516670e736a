import WorkloadSpec.Proofs.LoopBindings

/-!
The part of a document that bears on an expansion. Only the data that the references in a value
find does: documents that agree on it give the same yields or the same error. Data that is
looked up is not read for references of its own, so a section or a declaration that only such
data speaks of, or nothing at all, may change freely.
-/
namespace WorkloadSpec

variable {D D' : Mapping} {name : String} {v w : Value} {r : Reference}

/-- The documents give the same values, or the same error, for a value and for a section. -/
structure ExpandAlike (D D' : Mapping) (v : Value) : Prop where
  yields : expand D [] v = expand D' [] v
  whole : expandSection D v = expandSection D' v

theorem ExpandAlike.of_sameData (h : SameData D [] D' [] (Refers · v)) : ExpandAlike D D' v := by
  have hyields : expand D [] v = expand D' [] v := expand_congr_data h
  constructor
  · exact hyields
  · rw [expandSection, expandSection, expandSlot_congr hyields]

/-- A name that is looked up without bindings depends on its section and the declarations. -/
theorem find?_congr
    (hdeclarations : D.lookup Section.declarations.key = D'.lookup Section.declarations.key)
    (hsection : D.lookup r.head = D'.lookup r.head) : r.find? D [] = r.find? D' [] := by
  unfold Reference.find? root?
  rw [hdeclarations, hsection]

/-- A section that is not mentioned may have any value, unless it holds the declarations. -/
theorem expandAlike_put (hname : name ≠ Section.declarations.key) (h : ¬Mentions name v) :
    ExpandAlike (Mapping.put D name w) D v := by
  apply ExpandAlike.of_sameData
  intro r hr
  have hne : r.head ≠ name := by
    intro heq
    exact h (heq ▸ hr.mentions)
  apply find?_congr
  · rw [Mapping.lookup_put, if_neg hname.symm]
  · rw [Mapping.lookup_put, if_neg hne]

/-- Nor does it have to be there. -/
theorem expandAlike_erase (hname : name ≠ Section.declarations.key) (h : ¬Mentions name v) :
    ExpandAlike (Mapping.erase D name) D v := by
  apply ExpandAlike.of_sameData
  intro r hr
  have hne : r.head ≠ name := by
    intro heq
    exact h (heq ▸ hr.mentions)
  apply find?_congr
  · rw [Mapping.lookup_erase, if_neg hname.symm]
  · rw [Mapping.lookup_erase, if_neg hne]

/-- The reference leads to the declaration of a name, by itself or through the section of
declarations, or to that section as a whole. -/
def Reference.Names (r : Reference) (name : String) : Prop :=
  r.head = name ∨
    r.head = Section.declarations.key ∧ (r.path = [] ∨ r.path.head? = some name)

/-- Through the section of declarations only the named one is found. -/
theorem enter?_declarations_declare (hD : DeclaresMapping D) {first : String}
    (h : first ≠ name) :
    ((declare D name w).lookup Section.declarations.key).bind (Reference.enter? · first) =
      (D.lookup Section.declarations.key).bind (Reference.enter? · first) := by
  rw [lookup_declarations declaresMapping_declare, lookup_declarations hD, declarations_declare,
    Mapping.lookup_put, if_neg h]

/-- The way from a section goes on from what its first name finds there. -/
theorem foldlM_enter?_cons (found : Option Value) (first : String) (rest : List String) :
    (found >>= (first :: rest).foldlM Reference.enter?) =
      (found.bind (Reference.enter? · first)).bind (rest.foldlM Reference.enter?) := by
  cases found with
  | none => rfl
  | some u => rfl

theorem find?_declare (hD : DeclaresMapping D) (h : ¬r.Names name) :
    r.find? (declare D name w) [] = r.find? D [] := by
  obtain ⟨hhead, hpath⟩ := not_or.1 h
  have hroot : ((declare D name w).lookup Section.declarations.key).bind
      (Reference.enter? · r.head) =
        (D.lookup Section.declarations.key).bind (Reference.enter? · r.head) :=
    enter?_declarations_declare hD hhead
  by_cases hsection : r.head = Section.declarations.key
  · obtain ⟨hnonempty, hfirst⟩ := not_or.1 (fun hp => hpath ⟨hsection, hp⟩)
    obtain ⟨first, rest, hcons⟩ := List.exists_cons_of_ne_nil hnonempty
    have hne : first ≠ name := by
      intro heq
      exact hfirst (by rw [hcons, heq]; rfl)
    -- A declaration that is called like the section stands in front of it, on both sides.
    cases hdeclared : (D.lookup Section.declarations.key).bind (Reference.enter? · r.head) with
    | some u =>
      unfold Reference.find? root?
      rw [hroot, hdeclared]
      rfl
    | none =>
      unfold Reference.find? root?
      rw [hroot, hdeclared, hsection, hcons]
      change ((declare D name w).lookup Section.declarations.key >>=
          (first :: rest).foldlM Reference.enter?) =
        (D.lookup Section.declarations.key >>= (first :: rest).foldlM Reference.enter?)
      rw [foldlM_enter?_cons, foldlM_enter?_cons, enter?_declarations_declare hD hne]
  · have hlookup : (declare D name w).lookup r.head = D.lookup r.head := by
      rw [lookup_declare, if_neg hsection]
    unfold Reference.find? root?
    rw [hroot, hlookup]

/-- A declaration that no reference leads to may have any value. -/
theorem expandAlike_declare (hD : DeclaresMapping D) (h : ∀ r, Refers r v → ¬r.Names name) :
    ExpandAlike (declare D name w) D v :=
  ExpandAlike.of_sameData fun r hr => find?_declare hD (h r hr)

/-- An expansion depends on what the mentioned names stand for, of that on the data that the
references find, and on nothing else: no other section and no other declaration changes it. -/
theorem expansion_depends_on_references (v : Value) :
    (∀ D D', SameRoots D [] D' [] (Mentions · v) →
      expand D [] v = expand D' [] v ∧ expandSection D v = expandSection D' v) ∧
    (∀ D D', SameData D [] D' [] (Refers · v) →
      expand D [] v = expand D' [] v ∧ expandSection D v = expandSection D' v) ∧
    (∀ D name w, name ≠ Section.declarations.key → ¬Mentions name v →
      ExpandAlike (Mapping.put D name w) D v ∧ ExpandAlike (Mapping.erase D name) D v) ∧
    ∀ D name w, DeclaresMapping D → (∀ r, Refers r v → ¬r.Names name) →
      ExpandAlike (declare D name w) D v := by
  have hdata : ∀ D D', SameData D [] D' [] (Refers · v) →
      expand D [] v = expand D' [] v ∧ expandSection D v = expandSection D' v := by
    intro D D' h
    have halike := ExpandAlike.of_sameData h
    exact ⟨halike.yields, halike.whole⟩
  refine ⟨fun D D' h => hdata D D' h.sameData, hdata, fun D name w hname h => ?_,
    fun D name w hD h => expandAlike_declare hD h⟩
  exact ⟨expandAlike_put hname h, expandAlike_erase hname h⟩

/-- One address for each host that is declared. -/
def addresses : Value :=
  .map [("for", .str "h"), ("in", .str "hosts"), ("do", .str "{{ h }}:{{ port }}")]

/-- The port is declared as a text that looks like a reference to another declaration. -/
def addressed : Mapping :=
  [("declarations", .map [("hosts", .seq [.str "a", .str "b"]), ("port", .str "{{ secret }}"),
    ("secret", .int 1)])]

theorem refers_addresses {r : Reference} (h : Refers r addresses) :
    r = ⟨"hosts", []⟩ ∨ r = ⟨"h", []⟩ ∨ r = ⟨"port", []⟩ := by
  have hread : Operator.read? addresses =
      .ok (some (.loop "h" (.str "hosts") (.str "{{ h }}:{{ port }}"))) := rfl
  cases h with
  | iterable hloop hr =>
    cases hread.symm.trans hloop
    exact Or.inl (Option.some.inj hr).symm
  | iterableItem hloop => cases hread.symm.trans hloop
  | loopBody hloop hr =>
    cases hread.symm.trans hloop
    cases hr with
    | marker hm hr =>
      have hmarkers : (Template.ofString "{{ h }}:{{ port }}").markers =
        [("h", [':']), ("port", [])] := rfl
      rw [hmarkers] at hm
      simp only [List.mem_cons, List.not_mem_nil, or_false] at hm
      rcases hm with rfl | rfl
      · exact Or.inr (Or.inl (Option.some.inj hr).symm)
      · exact Or.inr (Or.inr (Option.some.inj hr).symm)
    | iterable hloop | iterableItem hloop | loopBody hloop => cases hloop
    | condition hbranch | branchBody hbranch | branchOther hbranch => cases hbranch
  | condition hbranch | branchBody hbranch | branchOther hbranch => cases hread.symm.trans hbranch
  | entry hplain => cases hread.symm.trans hplain

/-- The secret may change: the text of the port that speaks of it is put in as it is. -/
theorem expansion_of_addresses_depends_on_references :
    DeclaresMapping addressed ∧ (∀ r, Refers r addresses → ¬r.Names "secret") ∧
      expand addressed [] addresses = .ok [.str "a:{{ secret }}", .str "b:{{ secret }}"] ∧
      expand (declare addressed "secret" (.int 2)) [] addresses =
        .ok [.str "a:{{ secret }}", .str "b:{{ secret }}"] ∧
      expandSection (declare addressed "secret" (.int 2)) addresses =
        expandSection addressed addresses := by
  have hD : DeclaresMapping addressed := by
    intro v hv
    exact ⟨_, (Option.some.inj hv).symm⟩
  have hnames : ∀ r, Refers r addresses → ¬r.Names "secret" := by
    intro r hr
    rcases refers_addresses hr with rfl | rfl | rfl
    · rintro (h | ⟨h, -⟩) <;> exact absurd h (by decide)
    · rintro (h | ⟨h, -⟩) <;> exact absurd h (by decide)
    · rintro (h | ⟨h, -⟩) <;> exact absurd h (by decide)
  have hyields : expand addressed [] addresses =
      .ok [.str "a:{{ secret }}", .str "b:{{ secret }}"] := by
    have hitems : iterable addressed [] (.str "hosts") = .ok [.str "a", .str "b"] := by
      rw [iterable]
      rfl
    rw [addresses, expand_loop rfl]
    refine Outcome.bind_eq_ok.2 ⟨_, hitems, ?_⟩
    rw [List.mapM_cons, List.mapM_cons, expand_plain rfl, expand_plain rfl, expandPlain,
      expandPlain]
    rfl
  obtain ⟨-, -, -, hdeclare⟩ := expansion_depends_on_references addresses
  obtain ⟨hsame, hwhole⟩ := hdeclare addressed "secret" (.int 2) hD hnames
  exact ⟨hD, hnames, hyields, hsame.trans hyields, hwhole⟩

end WorkloadSpec
