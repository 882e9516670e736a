import WorkloadSpec.Proofs.Expansion

/-!
What a value refers to. A reference occurs in a value in a marker of a text, as what a loop
goes over, or as a condition, and the name it begins with is mentioned there. The document
and the scope bear on an expansion only through the data that these references find, so two
documents, each with a scope, that agree on it give the same values or the same error; and
they agree on it when the mentioned names stand for the same.
-/
namespace WorkloadSpec

/-- The name that a reference begins with. -/
def Reference.headOf? (text : String) : Option String :=
  (Reference.ofString? text).map Reference.head

inductive Mentions (name : String) : Value → Prop
  | marker {s : String} {m : String × List Char} (hm : m ∈ (Template.ofString s).markers)
      (h : Reference.headOf? m.1 = some name) : Mentions name (.str s)
  | item {items : List Value} {v : Value} (hv : v ∈ items) (h : Mentions name v) :
      Mentions name (.seq items)
  | entry {entries : Mapping} {e : String × Value}
      (hread : Operator.read? (.map entries) = .ok none) (he : e ∈ entries)
      (h : Mentions name e.2) : Mentions name (.map entries)
  /-- What a loop goes over is a reference, or a sequence that is written out. -/
  | iterable {v body : Value} {binding s : String}
      (hread : Operator.read? v = .ok (some (.loop binding (.str s) body)))
      (h : Reference.headOf? (Reference.bare s) = some name) : Mentions name v
  | iterableItem {v body w : Value} {binding : String} {items : List Value}
      (hread : Operator.read? v = .ok (some (.loop binding (.seq items) body)))
      (hw : w ∈ items) (h : Mentions name w) : Mentions name v
  | loopBody {v items body : Value} {binding : String}
      (hread : Operator.read? v = .ok (some (.loop binding items body)))
      (h : Mentions name body) : Mentions name v
  | condition {v body : Value} {s : String} {otherwise : Option Value}
      (hread : Operator.read? v = .ok (some (.branch (.str s) body otherwise)))
      (h : Reference.headOf? (Reference.bare s) = some name) : Mentions name v
  | branchBody {v test body : Value} {otherwise : Option Value}
      (hread : Operator.read? v = .ok (some (.branch test body otherwise)))
      (h : Mentions name body) : Mentions name v
  | branchOther {v test body other : Value}
      (hread : Operator.read? v = .ok (some (.branch test body (some other))))
      (h : Mentions name other) : Mentions name v

/-- What is mentioned by a value as something that a loop goes over. -/
def IterableMentions (name : String) : Value → Prop
  | .str s => Reference.headOf? (Reference.bare s) = some name
  | .seq items => ∃ v ∈ items, Mentions name v
  | _ => False

variable {D D' : Mapping} {scope scope' : Scope} {v : Value}

theorem Mentions.of_iterable {name binding : String} {items body : Value}
    (hread : Operator.read? v = .ok (some (.loop binding items body)))
    (h : IterableMentions name items) : Mentions name v := by
  cases items with
  | str s => exact .iterable hread h
  | seq items =>
    obtain ⟨w, hw, hname⟩ := h
    exact .iterableItem hread hw hname
  | _ => exact absurd h id

theorem mentions_str_iff {name s : String} : Mentions name (.str s) ↔
    ∃ m ∈ (Template.ofString s).markers, Reference.headOf? m.1 = some name := by
  constructor
  · intro h
    cases h with
    | marker hm hname => exact ⟨_, hm, hname⟩
    | iterable hread | iterableItem hread | loopBody hread => cases hread
    | condition hread | branchBody hread | branchOther hread => cases hread
  · rintro ⟨m, hm, hname⟩
    exact .marker hm hname

theorem mentions_loop_iff {name binding : String} {items body : Value}
    (hread : Operator.read? v = .ok (some (.loop binding items body))) :
    Mentions name v ↔ IterableMentions name items ∨ Mentions name body := by
  constructor
  · intro h
    cases h with
    | marker => cases hread
    | item => cases hread
    | entry hplain => cases hread.symm.trans hplain
    | iterable hloop hname =>
      cases hread.symm.trans hloop
      exact Or.inl hname
    | iterableItem hloop hw hname =>
      cases hread.symm.trans hloop
      exact Or.inl ⟨_, hw, hname⟩
    | loopBody hloop hname =>
      cases hread.symm.trans hloop
      exact Or.inr hname
    | condition hbranch => cases hread.symm.trans hbranch
    | branchBody hbranch => cases hread.symm.trans hbranch
    | branchOther hbranch => cases hread.symm.trans hbranch
  · rintro (h | h)
    · exact .of_iterable hread h
    · exact .loopBody hread h

/-- The reference occurs in the value. -/
inductive Refers (r : Reference) : Value → Prop
  | marker {s : String} {m : String × List Char} (hm : m ∈ (Template.ofString s).markers)
      (h : Reference.ofString? m.1 = some r) : Refers r (.str s)
  | item {items : List Value} {v : Value} (hv : v ∈ items) (h : Refers r v) :
      Refers r (.seq items)
  | entry {entries : Mapping} {e : String × Value}
      (hread : Operator.read? (.map entries) = .ok none) (he : e ∈ entries)
      (h : Refers r e.2) : Refers r (.map entries)
  | iterable {v body : Value} {binding s : String}
      (hread : Operator.read? v = .ok (some (.loop binding (.str s) body)))
      (h : Reference.ofString? (Reference.bare s) = some r) : Refers r v
  | iterableItem {v body w : Value} {binding : String} {items : List Value}
      (hread : Operator.read? v = .ok (some (.loop binding (.seq items) body)))
      (hw : w ∈ items) (h : Refers r w) : Refers r v
  | loopBody {v items body : Value} {binding : String}
      (hread : Operator.read? v = .ok (some (.loop binding items body)))
      (h : Refers r body) : Refers r v
  | condition {v body : Value} {s : String} {otherwise : Option Value}
      (hread : Operator.read? v = .ok (some (.branch (.str s) body otherwise)))
      (h : Reference.ofString? (Reference.bare s) = some r) : Refers r v
  | branchBody {v test body : Value} {otherwise : Option Value}
      (hread : Operator.read? v = .ok (some (.branch test body otherwise)))
      (h : Refers r body) : Refers r v
  | branchOther {v test body other : Value}
      (hread : Operator.read? v = .ok (some (.branch test body (some other))))
      (h : Refers r other) : Refers r v

/-- The reference occurs in the value as something that a loop goes over. -/
def IterableRefers (r : Reference) : Value → Prop
  | .str s => Reference.ofString? (Reference.bare s) = some r
  | .seq items => ∃ v ∈ items, Refers r v
  | _ => False

theorem Refers.of_iterable {r : Reference} {binding : String} {items body : Value}
    (hread : Operator.read? v = .ok (some (.loop binding items body)))
    (h : IterableRefers r items) : Refers r v := by
  cases items with
  | str s => exact .iterable hread h
  | seq items =>
    obtain ⟨w, hw, hr⟩ := h
    exact .iterableItem hread hw hr
  | _ => exact absurd h id

theorem headOf?_of_ofString? {text : String} {r : Reference}
    (h : Reference.ofString? text = some r) : Reference.headOf? text = some r.head := by
  unfold Reference.headOf?
  rw [h]
  rfl

/-- Who refers to something mentions the name that the reference begins with. -/
theorem Refers.mentions {r : Reference} (h : Refers r v) : Mentions r.head v := by
  induction h with
  | marker hm h => exact .marker hm (headOf?_of_ofString? h)
  | item hv _ ih => exact .item hv ih
  | entry hread he _ ih => exact .entry hread he ih
  | iterable hread h => exact .iterable hread (headOf?_of_ofString? h)
  | iterableItem hread hw _ ih => exact .iterableItem hread hw ih
  | loopBody hread _ ih => exact .loopBody hread ih
  | condition hread h => exact .condition hread (headOf?_of_ofString? h)
  | branchBody hread _ ih => exact .branchBody hread ih
  | branchOther hread _ ih => exact .branchOther hread ih

/-- The same names stand for the same data. -/
def SameRoots (D : Mapping) (scope : Scope) (D' : Mapping) (scope' : Scope)
    (mentioned : String → Prop) : Prop :=
  ∀ name, mentioned name → root? D scope name = root? D' scope' name

/-- The same references find the same data, or nothing. -/
def SameData (D : Mapping) (scope : Scope) (D' : Mapping) (scope' : Scope)
    (referred : Reference → Prop) : Prop :=
  ∀ r, referred r → r.find? D scope = r.find? D' scope'

theorem SameRoots.sameData (h : SameRoots D scope D' scope' (Mentions · v)) :
    SameData D scope D' scope' (Refers · v) := by
  intro r hr
  unfold Reference.find?
  rw [h r.head hr.mentions]

theorem SameData.mono {p q : Reference → Prop} (h : SameData D scope D' scope' p)
    (hpq : ∀ r, q r → p r) : SameData D scope D' scope' q :=
  fun r hr => h r (hpq r hr)

theorem find?_bind (r : Reference) (b : String × Value) :
    r.find? D (b :: scope) =
      if r.head = b.1 then r.path.foldlM Reference.enter? b.2 else r.find? D scope := by
  unfold Reference.find? root?
  rw [Mapping.lookup_cons]
  by_cases hb : r.head = b.1
  · rw [if_pos hb, if_pos hb]
    rfl
  · rw [if_neg hb, if_neg hb]

/-- A binding added on both sides stands for the same on both. -/
theorem SameData.bind {p : Reference → Prop} (h : SameData D scope D' scope' p)
    (b : String × Value) : SameData D (b :: scope) D' (b :: scope') p := by
  intro r hr
  rw [find?_bind, find?_bind, h r hr]

theorem resolveReference_congr {text : String}
    (h : SameData D scope D' scope' fun r => Reference.ofString? text = some r) :
    resolveReference D scope text = resolveReference D' scope' text := by
  unfold resolveReference
  cases hr : Reference.ofString? text with
  | none => rfl
  | some r =>
    have hfind : r.find? D scope = r.find? D' scope' := h r hr
    dsimp only
    rw [hfind]

theorem fill_congr {markers : List (String × List Char)}
    (h : SameData D scope D' scope' fun r => ∃ m ∈ markers, Reference.ofString? m.1 = some r) :
    Template.fill D scope markers = Template.fill D' scope' markers := by
  induction markers with
  | nil => rfl
  | cons m markers ih =>
    have hmarker : resolveReference D scope m.1 = resolveReference D' scope' m.1 :=
      resolveReference_congr (h.mono fun r hr => ⟨m, List.mem_cons_self, hr⟩)
    have hrest : Template.fill D scope markers = Template.fill D' scope' markers := by
      refine ih (h.mono fun r hr => ?_)
      obtain ⟨n, hn, hr⟩ := hr
      exact ⟨n, List.mem_cons_of_mem m hn, hr⟩
    unfold Template.fill
    rw [hmarker, hrest]

theorem render_congr {t : Template}
    (h : SameData D scope D' scope' fun r => ∃ m ∈ t.markers, Reference.ofString? m.1 = some r) :
    t.render D scope = t.render D' scope' := by
  unfold Template.render
  cases hwhole : t.whole? with
  | none =>
    dsimp only
    rw [fill_congr h]
  | some reference =>
    refine resolveReference_congr (h.mono fun r hr => ?_)
    unfold Template.whole? at hwhole
    split at hwhole
    · next marker last hmarkers =>
      split at hwhole
      · obtain rfl := Option.some.inj hwhole
        rw [hmarkers]
        exact ⟨_, List.mem_singleton_self _, hr⟩
      · cases hwhole
    · cases hwhole

theorem condition_congr {test : Value}
    (h : SameData D scope D' scope' fun r =>
      ∃ s, test = .str s ∧ Reference.ofString? (Reference.bare s) = some r) :
    condition D scope test = condition D' scope' test := by
  unfold condition
  cases test with
  | str s =>
    have hresolve : resolveReference D scope (Reference.bare s) =
        resolveReference D' scope' (Reference.bare s) :=
      resolveReference_congr (h.mono fun r hr => ⟨s, rfl, hr⟩)
    dsimp only
    rw [hresolve]
  | _ => rfl

/-- What a value yields and what a loop over it goes through is fixed by the data that the
references in it find. -/
structure DependsOnData (v : Value) : Prop where
  expand : ∀ D scope D' scope', SameData D scope D' scope' (Refers · v) →
    expand D scope v = expand D' scope' v
  iterable : ∀ D scope D' scope', SameData D scope D' scope' (IterableRefers · v) →
    iterable D scope v = iterable D' scope' v

theorem expandItems_congr {items : List Value}
    (h : ∀ v ∈ items, expand D scope v = expand D' scope' v) :
    expandItems D scope items = expandItems D' scope' items := by
  induction items with
  | nil => rw [expandItems, expandItems]
  | cons v items ih =>
    obtain ⟨hv, hitems⟩ := List.forall_mem_cons.1 h
    rw [expandItems, expandItems, hv, ih hitems]

theorem expandEntries_congr {entries : Mapping}
    (h : ∀ e ∈ entries, expand D scope e.2 = expand D' scope' e.2) :
    expandEntries D scope entries = expandEntries D' scope' entries := by
  induction entries with
  | nil => rw [expandEntries, expandEntries]
  | cons e entries ih =>
    obtain ⟨key, v⟩ := e
    obtain ⟨hv, hentries⟩ := List.forall_mem_cons.1 h
    rw [expandEntries, expandEntries, expandSlot_congr hv, ih hentries]

theorem iterable_congr
    (hall : ∀ items, v = .seq items → ∀ w ∈ items, DependsOnData w)
    (h : SameData D scope D' scope' (IterableRefers · v)) :
    iterable D scope v = iterable D' scope' v := by
  unfold iterable
  cases v with
  | str s =>
    dsimp only
    rw [resolveReference_congr h]
  | seq items =>
    refine expandItems_congr fun w hw => ?_
    exact (hall items rfl w hw).expand D scope D' scope'
      (h.mono fun r hr => ⟨w, hw, hr⟩)
  | _ => rfl

/-- An operator cannot be gone over, whatever it holds. -/
theorem DependsOnData.of_operator (hread : Operator.read? v ≠ .ok none)
    (h : ∀ D scope D' scope', SameData D scope D' scope' (Refers · v) →
      WorkloadSpec.expand D scope v = WorkloadSpec.expand D' scope' v) : DependsOnData v where
  expand := h
  iterable _ _ _ _ hdata := by
    refine iterable_congr (fun items hv => ?_) hdata
    subst hv
    exact absurd rfl hread

theorem DependsOnData.of_plain (hread : Operator.read? v = .ok none)
    (h : ∀ D scope D' scope', SameData D scope D' scope' (Refers · v) →
      expandPlain D scope v = expandPlain D' scope' v)
    (hall : ∀ items, v = .seq items → ∀ w ∈ items, DependsOnData w) : DependsOnData v where
  expand D scope D' scope' hdata := by
    rw [expand_plain hread, expand_plain hread, h D scope D' scope' hdata]
  iterable _ _ _ _ hdata := iterable_congr hall hdata

theorem DependsOnData.of_scalar (hread : Operator.read? v = .ok none) (hstr : ∀ s, v ≠ .str s)
    (hseq : ∀ vs, v ≠ .seq vs) (hmap : ∀ es, v ≠ .map es) : DependsOnData v := by
  refine .of_plain hread (fun D scope D' scope' _ => ?_) fun items h => absurd h (hseq items)
  rw [expandPlain_scalar hstr hseq hmap, expandPlain_scalar hstr hseq hmap]

theorem dependsOnData (v : Value) : DependsOnData v := by
  induction v using Operator.induction with
  | malformed v e hread =>
    refine .of_operator (by rw [hread]; simp) fun D scope D' scope' _ => ?_
    rw [expand_malformed hread, expand_malformed hread]
  | loop v binding items body hread hitems hbody =>
    refine .of_operator (by rw [hread]; simp) fun D scope D' scope' hdata => ?_
    have hfound : iterable D scope items = iterable D' scope' items :=
      hitems.iterable D scope D' scope' (hdata.mono fun _ h => .of_iterable hread h)
    have hround : ∀ item, expand D ((binding, item) :: scope) body =
        expand D' ((binding, item) :: scope') body := by
      intro item
      refine hbody.expand D _ D' _ (SameData.bind ?_ (binding, item))
      exact hdata.mono fun _ h => .loopBody hread h
    rw [expand_loop hread, expand_loop hread, hfound, funext hround]
  | branch v test body otherwise hread hbody hother =>
    refine .of_operator (by rw [hread]; simp) fun D scope D' scope' hdata => ?_
    have htest : condition D scope test = condition D' scope' test := by
      refine condition_congr (hdata.mono fun r h => ?_)
      obtain ⟨s, rfl, hr⟩ := h
      exact .condition hread hr
    have hthen : expand D scope body = expand D' scope' body :=
      hbody.expand D scope D' scope' (hdata.mono fun _ h => .branchBody hread h)
    rw [expand_branch hread, expand_branch hread, htest, hthen]
    cases otherwise with
    | none => rfl
    | some other =>
      have helse : expand D scope other = expand D' scope' other :=
        (hother other rfl).expand D scope D' scope' (hdata.mono fun _ h => .branchOther hread h)
      dsimp only
      rw [helse]
  | null => exact .of_scalar rfl (by simp) (by simp) (by simp)
  | bool b => exact .of_scalar rfl (by simp) (by simp) (by simp)
  | int n => exact .of_scalar rfl (by simp) (by simp) (by simp)
  | float x => exact .of_scalar rfl (by simp) (by simp) (by simp)
  | str s =>
    refine .of_plain rfl (fun D scope D' scope' hdata => ?_) (by simp)
    rw [expandPlain, expandPlain]
    refine render_congr (hdata.mono fun r h => ?_)
    obtain ⟨m, hm, hr⟩ := h
    exact .marker hm hr
  | seq items hitems =>
    refine .of_plain rfl (fun D scope D' scope' hdata => ?_) fun vs hvs => ?_
    · rw [expandPlain, expandPlain]
      refine congrArg _ (expandItems_congr fun w hw => ?_)
      exact (hitems w hw).expand D scope D' scope' (hdata.mono fun _ h => .item hw h)
    · exact Value.seq.inj hvs ▸ hitems
  | map entries hread hentries =>
    refine .of_plain hread (fun D scope D' scope' hdata => ?_) (by simp)
    rw [expandPlain, expandPlain]
    refine congrArg _ (expandEntries_congr fun e he => ?_)
    exact (hentries e he).expand D scope D' scope' (hdata.mono fun _ h => .entry hread he h)

/-- Where the references in a value find the same data, it yields the same. -/
theorem expand_congr_data (h : SameData D scope D' scope' (Refers · v)) :
    expand D scope v = expand D' scope' v :=
  (dependsOnData v).expand D scope D' scope' h

/-- Where the names that a value mentions stand for the same, it yields the same. -/
theorem expand_congr (h : SameRoots D scope D' scope' (Mentions · v)) :
    expand D scope v = expand D' scope' v := expand_congr_data h.sameData

end WorkloadSpec
