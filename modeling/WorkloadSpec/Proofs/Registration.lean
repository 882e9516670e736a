import WorkloadSpec.Proofs.SelectionGrammar

/-!
Registration of members. Members are offered to a family one after another; one whose identifier
is new is added at the end, and any other is refused, which leaves the family as it is. So a
family only ever grows, the member found under an identifier is the first that was offered under
it, and whatever has been registered is resolved and reduced alike from then on.
-/
namespace WorkloadSpec.Variant

open Mapping

variable {α : Type}

/-- A selection names an identifier alone or as a key of a mapping, whatever the parameters. -/
inductive Names : Value → String → Prop
  | alone (identifier : String) : Names (.str identifier) identifier
  | key {entries : Mapping} {identifier : String} (h : identifier ∈ keys entries) :
    Names (.map entries) identifier

namespace Family

/-- The family after a call of `register`; where the member is refused it is the same family. -/
def offer (family : Family α) (m : Member α) : Family α :=
  match family.register m with
  | .ok added => added
  | .error _ => family

def offerAll (family : Family α) (offers : List (Member α)) : Family α := offers.foldl offer family

/-- Those of the offered members that `register` takes. -/
def taken (family : Family α) : List (Member α) → List (Member α)
  | [] => []
  | m :: offers =>
    match family.register m with
    | .ok added => m :: added.taken offers
    | .error _ => family.taken offers

/-- The later family has the same members first, and may have more after them. -/
structure Extends (family later : Family α) : Prop where
  name : later.name = family.name
  members : family.members <+: later.members

variable {family later latest added : Family α} {m : Member α} {offers : List (Member α)}
  {identifier : String} {e : VariantError} {raw : Value} {i : Instance}

theorem register_eq_ok : family.register m = .ok added ↔ m.identifier ∉ family.identifiers ∧
    added = { family with members := family.members ++ [m] } := by
  rw [← isSome_member?, register]
  split
  · next h => simp [h]
  · next h => simp [h, eq_comm]

theorem register_eq_error : family.register m = .error e ↔
    m.identifier ∈ family.identifiers ∧ e = .duplicate family.name m.identifier := by
  rw [← isSome_member?, register]
  split
  · next h => simp [h, eq_comm]
  · next h => simp [h]

theorem offer_of_new (h : m.identifier ∉ family.identifiers) :
    family.offer m = { family with members := family.members ++ [m] } := by
  rw [offer, register_eq_ok.2 ⟨h, rfl⟩]

theorem offer_of_known (h : m.identifier ∈ family.identifiers) : family.offer m = family := by
  rw [offer, register_eq_error.2 ⟨h, rfl⟩]

theorem taken_cons_of_new (h : m.identifier ∉ family.identifiers) :
    family.taken (m :: offers) = m :: (family.offer m).taken offers := by
  rw [taken, offer, register_eq_ok.2 ⟨h, rfl⟩]

theorem taken_cons_of_known (h : m.identifier ∈ family.identifiers) :
    family.taken (m :: offers) = family.taken offers := by
  rw [taken, register_eq_error.2 ⟨h, rfl⟩]

theorem offerAll_cons : family.offerAll (m :: offers) = (family.offer m).offerAll offers := rfl

theorem name_offerAll : (family.offerAll offers).name = family.name := by
  induction offers generalizing family with
  | nil => rfl
  | cons m offers ih =>
    rw [offerAll_cons, ih]
    by_cases hm : m.identifier ∈ family.identifiers
    · rw [offer_of_known hm]
    · rw [offer_of_new hm]

/-- What is taken stands behind what was there, in the order of the offers. -/
theorem members_offerAll :
    (family.offerAll offers).members = family.members ++ family.taken offers := by
  induction offers generalizing family with
  | nil => exact (List.append_nil _).symm
  | cons m offers ih =>
    rw [offerAll_cons, ih]
    by_cases hm : m.identifier ∈ family.identifiers
    · rw [taken_cons_of_known hm, offer_of_known hm]
    · rw [taken_cons_of_new hm, offer_of_new hm, List.append_assoc, List.singleton_append]

theorem taken_sublist : (family.taken offers).Sublist offers := by
  induction offers generalizing family with
  | nil => exact List.Sublist.slnil
  | cons m offers ih =>
    by_cases hm : m.identifier ∈ family.identifiers
    · rw [taken_cons_of_known hm]
      exact ih.cons m
    · rw [taken_cons_of_new hm]
      exact ih.cons_cons m

theorem nodup_identifiers_offer (h : family.identifiers.Nodup) (m : Member α) :
    (family.offer m).identifiers.Nodup := by
  by_cases hm : m.identifier ∈ family.identifiers
  · rwa [offer_of_known hm]
  · have hregister : family.register m = .ok (family.offer m) :=
      register_eq_ok.2 ⟨hm, offer_of_new hm⟩
    rw [identifiers_register hregister, ← List.concat_eq_append]
    exact h.concat hm

theorem nodup_identifiers_offerAll (h : family.identifiers.Nodup) :
    (family.offerAll offers).identifiers.Nodup := by
  induction offers generalizing family with
  | nil => exact h
  | cons m offers ih => exact ih (nodup_identifiers_offer h m)

/-- Under an identifier stands the first member that was offered under it. -/
theorem member?_offerAll : (family.offerAll offers).member? identifier =
    (family.member? identifier).or (offers.find? fun m => m.identifier == identifier) := by
  induction offers generalizing family with
  | nil => exact (Option.or_none).symm
  | cons m offers ih =>
    have hoffer : (family.offer m).member? identifier =
        (family.member? identifier).or ([m].find? fun m => m.identifier == identifier) := by
      by_cases hm : m.identifier ∈ family.identifiers
      · -- A member that is refused has the identifier of one that is there.
        rw [offer_of_known hm]
        by_cases hidentifier : m.identifier = identifier
        · obtain ⟨n, hn⟩ := Option.isSome_iff_exists.1 (isSome_member?.2 (hidentifier ▸ hm))
          rw [hn]
          rfl
        · simp [hidentifier]
      · rw [offer_of_new hm]
        exact List.find?_append
    rw [offerAll_cons, ih, hoffer, Option.or_assoc, ← List.find?_append]
    rfl

theorem extends_offerAll (family : Family α) (offers : List (Member α)) :
    family.Extends (family.offerAll offers) :=
  ⟨name_offerAll, members_offerAll ▸ List.prefix_append _ _⟩

theorem Extends.member?_eq (h : family.Extends later) (hm : family.member? identifier = some m) :
    later.member? identifier = some m := by
  obtain ⟨more, hmore⟩ := h.members
  rw [Family.member?, ← hmore, List.find?_append]
  rw [Family.member?] at hm
  rw [hm]
  rfl

theorem Extends.exists_member? (h : family.Extends later) (hid : identifier ∈ family.identifiers) :
    ∃ m, family.member? identifier = some m ∧ later.member? identifier = some m := by
  obtain ⟨m, hm⟩ := Option.isSome_iff_exists.1 (isSome_member?.2 hid)
  exact ⟨m, hm, h.member?_eq hm⟩

/-- Only the name of a family shows in how a selection is read. -/
theorem Extends.select_eq (h : family.Extends later) (raw : Value) :
    later.select raw = family.select raw := by
  obtain ⟨name, members⟩ := family
  obtain ⟨name', members'⟩ := later
  obtain rfl : name' = name := h.name
  rfl

theorem eq_of_isSelection {parameters : Mapping} {other : String}
    (hraw : IsSelection raw other parameters) (h : Names raw identifier) : other = identifier := by
  cases hraw with
  | bare =>
    cases h
    rfl
  | _ =>
    cases h with
    | key h => exact (List.mem_singleton.1 h).symm

/-- A selection that names what was registered is resolved alike: to the same instance, or with
the same error. -/
theorem Extends.resolve_eq (h : family.Extends later) (hraw : Names raw identifier)
    (hid : identifier ∈ family.identifiers) : later.resolve raw = family.resolve raw := by
  unfold Family.resolve
  rw [h.select_eq raw]
  cases hselect : family.select raw with
  | error e => rfl
  | ok selection =>
    obtain ⟨other, parameters⟩ := selection
    obtain rfl := eq_of_isSelection (select_eq_ok.1 hselect) hraw
    obtain ⟨m, hm, hlater⟩ := h.exists_member? hid
    have hmember : later.member other = family.member other :=
      (member_eq_ok.2 hlater).trans (member_eq_ok.2 hm).symm
    change (later.member other >>= fun m => m.resolve parameters) =
      family.member other >>= fun m => m.resolve parameters
    rw [hmember]

theorem Extends.reduce_eq (h : family.Extends later) (hid : i.identifier ∈ family.identifiers) :
    later.reduce i = family.reduce i := by
  obtain ⟨m, hm, hlater⟩ := h.exists_member? hid
  rw [Family.reduce, Family.reduce, hm, hlater]

/-- Whatever is offered, the identifiers of a family are those of the members it took, in the
order of the offers and each once. A member is refused just when its identifier is taken, and
then nothing changes. Under each identifier stands the first member that was offered under it,
and what names an identifier that is there is resolved and reduced alike after any number of
further offers. -/
theorem registration_is_conservative (name : String) (offers : List (Member α)) :
    let family := (empty name).offerAll offers
    family.identifiers.Nodup ∧
    family.identifiers = ((empty name).taken offers).map Member.identifier ∧
    ((empty name).taken offers).Sublist offers ∧
    (∀ m e, family.register m = .error e ↔
      m.identifier ∈ family.identifiers ∧ e = .duplicate name m.identifier) ∧
    (∀ m e, family.register m = .error e →
      (∀ raw, (family.offer m).resolve raw = family.resolve raw) ∧
        ∀ i, (family.offer m).reduce i = family.reduce i) ∧
    (∀ identifier,
      family.member? identifier = offers.find? fun m => m.identifier == identifier) ∧
    (∀ further raw identifier, Names raw identifier → identifier ∈ family.identifiers →
      (family.offerAll further).resolve raw = family.resolve raw) ∧
    ∀ further i, i.identifier ∈ family.identifiers →
      (family.offerAll further).reduce i = family.reduce i := by
  intro family
  have hname : family.name = name := name_offerAll
  refine ⟨nodup_identifiers_offerAll List.nodup_nil, ?_, taken_sublist, fun m e => ?_,
    fun m e h => ?_, fun identifier => member?_offerAll, fun further raw identifier => ?_,
    fun further i => ?_⟩
  · exact congrArg (List.map Member.identifier) members_offerAll
  · rw [register_eq_error, hname]
  · rw [offer_of_known (register_eq_error.1 h).1]
    exact ⟨fun _ => rfl, fun _ => rfl⟩
  · exact (family.extends_offerAll further).resolve_eq
  · exact (family.extends_offerAll further).reduce_eq

/-- A member, and another under the same identifier that declares its field otherwise. -/
def momentum : Member Double where
  identifier := "Momentum"
  fields := [.defaulted "rate" .float (.int 0)]
  build i := i.double "rate"

def otherMomentum : Member Double where
  identifier := "Momentum"
  fields := [.required "decay" .float]
  build i := i.double "decay"

/-- The second member under an identifier is refused, and what it declares never counts. -/
theorem registration_is_conservative_momentum :
    let family := (empty "schedule").offerAll [momentum, otherMomentum]
    family.identifiers = ["Momentum"] ∧
      family.register otherMomentum = .error (.duplicate "schedule" "Momentum") ∧
      Names (.str "Momentum") "Momentum" ∧
      (∃ i, family.resolve (.str "Momentum") = .ok i ∧ i.fields = [("rate", .int 0)] ∧
        (family.offerAll [otherMomentum, decay]).resolve (.str "Momentum") = .ok i ∧
        (family.offerAll [otherMomentum, decay]).reduce i = .str "Momentum") ∧
      (family.offerAll [otherMomentum, decay]).identifiers = ["Momentum", "Decay"] := by
  intro family
  have hids : family.identifiers = ["Momentum"] := by decide +kernel
  obtain ⟨-, -, -, hrefused, -, -, hresolve, hreduce⟩ :=
    registration_is_conservative "schedule" [momentum, otherMomentum]
  have hmem : "Momentum" ∈ family.identifiers := hids ▸ List.mem_singleton_self _
  have hmore := hresolve [otherMomentum, decay] _ _ (.alone "Momentum") hmem
  refine ⟨hids, (hrefused _ _).2 ⟨hmem, rfl⟩, .alone _, ⟨_, rfl, rfl, hmore.trans rfl, ?_⟩, ?_⟩
  · rw [hreduce _ _ hmem]
    rfl
  · decide +kernel

end Family

end WorkloadSpec.Variant
