import WorkloadSpec.Decode.Record
import WorkloadSpec.Proofs.Outcome

/-!
Writing and reading back. A codec restores a value when what it writes reads as that
value again. Lists and sorted mappings restore what they are made of, and a record
restores a state when reading its written fields one after another leads from the
blank record to that state. A field that is left out must be one the blank record has
right.
-/
namespace WorkloadSpec

namespace Codec

variable {α : Type} {c : Codec α}

def Restores (c : Codec α) (a : α) : Prop := c.decode (c.encode a) = .ok a

theorem value_restores (v : Value) : value.Restores v := rfl

theorem bool_restores (b : Bool) : bool.Restores b := rfl

theorem string_restores (s : String) : string.Restores s := rfl

theorem double_restores (x : Double) : double.Restores x := rfl

theorem mapping_restores (m : Mapping) : mapping.Restores m := rfl

theorem bool_ne_null (b : Bool) : bool.encode b ≠ .null := by simp [bool]

theorem string_ne_null (s : String) : string.encode s ≠ .null := by simp [string]

theorem double_ne_null (x : Double) : double.encode x ≠ .null := by simp [double]

theorem mapping_ne_null (m : Mapping) : mapping.encode m ≠ .null := by simp [mapping]

theorem natural_ne_null {bound : Nat} {title : String} {ofNat : Nat → α} {toNat : α → Nat}
    (a : α) : (natural bound title ofNat toNat).encode a ≠ .null := by simp [natural]

/-- Integers are restored within their bound. -/
theorem natural_restores {bound : Nat} {title : String} {ofNat : Nat → α} {toNat : α → Nat}
    (hofNat : ∀ a, ofNat (toNat a) = a) (hbound : ∀ a, toNat a < bound) (a : α) :
    (natural bound title ofNat toNat).Restores a := by
  have hlt : (toNat a : Int) < bound := Int.ofNat_lt.2 (hbound a)
  change (if 0 ≤ (toNat a : Int) ∧ (toNat a : Int) < bound then
    Except.ok (ofNat (toNat a : Int).toNat) else _) = _
  rw [if_pos ⟨Int.natCast_nonneg _, hlt⟩, Int.toNat_natCast, hofNat]

theorem natural32_restores (n : UInt32) : natural32.Restores n :=
  natural_restores (fun _ => UInt32.ofNat_toNat) (fun a => a.toNat_lt) n

theorem natural64_restores (n : UInt64) : natural64.Restores n :=
  natural_restores (fun _ => UInt64.ofNat_toNat) (fun a => a.toNat_lt) n

theorem count_restores (n : UInt64) : count.Restores n :=
  natural_restores (fun _ => UInt64.ofNat_toNat) (fun a => a.toNat_lt) n

theorem choice_restores {spellings : List (String × α)} {name : α → String} {a : α}
    (h : spellings.lookup (name a) = some a) : (choice spellings name).Restores a := by
  refine Outcome.bind_eq_ok.2 ⟨(name a, none), rfl, ?_⟩
  simp only [h]

theorem option_decode {v : Value} (h : v ≠ .null) : c.option.decode v = some <$> c.decode v := by
  cases v with
  | null => exact absurd rfl h
  | _ => rfl

theorem list_restores {xs : List α} (h : ∀ a ∈ xs, c.Restores a) : c.list.Restores xs := by
  change (xs.map c.encode).mapM c.decode = .ok xs
  rw [Outcome.mapM_eq_ok, List.forall₂_map_left_iff, List.forall₂_same]
  exact h

/-- Keys in ascending order; equal keys are not ruled out. -/
def Ascending (entries : List (String × α)) : Prop := entries.Pairwise fun a b => a.1 ≤ b.1

theorem ascending_sortByKey (entries : List (String × α)) : Ascending (sortByKey entries) := by
  have htrans : ∀ a b c : String × α, decide (a.1 ≤ b.1) = true → decide (b.1 ≤ c.1) = true →
      decide (a.1 ≤ c.1) = true := fun a b c hab hbc =>
    decide_eq_true (String.le_trans (of_decide_eq_true hab) (of_decide_eq_true hbc))
  have htotal : ∀ a b : String × α, (decide (a.1 ≤ b.1) || decide (b.1 ≤ a.1)) = true := by
    intro a b
    simpa using String.le_total a.1 b.1
  exact (List.pairwise_mergeSort htrans htotal entries).imp of_decide_eq_true

theorem sortByKey_eq_self {entries : List (String × α)} (h : Ascending entries) :
    sortByKey entries = entries :=
  List.mergeSort_of_pairwise (h.imp decide_eq_true)

theorem sortedMap_restores {entries : List (String × α)} (hsorted : Ascending entries)
    (h : ∀ e ∈ entries, c.Restores e.2) : c.sortedMap.Restores entries := by
  have hread : (entries.map fun e => (e.1, c.encode e.2)).mapM
      (fun e : String × Value => do pure (e.1, ← c.decode e.2)) = .ok entries := by
    rw [Outcome.mapM_eq_ok, List.forall₂_map_left_iff, List.forall₂_same]
    intro e he
    exact Outcome.bind_eq_ok.2 ⟨e.2, h e he, rfl⟩
  change sortByKey <$> (entries.map fun e => (e.1, c.encode e.2)).mapM
      (fun e : String × Value => do pure (e.1, ← c.decode e.2)) = .ok entries
  rw [hread]
  exact congrArg Except.ok (sortByKey_eq_self hsorted)

/-- A sorted mapping that is read is in order, and each of its values was read. -/
theorem sortedMap_decode {v : Value} {entries : List (String × α)}
    (h : c.sortedMap.decode v = .ok entries) :
    Ascending entries ∧ ∀ e ∈ entries, ∃ w, c.decode w = .ok e.2 := by
  cases v with
  | map raw =>
    obtain ⟨read, hread, rfl⟩ := Outcome.map_eq_ok.1 h
    refine ⟨ascending_sortByKey read, fun e he => ?_⟩
    have hmem : e ∈ read := List.mem_mergeSort.1 he
    obtain ⟨x, -, hx⟩ := Outcome.exists_of_mem_forall₂ (Outcome.mapM_eq_ok.1 hread) hmem
    obtain ⟨a, ha, he⟩ := Outcome.bind_eq_ok.1 hx
    exact ⟨x.2, Outcome.pure_eq_ok.1 he ▸ ha⟩
  | _ => cases h

end Codec

namespace Field

variable {σ α : Type} {name : String} {c : Codec α} {s t : σ}

/-- What a field writes of `s` takes `t` to `u` when it is read; left out, it may be
missing and leaves `t` as it is. -/
def Carries (f : Field σ) (s t u : σ) : Prop :=
  match f.write s with
  | some v => f.read v t = .ok u
  | none => f.mandatory = false ∧ t = u

theorem required_carries {get : σ → α} {set : σ → α → σ} (h : c.Restores (get s)) :
    (required name c get set).Carries s t (set t (get s)) :=
  Outcome.map_eq_ok.2 ⟨get s, h, rfl⟩

theorem defaulted_carries {get : σ → α} {set : σ → α → σ} (h : c.Restores (get s)) :
    (defaulted name c get set).Carries s t (set t (get s)) :=
  Outcome.map_eq_ok.2 ⟨get s, h, rfl⟩

/-- A field that holds nothing is carried when it holds nothing in `t` either. -/
theorem optional_carries {get : σ → Option α} {set : σ → Option α → σ}
    (hnull : ∀ a, c.encode a ≠ .null) (h : ∀ a, get s = some a → c.Restores a)
    (hset : set t none = t) : (optional name c get set).Carries s t (set t (get s)) := by
  unfold Carries
  cases hs : get s with
  | none =>
    simp only [optional, hs, Option.map_none]
    exact ⟨trivial, hset.symm⟩
  | some a =>
    simp only [optional, hs, Option.map_some]
    rw [Codec.option_decode (hnull a), h a hs]
    rfl

theorem many_carries {get : σ → List α} {set : σ → List α → σ}
    (h : ∀ a ∈ get s, c.Restores a) (hset : set t [] = t) :
    (many name c get set).Carries s t (set t (get s)) := by
  unfold Carries
  cases hs : get s with
  | nil =>
    simp only [many, hs, List.isEmpty_nil, if_true]
    exact ⟨trivial, hset.symm⟩
  | cons a as =>
    have hlist : c.list.Restores (a :: as) := Codec.list_restores (hs ▸ h)
    simp only [many, hs, List.isEmpty_cons, Bool.false_eq_true, if_false]
    exact Outcome.map_eq_ok.2 ⟨a :: as, hlist, rfl⟩

end Field

namespace Record

variable {σ : Type} {r : Record σ} {s t u : σ}

/-- The fields one after another take `t` to `u`. -/
def Carries (s : σ) : List (Field σ) → σ → σ → Prop
  | [], t, u => t = u
  | f :: fields, t, u => ∃ m, f.Carries s t m ∧ Carries s fields m u

theorem Carries.nil (h : t = u) : Carries s [] t u := h

theorem Carries.cons {m : σ} {f : Field σ} {fields : List (Field σ)} (hf : f.Carries s t m)
    (h : Carries s fields m u) : Carries s (f :: fields) t u := ⟨m, hf, h⟩

def written (s : σ) (fields : List (Field σ)) : Mapping :=
  fields.filterMap fun f => (f.write s).map (f.name, ·)

theorem written_cons (s : σ) (f : Field σ) (fields : List (Field σ)) :
    written s (f :: fields) = ((f.write s).map (f.name, ·)).toList ++ written s fields := by
  unfold written
  cases h : f.write s with
  | none =>
    rw [List.filterMap_cons_none (by rw [h]; rfl)]
    rfl
  | some v =>
    rw [List.filterMap_cons_some (by rw [h]; rfl)]
    rfl

theorem field?_of_mem (hnames : r.names.Nodup) {f : Field σ} (hf : f ∈ r.fields) :
    r.field? f.name = some f := by
  unfold names at hnames
  unfold field?
  generalize r.fields = fields at hnames hf
  induction fields with
  | nil => exact absurd hf List.not_mem_nil
  | cons g fields ih =>
    obtain ⟨hg, hrest⟩ := List.nodup_cons.1 hnames
    rw [List.find?_cons]
    rcases List.mem_cons.1 hf with rfl | hf
    · rw [beq_self_eq_true]
    · have hne : (g.name == f.name) = false :=
        beq_eq_false_iff_ne.2 fun he => hg (he ▸ List.mem_map_of_mem hf)
      rw [hne]
      exact ih hrest hf

theorem readEntries_written (hnames : r.names.Nodup) {fields : List (Field σ)}
    (hsub : ∀ f ∈ fields, f ∈ r.fields) (h : Carries s fields t u) :
    r.readEntries (written s fields) t = .ok u := by
  induction fields generalizing t with
  | nil => exact congrArg Except.ok h
  | cons f fields ih =>
    obtain ⟨m, hf, hrest⟩ := h
    have hrest := ih (fun g hg => hsub g (List.mem_cons_of_mem f hg)) hrest
    unfold Field.Carries at hf
    unfold written at hrest ⊢
    cases hw : f.write s with
    | none =>
      rw [hw] at hf
      rw [List.filterMap_cons_none (by rw [hw]; rfl), hf.2]
      exact hrest
    | some v =>
      rw [hw] at hf
      rw [List.filterMap_cons_some (by rw [hw]; rfl), readEntries,
        field?_of_mem hnames (hsub f List.mem_cons_self)]
      exact Outcome.bind_eq_ok.2 ⟨m, hf, hrest⟩

theorem Carries.written_of_mandatory {fields : List (Field σ)} (h : Carries s fields t u)
    {f : Field σ} (hf : f ∈ fields) (hmandatory : f.mandatory = true) :
    f.name ∈ Mapping.keys (written s fields) := by
  induction fields generalizing t with
  | nil => exact absurd hf List.not_mem_nil
  | cons g fields ih =>
    obtain ⟨m, hg, hrest⟩ := h
    unfold written
    rcases List.mem_cons.1 hf with rfl | hf
    · unfold Field.Carries at hg
      cases hw : f.write s with
      | none => rw [hw] at hg; exact absurd hmandatory (Bool.eq_false_iff.1 hg.1)
      | some v =>
        rw [List.filterMap_cons_some (by rw [hw]; rfl)]
        exact List.mem_cons_self
    · have hmem := ih hrest hf
      cases hw : g.write s with
      | none => rwa [List.filterMap_cons_none (by rw [hw]; rfl)]
      | some v =>
        rw [List.filterMap_cons_some (by rw [hw]; rfl)]
        exact List.mem_cons_of_mem _ hmem

theorem decode_map {entries : Mapping} (hread : r.readEntries entries r.blank = .ok s)
    (hmissing : r.missing? entries = none) : r.decode (.map entries) = .ok s := by
  simp only [decode, hread, hmissing]
  rfl

theorem encode_ne_null (r : Record σ) (s : σ) : r.codec.encode s ≠ .null := by
  intro h
  cases h

/-- A record restores a state that its fields carry over from the blank record. -/
theorem restores (hnames : r.names.Nodup) (h : Carries s r.fields r.blank s) :
    r.codec.Restores s := by
  have hmissing : r.missing? (written s r.fields) = none := by
    refine List.find?_eq_none.2 fun f hf hwanted => ?_
    obtain ⟨hmandatory, hhas⟩ := Bool.and_eq_true_iff.1 hwanted
    have hmem := Mapping.has_iff_mem_keys.2 (h.written_of_mandatory hf hmandatory)
    rw [hmem] at hhas
    exact absurd hhas Bool.false_ne_true
  exact decode_map (readEntries_written hnames (fun _ hf => hf) h) hmissing

theorem readEntries_preserves {P : σ → Prop} {Q : Value → Prop}
    (hread : ∀ f ∈ r.fields, ∀ v t u, Q v → P t → f.read v t = .ok u → P u) {entries : Mapping}
    (hparts : ∀ e ∈ entries, Q e.2) (ht : P t) (h : r.readEntries entries t = .ok u) : P u := by
  induction entries generalizing t with
  | nil => exact Except.ok.inj h ▸ ht
  | cons e entries ih =>
    obtain ⟨he, hparts⟩ := List.forall_mem_cons.1 hparts
    unfold readEntries at h
    split at h
    · cases h
    · next f hf =>
      obtain ⟨m, hm, hrest⟩ := Outcome.bind_eq_ok.1 h
      exact ih hparts (hread f (List.mem_of_find?_eq_some hf) e.2 t m he ht hm) hrest

theorem readItems_preserves {P : σ → Prop} {Q : Value → Prop} {total done : Nat}
    {fields : List (Field σ)}
    (hread : ∀ f ∈ fields, ∀ v t u, Q v → P t → f.read v t = .ok u → P u) {items : List Value}
    (hparts : ∀ v ∈ items, Q v) (ht : P t) (h : r.readItems total fields done items t = .ok u) :
    P u := by
  induction fields generalizing done items t with
  | nil =>
    cases items with
    | nil => exact Except.ok.inj h ▸ ht
    | cons v items => cases h
  | cons f fields ih =>
    have hrest := fun g hg => hread g (List.mem_cons_of_mem f hg)
    cases items with
    | nil =>
      unfold readItems at h
      split at h
      · cases h
      · exact ih hrest hparts ht h
    | cons v items =>
      obtain ⟨hv, hparts⟩ := List.forall_mem_cons.1 hparts
      obtain ⟨m, hm, hu⟩ := Outcome.bind_eq_ok.1 h
      exact ih hrest hparts (hread f List.mem_cons_self v t m hv ht hm) hu

/-- What the blank record has and every field keeps, given parts of some kind, holds of
whatever is read from such parts. -/
theorem decode_preserves_of_parts {P : σ → Prop} {Q : Value → Prop} (hblank : P r.blank)
    (hread : ∀ f ∈ r.fields, ∀ v t u, Q v → P t → f.read v t = .ok u → P u) {v : Value}
    (hentries : ∀ entries, v = .map entries → ∀ e ∈ entries, Q e.2)
    (hitems : ∀ items, v = .seq items → ∀ w ∈ items, Q w) (h : r.decode v = .ok s) : P s := by
  cases v with
  | map entries =>
    obtain ⟨t, ht, hrest⟩ := Outcome.bind_eq_ok.1 h
    have hs : t = s := by
      split at hrest
      · cases hrest
      · exact Outcome.pure_eq_ok.1 hrest
    exact hs ▸ readEntries_preserves hread (hentries entries rfl) hblank ht
  | seq items => exact readItems_preserves hread (hitems items rfl) hblank h
  | _ => cases h

/-- What the blank record has and every field keeps holds of whatever is read. -/
theorem decode_preserves {P : σ → Prop} (hblank : P r.blank)
    (hread : ∀ f ∈ r.fields, ∀ v t u, P t → f.read v t = .ok u → P u) {v : Value}
    (h : r.decode v = .ok s) : P s :=
  decode_preserves_of_parts (Q := fun _ => True) hblank
    (fun f hf v t u _ => hread f hf v t u) (fun _ _ _ _ => trivial) (fun _ _ _ _ => trivial) h

end Record

end WorkloadSpec
