import WorkloadSpec.Value

/-!
Operations on mappings. `put` keeps the place of a key that is there and appends
one that is not; `erase` closes the gap. Looking a key up after either says all
there is to know about values, and the lemmas on `keys` say where keys stand.
-/
namespace WorkloadSpec.Mapping

def keys (m : Mapping) : List String := m.map Prod.fst

def has (m : Mapping) (key : String) : Bool := (m.lookup key).isSome

def put : Mapping → String → Value → Mapping
  | [], key, v => [(key, v)]
  | e :: m, key, v => if e.1 = key then (key, v) :: m else e :: put m key v

def erase (m : Mapping) (key : String) : Mapping := m.filter fun e => e.1 != key

/-- Of a repeated key the first place and the last value count. -/
def ofEntries (entries : List (String × Value)) : Mapping :=
  entries.foldl (fun m e => put m e.1 e.2) []

/-- Removes a key by moving the last entry into its place. -/
def swapErase (m : Mapping) (key : String) : Mapping :=
  match m.getLast? with
  | some last =>
    if last.1 = key then m.dropLast
    else if has m key then m.dropLast.map fun e => if e.1 = key then last else e
    else m
  | none => m

theorem lookup_cons (k : String) (w : Value) (m : Mapping) (other : String) :
    List.lookup other ((k, w) :: m) = if other = k then some w else m.lookup other := by
  rw [List.lookup_cons]
  by_cases h : other = k
  · rw [if_pos h, beq_iff_eq.2 h]
  · rw [if_neg h, beq_eq_false_iff_ne.2 h]

theorem lookup_put (m : Mapping) (key other : String) (v : Value) :
    (put m key v).lookup other = if other = key then some v else m.lookup other := by
  induction m with
  | nil => simp [put, lookup_cons]
  | cons e m ih =>
    obtain ⟨k, w⟩ := e
    by_cases hk : k = key
    · subst hk
      by_cases h : other = k <;> simp [put, lookup_cons, h]
    · by_cases h : other = k
      · subst h
        simp [put, hk]
      · simp [put, hk, lookup_cons, h, ih]

theorem lookup_erase (m : Mapping) (key other : String) :
    (erase m key).lookup other = if other = key then none else m.lookup other := by
  induction m with
  | nil => simp [erase]
  | cons e m ih =>
    obtain ⟨k, w⟩ := e
    have step : erase ((k, w) :: m) key =
        if k = key then erase m key else (k, w) :: erase m key := by
      by_cases hk : k = key <;> simp [erase, hk]
    by_cases hk : k = key
    · rw [step, if_pos hk, ih, lookup_cons, hk]
      split <;> rfl
    · rw [step, if_neg hk, lookup_cons, lookup_cons, ih]
      by_cases h : other = k
      · rw [if_pos h, if_pos h, if_neg (h ▸ hk)]
      · rw [if_neg h, if_neg h]

theorem keys_put_of_has {m : Mapping} {key : String} {v : Value} (h : has m key = true) :
    keys (put m key v) = keys m := by
  induction m with
  | nil => simp [has] at h
  | cons e m ih =>
    obtain ⟨k, w⟩ := e
    by_cases hk : k = key
    · simp [put, keys, hk]
    · have h' : has m key = true := by rwa [has, lookup_cons, if_neg (Ne.symm hk)] at h
      simpa [put, keys, hk] using ih h'

theorem keys_put_of_not_has {m : Mapping} {key : String} {v : Value} (h : has m key = false) :
    keys (put m key v) = keys m ++ [key] := by
  induction m with
  | nil => rfl
  | cons e m ih =>
    obtain ⟨k, w⟩ := e
    have hk : k ≠ key := by rintro rfl; simp [has] at h
    have h' : has m key = false := by rwa [has, lookup_cons, if_neg (Ne.symm hk)] at h
    simpa [put, keys, hk] using ih h'

theorem has_iff_mem_keys {m : Mapping} {key : String} : has m key = true ↔ key ∈ keys m := by
  induction m with
  | nil => simp [has, keys]
  | cons e m ih =>
    obtain ⟨k, w⟩ := e
    rw [has, lookup_cons, keys, List.map_cons, List.mem_cons]
    by_cases h : key = k
    · simp [h]
    · rw [if_neg h]
      exact ih.trans (or_iff_right h).symm

theorem mem_keys_of_lookup {m : Mapping} {key : String} {v : Value} (h : m.lookup key = some v) :
    key ∈ keys m := by
  rw [← has_iff_mem_keys, has, h]
  rfl

theorem exists_lookup {m : Mapping} {key : String} (h : key ∈ keys m) :
    ∃ v, m.lookup key = some v :=
  Option.isSome_iff_exists.1 (has_iff_mem_keys.2 h)

theorem not_mem_keys_of_lookup {m : Mapping} {key : String} (h : m.lookup key = none) :
    key ∉ keys m := by
  rw [← has_iff_mem_keys, has, h]
  exact Bool.false_ne_true

/-- Where no key is repeated, every entry is found. -/
theorem lookup_of_mem {m : Mapping} {key : String} {v : Value} (hm : (keys m).Nodup)
    (h : (key, v) ∈ m) : m.lookup key = some v := by
  induction m with
  | nil => simp at h
  | cons e m ih =>
    obtain ⟨k, w⟩ := e
    have hk : k ∉ keys m := (List.nodup_cons.1 hm).1
    rw [lookup_cons]
    rcases List.mem_cons.1 h with h | h
    · obtain ⟨rfl, rfl⟩ := Prod.mk.inj h
      exact if_pos rfl
    · have hne : key ≠ k := fun he => hk (he ▸ List.mem_map_of_mem h)
      rw [if_neg hne]
      exact ih (List.nodup_cons.1 hm).2 h

theorem keys_append (m n : Mapping) : keys (m ++ n) = keys m ++ keys n := List.map_append

theorem lookup_append_of_not_mem {m n : Mapping} {key : String} (h : key ∉ keys m) :
    (m ++ n).lookup key = n.lookup key := by
  induction m with
  | nil => rfl
  | cons e m ih =>
    rw [keys, List.map_cons, List.mem_cons, not_or] at h
    rw [List.cons_append, lookup_cons, if_neg h.1, ih h.2]

theorem put_of_not_mem {m : Mapping} {key : String} {v : Value} (h : key ∉ keys m) :
    put m key v = m ++ [(key, v)] := by
  induction m with
  | nil => rfl
  | cons e m ih =>
    have hne : e.1 ≠ key := fun he => h (he ▸ List.mem_cons_self)
    rw [put, if_neg hne, ih (fun hm => h (List.mem_cons_of_mem _ hm)), List.cons_append]

theorem mem_put {m : Mapping} {key : String} {v : Value} {e : String × Value}
    (h : e ∈ put m key v) : e = (key, v) ∨ e ∈ m := by
  induction m with
  | nil => exact Or.inl (List.mem_singleton.1 h)
  | cons d m ih =>
    rw [put] at h
    split at h
    · exact (List.mem_cons.1 h).imp_right (List.mem_cons_of_mem _)
    · rcases List.mem_cons.1 h with rfl | h
      · exact Or.inr List.mem_cons_self
      · exact (ih h).imp_right (List.mem_cons_of_mem _)

theorem nodup_keys_put {m : Mapping} {key : String} {v : Value} (h : (keys m).Nodup) :
    (keys (put m key v)).Nodup := by
  cases hk : has m key with
  | true => rwa [keys_put_of_has hk]
  | false =>
    have hnot : key ∉ keys m := fun hm => by simp [has_iff_mem_keys.2 hm] at hk
    rw [keys_put_of_not_has hk]
    exact List.nodup_append.2 ⟨h, by simp, fun a ha b hb hab =>
      hnot (List.mem_singleton.1 hb ▸ hab ▸ ha)⟩

theorem nodup_keys_erase {m : Mapping} {key : String} (h : (keys m).Nodup) :
    (keys (erase m key)).Nodup :=
  h.sublist (List.filter_sublist.map Prod.fst)

/-- Entries with new keys are appended as they are. -/
theorem foldl_put {m : Mapping} {entries : List (String × Value)}
    (h : (keys (m ++ entries)).Nodup) :
    entries.foldl (fun m e => put m e.1 e.2) m = m ++ entries := by
  induction entries generalizing m with
  | nil => simp
  | cons e entries ih =>
    have hnot : e.1 ∉ keys m := by
      rw [keys_append] at h
      exact fun hm => (List.nodup_append.1 h).2.2 _ hm _ List.mem_cons_self rfl
    rw [List.foldl_cons, put_of_not_mem hnot, ih (by simpa using h), List.append_assoc,
      List.singleton_append]

theorem ofEntries_eq_self {entries : List (String × Value)} (h : (keys entries).Nodup) :
    ofEntries entries = entries := foldl_put h

end WorkloadSpec.Mapping
