import WorkloadSpec.Proofs.BuildExtraction

/-!
The forms of a build. A build is written in one way, which is its light form, and read in two:
strictly, so that a key which is no build field is refused, or as a raw mapping, so that such a
key is passed over. Either reader gives the build back from its light form. What stands under
foreign keys does not bear on the second reader, and it agrees with the first on every mapping
that the first accepts.
-/
namespace WorkloadSpec

namespace Record

variable {σ : Type} {r : Record σ} {entries : Mapping} {s t : σ} {key : String}

theorem mem_names_of_field? {f : Field σ} (h : r.field? key = some f) : key ∈ r.names := by
  have hname : f.name = key := by
    simpa using List.find?_some h
  have hmem : f ∈ r.fields := List.mem_of_find?_eq_some h
  rw [← hname]
  exact List.mem_map_of_mem hmem

theorem mem_names_of_readEntries (h : r.readEntries entries s = .ok t)
    (hkey : key ∈ Mapping.keys entries) : key ∈ r.names := by
  induction entries generalizing s with
  | nil => exact absurd hkey List.not_mem_nil
  | cons e entries ih =>
    rw [readEntries] at h
    cases hf : r.field? e.1 with
    | none =>
      rw [hf] at h
      cases h
    | some f =>
      rw [hf] at h
      obtain ⟨u, -, hrest⟩ := Outcome.bind_eq_ok.1 h
      rcases List.mem_cons.1 hkey with rfl | hkey
      · exact mem_names_of_field? hf
      · exact ih hrest hkey

/-- A mapping that is read as a record has no keys but the names of its fields. -/
theorem mem_names_of_decode (h : r.decode (.map entries) = .ok s)
    (hkey : key ∈ Mapping.keys entries) : key ∈ r.names := by
  obtain ⟨t, hread, -⟩ := Outcome.bind_eq_ok.1 h
  exact mem_names_of_readEntries hread hkey

end Record

namespace Build

variable {raw : Mapping} {key : String} {v : Value} {b : Build}

/-- The keys that count in a raw mapping are the fields that are read strictly. -/
theorem names_record : record.names = fieldNames := rfl

theorem known_cons (e : String × Value) (raw : Mapping) :
    known (e :: raw) = if e.1 ∈ fieldNames then e :: known raw else known raw := by
  unfold known
  rw [List.filter_cons]
  simp only [List.contains_iff_mem]

theorem known_eq_self (h : ∀ key ∈ Mapping.keys raw, key ∈ fieldNames) : known raw = raw := by
  apply List.filter_eq_self.2
  intro e he
  exact List.contains_iff_mem.2 (h e.1 (List.mem_map_of_mem he))

/-- Nothing is known of an entry under a foreign key, be it new or in the place of another. -/
theorem known_put (hkey : key ∉ fieldNames) : known (Mapping.put raw key v) = known raw := by
  induction raw with
  | nil =>
    rw [Mapping.put, known_cons, if_neg hkey]
  | cons e raw ih =>
    rw [Mapping.put]
    by_cases he : e.1 = key
    · have hforeign : e.1 ∉ fieldNames := he ▸ hkey
      rw [if_pos he, known_cons, known_cons, if_neg hkey, if_neg hforeign]
    · rw [if_neg he, known_cons, known_cons, ih]

theorem known_erase (hkey : key ∉ fieldNames) : known (Mapping.erase raw key) = known raw := by
  unfold known Mapping.erase
  rw [List.filter_filter]
  apply List.filter_congr
  intro e _
  by_cases he : e.1 = key
  · have hforeign : fieldNames.contains e.1 = false := by
      rw [he, ← Bool.not_eq_true, List.contains_iff_mem]
      exact hkey
    rw [hforeign, Bool.false_and]
  · have hother : (e.1 != key) = true := bne_iff_ne.2 he
    rw [hother, Bool.and_true]

/-- What is read strictly is read the same as a raw mapping. -/
theorem ofRaw_of_decode (h : codec.decode (.map raw) = .ok b) : ofRaw raw = .ok b := by
  have hnames : ∀ key ∈ Mapping.keys raw, key ∈ fieldNames := by
    intro key hkey
    exact names_record ▸ Record.mem_names_of_decode h hkey
  unfold ofRaw
  rw [known_eq_self hnames]
  exact h

theorem decode_light (b : Build) : codec.decode b.light = .ok b := by
  rw [light_eq_encode]
  exact b.restores

theorem ofRaw_light (b : Build) : ∃ entries, b.light = .map entries ∧ ofRaw entries = .ok b := by
  have hlight : b.light = .map (Record.written b record.fields) := light_eq_encode b
  have hdecode : codec.decode (.map (Record.written b record.fields)) = .ok b := by
    rw [← hlight]
    exact decode_light b
  exact ⟨_, hlight, ofRaw_of_decode hdecode⟩

/-- The light form of a build is what is written of it, and both readers give the build back from
it. A raw mapping is read as what is left of it without the keys that are no build fields; to add
such a key, to give it another value or to take it away makes no difference; and a mapping that
is read strictly is read the same as a raw one. -/
theorem light_form_read_alike :
    (∀ b : Build, b.light = codec.encode b ∧ codec.decode b.light = .ok b ∧
      ∃ entries, b.light = .map entries ∧ ofRaw entries = .ok b) ∧
    ∀ raw : Mapping,
      ofRaw raw = codec.decode (.map (raw.filter fun e => record.names.contains e.1)) ∧
      (∀ key v, key ∉ record.names → ofRaw (Mapping.put raw key v) = ofRaw raw ∧
        ofRaw (Mapping.erase raw key) = ofRaw raw) ∧
      ∀ b, codec.decode (.map raw) = .ok b → ofRaw raw = .ok b := by
  constructor
  · intro b
    exact ⟨light_eq_encode b, decode_light b, ofRaw_light b⟩
  · intro raw
    refine ⟨rfl, fun key v hkey => ?_, fun b h => ofRaw_of_decode h⟩
    rw [names_record] at hkey
    constructor
    · rw [ofRaw, ofRaw, known_put hkey]
    · rw [ofRaw, ofRaw, known_erase hkey]

/-- A raw mapping whose first key is no build field. The strict reader refuses it, and without
that key both readers give the same build. -/
theorem light_form_read_alike_resources :
    let entries : Mapping := [("image", .str "python:3"),
      ("env_vars", .seq [.seq [.str "WORKERS", .int 4]]), ("nocache", .bool false)]
    let raw : Mapping := ("resources", .map [("cpu", .int 1)]) :: entries
    let b : Build :=
      { image := "python:3", envVars := [⟨"WORKERS", .int 4⟩], nocache := some false }
    "resources" ∉ record.names ∧ (∀ c, codec.decode (.map raw) ≠ .ok c) ∧
      codec.decode (.map entries) = .ok b ∧ ofRaw entries = .ok b ∧
      ofRaw (Mapping.erase raw "resources") = ofRaw raw ∧ b.light = .map entries := by
  intro entries raw b
  obtain ⟨hlight, hraw⟩ := light_form_read_alike
  have hforeign : "resources" ∉ record.names := by decide
  have hdecode : codec.decode (.map entries) = .ok b := rfl
  obtain ⟨-, hchange, -⟩ := hraw raw
  obtain ⟨-, -, hagree⟩ := hraw entries
  refine ⟨hforeign, ?_, hdecode, hagree b hdecode, (hchange "resources" .null hforeign).2, ?_⟩
  · intro c hc
    cases hc
  · exact (hlight b).1

end Build

end WorkloadSpec
