import WorkloadSpec.Proofs.MergedSections

/-!
Reading sources. The mappings that sources load as are merged, and the first source that
loads as something else, or does not load, is the one reported. A null source counts for
nothing. Whatever a text is read as, its mapping repeats no key, so that the law of
merging applies to everything that is read.
-/
namespace WorkloadSpec

theorem Mapping.nodup_ofEntries (entries : List (String × Value)) :
    (keys (ofEntries entries)).Nodup := by
  have hfold : ∀ m : Mapping, (keys m).Nodup →
      (keys (entries.foldl (fun m e => put m e.1 e.2) m)).Nodup := by
    induction entries with
    | nil => exact fun m hm => hm
    | cons e entries ih => exact fun m hm => ih _ (nodup_keys_put hm)
  exact hfold [] List.Pairwise.nil

namespace Yaml

theorem ne_map_of_scalarValue? {tag : Option TagText} {text : String} {plain : Bool}
    {m : Mapping} : scalarValue? tag text plain ≠ some (.map m) := by
  intro h
  unfold scalarValue? at h
  split at h
  · cases h
  · obtain ⟨b, -, hb⟩ := Option.map_eq_some_iff.1 h
    cases hb
  · obtain ⟨n, -, hn⟩ := Option.bind_eq_some_iff.1 h
    unfold Value.ofInt? at hn
    split at hn <;> cases hn
  · obtain ⟨x, -, hx⟩ := Option.map_eq_some_iff.1 h
    unfold floatValue at hx
    cases hd : Double.ofFloat? x <;> rw [hd] at hx <;> cases hx
  · split at h <;> cases h
  · cases h
  · split at h
    · unfold plainValue? at h
      split at h
      · cases h
      · cases h
      · unfold Value.ofInt? at h
        split at h <;> cases h
      · next x _ =>
        unfold floatValue at h
        cases hd : Double.ofFloat? x <;> rw [hd] at h <;> cases h
      · cases h
    · cases h

theorem not_run_scalarValue? {tag : Option TagText} {text : String} {plain : Bool}
    {jumps next : Nat} {m : Mapping} :
    (liftM (scalarValue? tag text plain) : StateT Nat Option Value).run jumps ≠
      some (.map m, next) := by
  intro h
  obtain ⟨v, hv, heq⟩ := Option.bind_eq_some_iff.1 h
  obtain ⟨rfl, -⟩ := Prod.mk.inj (Option.some.inj heq)
  exact ne_map_of_scalarValue? hv

theorem nodup_of_value {anchors : Anchors} {room jumps next : Nat} {n : Node} {m : Mapping}
    (h : (value anchors room n).run jumps = some (.map m, next)) : (Mapping.keys m).Nodup := by
  cases room with
  | zero =>
    rw [value, StateT.run_bind] at h
    obtain ⟨⟨node, followed⟩, -, h⟩ := Option.bind_eq_some_iff.1 h
    cases node with
    | scalar p text plain => exact absurd h not_run_scalarValue?
    | _ => cases h
  | succ room =>
    rw [value, StateT.run_bind] at h
    obtain ⟨⟨node, followed⟩, -, h⟩ := Option.bind_eq_some_iff.1 h
    cases node with
    | aliasTo id => cases h
    | scalar p text plain => exact absurd h not_run_scalarValue?
    | seq p items =>
      dsimp only at h
      split at h
      · cases h
      · obtain ⟨⟨vs, _⟩, -, h⟩ := Option.bind_eq_some_iff.1 h
        cases h
    | map p entries =>
      dsimp only at h
      split at h
      · cases h
      · obtain ⟨⟨es, _⟩, -, h⟩ := Option.bind_eq_some_iff.1 h
        cases h
        exact Mapping.nodup_ofEntries es

theorem nodup_of_parse? {text : String} {m : Mapping} (h : parse? text = some (.map m)) :
    (Mapping.keys m).Nodup := by
  obtain ⟨tokens, -, h⟩ := Option.bind_eq_some_iff.1 h
  obtain ⟨root?, -, h⟩ := Option.bind_eq_some_iff.1 h
  cases root? with
  | none => cases h
  | some root =>
    obtain ⟨⟨v, next⟩, hv, h⟩ := Option.bind_eq_some_iff.1 h
    cases h
    exact nodup_of_value hv

end Yaml

namespace Source

variable {files : Files} {s : Source} {sources : List Source} {e : DocumentError}

/-- A source that loads as a mapping, or as null, which is none. -/
def Usable (files : Files) (s : Source) : Prop :=
  ∃ v, s.load files = .ok v ∧ (v = .null ∨ ∃ m, v = .map m)

/-- Why a source is refused. -/
inductive Refused (files : Files) (s : Source) : DocumentError → Prop
  | load {e : DocumentError} (h : s.load files = .error e) : Refused files s e
  | shape {v : Value} (h : s.load files = .ok v) (hnull : v ≠ .null) (hmap : ∀ m, v ≠ .map m) :
      Refused files s (.notMapping s.name v.shape)

def mapping? (files : Files) (s : Source) : Option Mapping :=
  match s.load files with
  | .ok (.map m) => some m
  | _ => none

/-- The mappings that some sources load as, in order. -/
def mappings (files : Files) (sources : List Source) : List Mapping :=
  sources.filterMap (mapping? files)

theorem document?_eq_error : document? files s = .error e ↔ s.Refused files e := by
  unfold document?
  cases hload : s.load files with
  | error d =>
    constructor
    · intro h
      obtain rfl := Except.error.inj h
      exact .load hload
    · rintro (h | ⟨h, -, -⟩)
      · exact congrArg _ (Except.error.inj (hload.symm.trans h))
      · cases hload.symm.trans h
  | ok v =>
    have hshape : Refused files s e → e = .notMapping s.name v.shape ∧ v ≠ .null ∧
        ∀ m, v ≠ .map m := by
      rintro (h | ⟨h, hnull, hmap⟩)
      · cases hload.symm.trans h
      · obtain rfl := Except.ok.inj (hload.symm.trans h)
        exact ⟨rfl, hnull, hmap⟩
    constructor
    · intro h
      cases v with
      | null => cases h
      | map m => cases h
      | _ =>
        obtain rfl := Except.error.inj h
        exact .shape hload (by simp) (by simp)
    · intro h
      obtain ⟨rfl, hnull, hmap⟩ := hshape h
      cases v with
      | null => exact absurd rfl hnull
      | map m => exact absurd rfl (hmap m)
      | _ => rfl

theorem document?_eq_ok {d : Option Mapping} (h : document? files s = .ok d) :
    s.Usable files ∧ mapping? files s = d := by
  unfold document? at h
  obtain ⟨v, hload, hd⟩ := Outcome.bind_eq_ok.1 h
  unfold mapping?
  rw [hload]
  cases v with
  | null => exact ⟨⟨_, hload, Or.inl rfl⟩, Except.ok.inj hd⟩
  | map m => exact ⟨⟨_, hload, Or.inr ⟨m, rfl⟩⟩, Except.ok.inj hd⟩
  | _ => cases hd

theorem exists_document? : (∃ d, document? files s = .ok d) ↔ s.Usable files := by
  constructor
  · rintro ⟨d, hd⟩
    exact (document?_eq_ok hd).1
  · rintro ⟨v, hload, hv⟩
    unfold document?
    rw [hload]
    rcases hv with rfl | ⟨m, rfl⟩
    · exact ⟨none, rfl⟩
    · exact ⟨some m, rfl⟩

theorem documents_eq_ok {ds : List Mapping} (h : documents files sources = .ok ds) :
    (∀ s ∈ sources, s.Usable files) ∧ mappings files sources = ds := by
  obtain ⟨found, hfound, rfl⟩ := Outcome.map_eq_ok.1 h
  have hall := Outcome.mapM_eq_ok.1 hfound
  clear h hfound
  unfold mappings
  induction hall with
  | nil => exact ⟨fun s hs => absurd hs List.not_mem_nil, rfl⟩
  | @cons s d sources found hd _ ih =>
    obtain ⟨husable, hmapping⟩ := document?_eq_ok hd
    refine ⟨List.forall_mem_cons.2 ⟨husable, ih.1⟩, ?_⟩
    rw [List.filterMap_cons, List.filterMap_cons, hmapping, ih.2]
    rfl

theorem documents_eq_error :
    documents files sources = .error e ↔ ∃ before s after, sources = before ++ s :: after ∧
      (∀ t ∈ before, t.Usable files) ∧ s.Refused files e := by
  have hmapM : documents files sources = .error e ↔
      sources.mapM (document? files) = .error e := by
    unfold documents
    cases sources.mapM (document? files) <;> simp [Functor.map, Except.map]
  rw [hmapM, Outcome.mapM_eq_error]
  simp only [exists_document?, document?_eq_error]

theorem read_eq_error : read files sources = .error e ↔ documents files sources = .error e := by
  rw [read_eq]
  cases documents files sources <;> simp [Functor.map, Except.map]

theorem exists_read :
    (∃ merged, read files sources = .ok merged) ↔ ∀ s ∈ sources, s.Usable files := by
  rw [read_eq]
  cases hd : documents files sources with
  | ok ds => exact ⟨fun _ => (documents_eq_ok hd).1, fun _ => ⟨_, rfl⟩⟩
  | error e =>
    constructor
    · rintro ⟨merged, h⟩
      cases h
    · intro hall
      obtain ⟨before, s, after, rfl, -, hrefused⟩ := documents_eq_error.1 hd
      obtain ⟨d, hd⟩ := exists_document?.2 (hall s (by simp))
      cases hd.symm.trans (document?_eq_error.2 hrefused)

/-- Keys of a text are distinct once it is read; those of a value are when it is given so. -/
theorem nodup_of_load (h : ∀ m, s = .value (.map m) → (Mapping.keys m).Nodup) {m : Mapping}
    (hload : s.load files = .ok (.map m)) : (Mapping.keys m).Nodup := by
  have hparse : ∀ name text, parse name text = .ok (.map m) → (Mapping.keys m).Nodup := by
    intro name text hp
    unfold parse at hp
    split at hp
    · cases hp
    · split at hp
      · next v hv =>
        obtain rfl := Except.ok.inj hp
        exact Yaml.nodup_of_parse? hv
      · cases hp
  cases s with
  | path p =>
    obtain ⟨text, -, hp⟩ := Outcome.bind_eq_ok.1 hload
    exact hparse p text hp
  | text t => exact hparse _ t hload
  | value v =>
    obtain rfl := Except.ok.inj hload
    exact h m rfl

theorem read_null_source {before after : List Source} (h : s.load files = .ok .null) :
    read files (before ++ s :: after) = read files (before ++ after) := by
  have hnone : document? files s = .ok none := by
    unfold document?
    rw [h]
    rfl
  have hafter : documents files (s :: after) = documents files after := by
    unfold documents
    rw [List.mapM_cons, hnone]
    cases after.mapM (document? files) <;> rfl
  rw [read_eq, read_eq, documents_append, documents_append, hafter]

/-- Sources are read just when each of them loads as null or as a mapping, and else the
first that does not is reported. What is read is what the mappings say, taken together;
null sources count for nothing. Merging says the same of any mappings. -/
theorem read_merges (files : Files) {sources : List Source}
    (h : ∀ m, .value (.map m) ∈ sources → (Mapping.keys m).Nodup) :
    ((∃ merged, read files sources = .ok merged) ↔ ∀ s ∈ sources, s.Usable files) ∧
    (∀ e, read files sources = .error e ↔ ∃ before s after, sources = before ++ s :: after ∧
      (∀ t ∈ before, t.Usable files) ∧ s.Refused files e) ∧
    (∀ merged, read files sources = .ok merged →
      Mapping.Merged (mappings files sources) merged) ∧
    (∀ before s after, s.load files = .ok .null →
      read files (before ++ s :: after) = read files (before ++ after)) ∧
    ∀ documents, (∀ d ∈ documents, (Mapping.keys d).Nodup) →
      Mapping.Merged documents (Mapping.merge documents) := by
  refine ⟨exists_read, fun e => read_eq_error.trans documents_eq_error, fun merged hread => ?_,
    fun _ _ _ hnull => read_null_source hnull, fun _ hdocuments => Mapping.merged_merge hdocuments⟩
  rw [read_eq] at hread
  obtain ⟨ds, hds, rfl⟩ := Outcome.map_eq_ok.1 hread
  rw [(documents_eq_ok hds).2]
  refine Mapping.merged_merge fun d hd => ?_
  rw [← (documents_eq_ok hds).2, mappings, List.mem_filterMap] at hd
  obtain ⟨s, hs, hmapping⟩ := hd
  unfold mapping? at hmapping
  split at hmapping
  · next m hload =>
    obtain rfl := Option.some.inj hmapping
    exact nodup_of_load (fun n hn => h n (hn ▸ hs)) hload
  · cases hmapping

/-- Layers with an empty text among them; the section of tags is cleared and comes back,
and the version is replaced in its place. -/
def tagLayers : List Source :=
  [.value (.map [("version", .int 1), ("tags", .str "a"), ("kind", .str "job")]), .text "",
    .value (.map [("tags", .null), ("backend", .str "native")]),
    .value (.map [("tags", .str "b"), ("version", .int 2)])]

theorem read_merges_tagLayers :
    let files : Files := fun _ => .error .notFound
    let merged : Mapping := [("version", .int 2), ("kind", .str "job"), ("backend", .str "native"),
      ("tags", .str "b")]
    (∀ m, .value (.map m) ∈ tagLayers → (Mapping.keys m).Nodup) ∧
      read files tagLayers = .ok merged ∧
      Mapping.Merged (mappings files tagLayers) merged ∧
      Mapping.Counts (mappings files tagLayers) "tags" 3 ∧
      read files tagLayers = read files (tagLayers.eraseIdx 1) := by
  intro files merged
  have hkeys : ∀ m, .value (.map m) ∈ tagLayers → (Mapping.keys m).Nodup := by
    intro m hm
    simp only [tagLayers, List.mem_cons, List.not_mem_nil, or_false, Source.value.injEq,
      Value.map.injEq, reduceCtorEq, false_or] at hm
    rcases hm with rfl | rfl | rfl <;> decide
  have hread : read files tagLayers = .ok merged := rfl
  obtain ⟨-, -, hmerged, hnull, -⟩ := read_merges files hkeys
  have hcounts : Mapping.Counts (mappings files tagLayers) "tags" 3 := by
    have hcleared : Mapping.cleared (mappings files tagLayers) "tags" = 2 := rfl
    have hlayer : Mapping.layer (mappings files tagLayers) 3 =
        [("tags", .str "b"), ("version", .int 2)] := rfl
    refine ⟨by omega, ?_⟩
    rw [hlayer]
    decide
  exact ⟨hkeys, hread, hmerged merged hread, hcounts, hnull [_] (.text "") [_, _] rfl⟩

end Source

end WorkloadSpec
