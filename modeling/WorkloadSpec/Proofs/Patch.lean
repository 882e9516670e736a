import WorkloadSpec.Proofs.Stages

/-!
Patching. A patch reads the merged document of a specification with more layers on
top of it, and comes to the same end as resolving all the layers at once: the same
error, or a specification that says the same. Only the recorded layers tell the two
apart. Patches can therefore be made one after another or all in one, and the kind
stays what it was.
-/
namespace WorkloadSpec.Specification

/-- The same document, read and expanded to the same; the layers are left out. -/
structure Agrees (s t : Specification) : Prop where
  data : s.data = t.data
  header : s.header = t.header
  sections : s.sections = t.sections
  settings : s.settings = t.settings

/-- The same error, or specifications that agree. -/
def OutcomesAgree : (_ _ : Except ResolutionError Specification) → Prop
  | .ok s, .ok t => s.Agrees t
  | .error e, .error f => e = f
  | _, _ => False

theorem outcomesAgree_ofDocument (kind : Kind) (sources other : List Source) (data : Mapping) :
    OutcomesAgree (ofDocument kind sources data) (ofDocument kind other data) := by
  rw [ofDocument_sources kind sources, ofDocument_sources kind other]
  cases ofDocument kind [] data with
  | error e => exact rfl
  | ok s => exact ⟨rfl, rfl, rfl, rfl⟩

/-- Layers that read as the same document, or fail to, resolve alike. -/
theorem outcomesAgree_of_read_eq {files : Files} {sources other : List Source} (kind : Kind)
    (h : Source.read files sources = Source.read files other) :
    OutcomesAgree (resolve files kind sources) (resolve files kind other) := by
  unfold resolve
  rw [h]
  cases Source.read files other with
  | error e => exact rfl
  | ok data => exact outcomesAgree_ofDocument kind sources other data

theorem outcomesAgree_patch {files : Files} {kind : Kind} {sources : List Source}
    {s : Specification} (h : resolve files kind sources = .ok s) (extra : List Source) :
    OutcomesAgree (s.patch files extra) (resolve files kind (sources ++ extra)) := by
  obtain ⟨hread, -, hstaged⟩ := resolve_eq_ok.1 h
  rw [patch, hstaged.kind_eq]
  exact outcomesAgree_of_read_eq kind (Source.read_value_cons hread extra)

theorem kind_of_patch {files : Files} {s t : Specification} {extra : List Source}
    (h : s.patch files extra = .ok t) : t.kind = s.kind :=
  (resolve_eq_ok.1 h).2.2.kind_eq

/-- Patching a resolved specification is resolving its layers with the new ones
appended, whether that succeeds or fails. Patches made one after another come to the
same as one patch with all their layers, and none of them changes the kind. -/
theorem patch_agrees_resolve_append {files : Files} {kind : Kind} {sources : List Source}
    {s : Specification} (h : resolve files kind sources = .ok s) :
    (∀ extra, OutcomesAgree (s.patch files extra) (resolve files kind (sources ++ extra))) ∧
    ∀ first t, s.patch files first = .ok t →
      t.kind = s.kind ∧
      ∀ second, OutcomesAgree (t.patch files second) (s.patch files (first ++ second)) := by
  refine ⟨outcomesAgree_patch h, fun first t ht => ⟨kind_of_patch ht, fun second => ?_⟩⟩
  -- The first patch is itself a resolution, of the merged document and its layers.
  exact outcomesAgree_patch ht second

/-- Layers of a tensorboard, the second of which clears a section of the first. -/
def boardLayers : List Source :=
  [.value (.map [("version", .int 1), ("tags", .str "a"), ("kind", .str "tensorboard")]),
    .value (.map [("tags", .null), ("backend", .str "native")])]

/-- A section that was cleared comes back at the end, and an unknown one is refused. -/
theorem patch_agrees_boardLayers :
    let files : Files := fun _ => .error .notFound
    let tagged : List Source := [.value (.map [("tags", .str "b")])]
    let unknown : List Source := [.value (.map [("gpus", .int 2)])]
    ∃ s t, resolve files .tensorboard boardLayers = .ok s ∧ s.patch files tagged = .ok t ∧
      Mapping.keys t.data = ["version", "kind", "backend", "tags"] ∧
      OutcomesAgree (t.patch files unknown) (s.patch files (tagged ++ unknown)) := by
  intro files tagged unknown
  obtain ⟨s, hs⟩ : ∃ s, resolve files .tensorboard boardLayers = .ok s := ⟨_, rfl⟩
  obtain ⟨t, ht, hkeys⟩ : ∃ t, s.patch files tagged = .ok t ∧
      Mapping.keys t.data = ["version", "kind", "backend", "tags"] := by
    cases hs
    exact ⟨_, rfl, rfl⟩
  exact ⟨s, t, hs, ht, hkeys, ((patch_agrees_resolve_append hs).2 tagged t ht).2 unknown⟩

end WorkloadSpec.Specification
