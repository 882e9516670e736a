import WorkloadSpec.Proofs.Unmarked

/-!
Which values are operators. A mapping with the key `for` is a loop or is refused, one with `if`
but without `for` is a branch or is refused, and every other value is plain. What the entries of
a loop and of a branch are, and what is wrong with entries that are neither, is said here
through keys and look-up, and reading decides just that. The guard that keeps operators out of
looked-up data goes down a value by itself: it finds none just when reading finds a plain value
there and everywhere within.
-/
namespace WorkloadSpec

/-- A letter or an underscore, then letters, digits and underscores. -/
def IsName (cs : List Char) : Prop :=
  ∃ c rest, cs = c :: rest ∧ (c.isAlpha = true ∨ c = '_') ∧
    ∀ d ∈ rest, d.isAlphanum = true ∨ d = '_'

theorem isWordChar_iff {c : Char} : isWordChar c = true ↔ c.isAlphanum = true ∨ c = '_' := by
  rw [isWordChar, Bool.or_eq_true, beq_iff_eq]

theorem isDigit_of_isAlpha {c : Char} (h : c.isAlpha = true) : c.isDigit = false := by
  have hclasses : (c.isUpper || c.isLower) = true := h
  refine eq_false_of_ne_true fun hdigit => ?_
  have hlow : 48 ≤ c.toNat ∧ c.toNat ≤ 57 :=
    (Bool.and_eq_true_iff.1 hdigit).imp of_decide_eq_true of_decide_eq_true
  rcases Bool.or_eq_true_iff.1 hclasses with hupper | hlower
  · have hhigh : 65 ≤ c.toNat ∧ c.toNat ≤ 90 := of_decide_eq_true hupper
    omega
  · have hhigh : 97 ≤ c.toNat ∧ c.toNat ≤ 122 :=
      (Bool.and_eq_true_iff.1 hlower).imp of_decide_eq_true of_decide_eq_true
    omega

/-- A name is what may be bound. -/
theorem isBinding_iff {cs : List Char} : isBinding cs = true ↔ IsName cs := by
  cases cs with
  | nil =>
    constructor
    · intro h
      cases h
    · rintro ⟨c, rest, hcs, -⟩
      cases hcs
  | cons c rest =>
    have hfirst : isWordChar c = true ∧ c.isDigit = false ↔ c.isAlpha = true ∨ c = '_' := by
      rw [isWordChar_iff]
      constructor
      · rintro ⟨halnum | rfl, hdigit⟩
        · have hclasses : (c.isAlpha || c.isDigit) = true := halnum
          rw [hdigit, Bool.or_false] at hclasses
          exact .inl hclasses
        · exact .inr rfl
      · rintro (halpha | rfl)
        · have hclasses : (c.isAlpha || c.isDigit) = true := Bool.or_eq_true_iff.2 (.inl halpha)
          exact ⟨.inl hclasses, isDigit_of_isAlpha halpha⟩
        · exact ⟨.inr rfl, rfl⟩
    have hbinding : isBinding (c :: rest) = true ↔
        (isWordChar c = true ∧ c.isDigit = false) ∧ ∀ d ∈ rest, isWordChar d = true := by
      simp [isBinding, isWord]
      tauto
    rw [hbinding, hfirst]
    simp only [isWordChar_iff]
    constructor
    · rintro ⟨hc, hrest⟩
      exact ⟨c, rest, rfl, hc, hrest⟩
    · rintro ⟨d, others, hcs, hd, hothers⟩
      obtain ⟨rfl, rfl⟩ := List.cons.inj hcs
      exact ⟨hd, hothers⟩

namespace Operator

/-- The entries of a loop: these keys and no others, and a name to bind. -/
structure IsLoop (entries : Mapping) (binding : String) (items body : Value) : Prop where
  keys : ∀ key, key ∈ Mapping.keys entries ↔ key ∈ ["for", "in", "do"]
  binds : entries.lookup "for" = some (.str binding)
  isName : IsName binding.toList
  items : entries.lookup "in" = some items
  body : entries.lookup "do" = some body

/-- The entries of a branch, which may do without `else`. -/
structure IsBranch (entries : Mapping) (test body : Value) (otherwise : Option Value) :
    Prop where
  keys : ∀ key ∈ Mapping.keys entries, key ∈ ["if", "do", "else"]
  test : entries.lookup "if" = some test
  body : entries.lookup "do" = some body
  otherwise : entries.lookup "else" = otherwise

/-- What is wrong with the keys of an operator: the first that it does not have, or else the
first that it lacks. -/
inductive KeyFault (entries : Mapping) (operator : String) (allowed required : List String) :
    MalformedOperator → Prop
  | unexpected {key : String} (h : FirstOf (· ∉ allowed) (Mapping.keys entries) key) :
    KeyFault entries operator allowed required (.unexpectedKey key operator allowed)
  | missing {key : String} (hkeys : ∀ key ∈ Mapping.keys entries, key ∈ allowed)
    (h : FirstOf (· ∉ Mapping.keys entries) required key) :
    KeyFault entries operator allowed required (.missingKey operator key)

/-- Entries that are to be an operator, and are none. -/
inductive IsMalformed (entries : Mapping) : MalformedOperator → Prop
  | loop {fault : MalformedOperator} (hfor : "for" ∈ Mapping.keys entries)
    (h : KeyFault entries "for" ["for", "in", "do"] ["for", "in", "do"] fault) :
    IsMalformed entries fault
  | binding {found : Value} (hkeys : ∀ key, key ∈ Mapping.keys entries ↔ key ∈ ["for", "in", "do"])
    (hfound : entries.lookup "for" = some found)
    (h : ∀ name : String, found = .str name → ¬IsName name.toList) :
    IsMalformed entries (.notABinding found)
  | branch {fault : MalformedOperator} (hfor : "for" ∉ Mapping.keys entries)
    (hif : "if" ∈ Mapping.keys entries)
    (h : KeyFault entries "if" ["if", "do", "else"] ["if", "do"] fault) :
    IsMalformed entries fault

variable {entries : Mapping} {operator key : String} {allowed : List String} {v w : Value}
  {e : OperatorError}

theorem checkKeys_eq_ok {u : Unit} :
    checkKeys entries operator allowed = .ok u ↔ ∀ key ∈ Mapping.keys entries, key ∈ allowed := by
  have hnone : (Mapping.keys entries).find? (fun key => !allowed.contains key) = none ↔
      ∀ key ∈ Mapping.keys entries, key ∈ allowed := by
    simp
  rw [← hnone, checkKeys]
  cases (Mapping.keys entries).find? fun key => !allowed.contains key with
  | none => simp only
  | some key => simp only [reduceCtorEq]

theorem checkKeys_eq_error : checkKeys entries operator allowed = .error e ↔
    ∃ key, FirstOf (· ∉ allowed) (Mapping.keys entries) key ∧
      e = .malformed (.unexpectedKey key operator allowed) := by
  have hfirst : ∀ key, (Mapping.keys entries).find? (fun key => !allowed.contains key) =
      some key ↔ FirstOf (· ∉ allowed) (Mapping.keys entries) key := by
    intro key
    exact find?_eq_some_iff_firstOf fun key => by simp
  simp only [← hfirst, checkKeys]
  cases (Mapping.keys entries).find? fun key => !allowed.contains key with
  | none => simp only [reduceCtorEq, false_and, exists_false]
  | some key => simp [eq_comm]

theorem part_eq_ok_iff : part entries operator key = .ok v ↔ entries.lookup key = some v := by
  refine ⟨part_eq_ok, fun h => ?_⟩
  rw [part, h]

theorem part_eq_error : part entries operator key = .error e ↔
    key ∉ Mapping.keys entries ∧ e = .malformed (.missingKey operator key) := by
  rw [← Mapping.has_iff_mem_keys, Mapping.has, part]
  cases entries.lookup key with
  | none => simp [eq_comm]
  | some v => simp

/-- A loop lacks none of its keys. -/
theorem mem_loopKeys_iff {found items body : Value}
    (hkeys : ∀ key ∈ Mapping.keys entries, key ∈ ["for", "in", "do"])
    (hfor : entries.lookup "for" = some found) (hin : entries.lookup "in" = some items)
    (hdo : entries.lookup "do" = some body) (key : String) :
    key ∈ Mapping.keys entries ↔ key ∈ ["for", "in", "do"] := by
  refine ⟨hkeys key, ?_⟩
  simp only [List.mem_cons, List.not_mem_nil, or_false]
  rintro (rfl | rfl | rfl)
  · exact Mapping.mem_keys_of_lookup hfor
  · exact Mapping.mem_keys_of_lookup hin
  · exact Mapping.mem_keys_of_lookup hdo

theorem readLoop_eq_ok {op : Operator} : readLoop entries = .ok op ↔
    ∃ binding items body, op = .loop binding items body ∧ IsLoop entries binding items body := by
  simp only [readLoop, Outcome.bind_eq_ok, checkKeys_eq_ok, part_eq_ok_iff]
  constructor
  · rintro ⟨-, hkeys, found, hfor, items, hin, body, hdo, h⟩
    split at h
    · next name =>
      split at h
      · next hname =>
        obtain rfl := Outcome.pure_eq_ok.1 h
        exact ⟨name, items, body, rfl, mem_loopKeys_iff hkeys hfor hin hdo, hfor,
          isBinding_iff.1 hname, hin, hdo⟩
      · cases h
    · cases h
  · rintro ⟨binding, items, body, rfl, h⟩
    refine ⟨(), fun key => (h.keys key).1, _, h.binds, items, h.items, body, h.body, ?_⟩
    dsimp only
    rw [if_pos (isBinding_iff.2 h.isName)]
    rfl

theorem readBranch_eq_ok {op : Operator} : readBranch entries = .ok op ↔
    ∃ test body otherwise, op = .branch test body otherwise ∧
      IsBranch entries test body otherwise := by
  simp only [readBranch, Outcome.bind_eq_ok, Outcome.pure_eq_ok, checkKeys_eq_ok, part_eq_ok_iff]
  constructor
  · rintro ⟨-, hkeys, test, htest, body, hbody, rfl⟩
    exact ⟨test, body, _, rfl, hkeys, htest, hbody, rfl⟩
  · rintro ⟨test, body, otherwise, rfl, hkeys, htest, hbody, rfl⟩
    exact ⟨(), hkeys, test, htest, body, hbody, rfl⟩

/-- What makes entries an operator is not what they lack. -/
theorem firstOf_missing {required : List String} (h : operator ∈ Mapping.keys entries) :
    FirstOf (· ∉ Mapping.keys entries) (operator :: required) key ↔
      FirstOf (· ∉ Mapping.keys entries) required key := by
  rw [firstOf_cons, not_not, and_iff_right h]
  exact or_iff_right fun hnot => hnot.1 h

theorem isMalformed_of_readLoop (hfor : "for" ∈ Mapping.keys entries)
    (h : readLoop entries = .error e) :
    ∃ fault, e = .malformed fault ∧ IsMalformed entries fault := by
  simp only [readLoop, Outcome.bind_eq_error, checkKeys_eq_ok, checkKeys_eq_error,
    part_eq_ok_iff, part_eq_error] at h
  obtain ⟨key, hkey, rfl⟩ | ⟨-, hkeys, ⟨hnot, -⟩ | ⟨found, hfound, ⟨hnot, rfl⟩ |
    ⟨items, hin, ⟨hnot, rfl⟩ | ⟨body, hdo, h⟩⟩⟩⟩ := h
  · exact ⟨_, rfl, .loop hfor (.unexpected hkey)⟩
  · exact absurd hfor hnot
  · have hfirst : FirstOf (· ∉ Mapping.keys entries) ["in", "do"] "in" :=
      firstOf_cons.2 (.inl ⟨hnot, rfl⟩)
    exact ⟨_, rfl, .loop hfor (.missing hkeys ((firstOf_missing hfor).2 hfirst))⟩
  · have hfirst : FirstOf (· ∉ Mapping.keys entries) ["in", "do"] "do" :=
      (firstOf_missing (Mapping.mem_keys_of_lookup hin)).2 (firstOf_cons.2 (.inl ⟨hnot, rfl⟩))
    exact ⟨_, rfl, .loop hfor (.missing hkeys ((firstOf_missing hfor).2 hfirst))⟩
  · refine ⟨.notABinding found, ?_, .binding (mem_loopKeys_iff hkeys hfound hin hdo) hfound ?_⟩
    · split at h
      · split at h
        · cases h
        · exact (Except.error.inj h).symm
      · exact (Except.error.inj h).symm
    · rintro name rfl hname
      dsimp only at h
      rw [if_pos (isBinding_iff.2 hname)] at h
      cases h

theorem readLoop_of_keyFault {fault : MalformedOperator} (hfor : "for" ∈ Mapping.keys entries)
    (h : KeyFault entries "for" ["for", "in", "do"] ["for", "in", "do"] fault) :
    readLoop entries = .error (.malformed fault) := by
  simp only [readLoop, Outcome.bind_eq_error, checkKeys_eq_ok, checkKeys_eq_error,
    part_eq_ok_iff, part_eq_error]
  obtain ⟨found, hfound⟩ := Mapping.exists_lookup hfor
  cases h with
  | unexpected hkey => exact .inl ⟨_, hkey, rfl⟩
  | missing hkeys hfirst =>
    rcases firstOf_cons.1 ((firstOf_missing hfor).1 hfirst) with ⟨hnot, rfl⟩ | ⟨hin, hfirst⟩
    · exact .inr ⟨(), hkeys, .inr ⟨found, hfound, .inl ⟨hnot, rfl⟩⟩⟩
    · obtain ⟨items, hin⟩ := Mapping.exists_lookup (not_not.1 hin)
      rcases firstOf_cons.1 hfirst with ⟨hnot, rfl⟩ | ⟨-, hnone⟩
      · exact .inr ⟨(), hkeys, .inr ⟨found, hfound, .inr ⟨items, hin, .inl ⟨hnot, rfl⟩⟩⟩⟩
      · exact absurd hnone not_firstOf_nil

theorem readLoop_of_not_isName {found : Value}
    (hkeys : ∀ key, key ∈ Mapping.keys entries ↔ key ∈ ["for", "in", "do"])
    (hfound : entries.lookup "for" = some found)
    (h : ∀ name : String, found = .str name → ¬IsName name.toList) :
    readLoop entries = .error (.malformed (.notABinding found)) := by
  simp only [readLoop, Outcome.bind_eq_error, checkKeys_eq_ok, part_eq_ok_iff]
  obtain ⟨items, hin⟩ := Mapping.exists_lookup ((hkeys "in").2 (by simp))
  obtain ⟨body, hdo⟩ := Mapping.exists_lookup ((hkeys "do").2 (by simp))
  refine .inr ⟨(), fun key => (hkeys key).1, .inr ⟨_, hfound, .inr ⟨items, hin,
    .inr ⟨body, hdo, ?_⟩⟩⟩⟩
  split
  · next name => rw [if_neg fun hname => h name rfl (isBinding_iff.1 hname)]
  · rfl

theorem readLoop_eq_error (hfor : "for" ∈ Mapping.keys entries) :
    readLoop entries = .error e ↔ ∃ fault, e = .malformed fault ∧ IsMalformed entries fault := by
  refine ⟨isMalformed_of_readLoop hfor, ?_⟩
  rintro ⟨fault, rfl, h⟩
  cases h with
  | loop _ h => exact readLoop_of_keyFault hfor h
  | binding hkeys hfound h => exact readLoop_of_not_isName hkeys hfound h
  | branch hnot => exact absurd hfor hnot

theorem readBranch_eq_error (hfor : "for" ∉ Mapping.keys entries)
    (hif : "if" ∈ Mapping.keys entries) :
    readBranch entries = .error e ↔
      ∃ fault, e = .malformed fault ∧ IsMalformed entries fault := by
  simp only [readBranch, Outcome.bind_eq_error, checkKeys_eq_ok, checkKeys_eq_error,
    part_eq_ok_iff, part_eq_error]
  constructor
  · rintro (⟨key, hkey, rfl⟩ | ⟨-, hkeys, ⟨hnot, -⟩ | ⟨test, htest, ⟨hnot, rfl⟩ | ⟨body, -, h⟩⟩⟩)
    · exact ⟨_, rfl, .branch hfor hif (.unexpected hkey)⟩
    · exact absurd hif hnot
    · have hfirst : FirstOf (· ∉ Mapping.keys entries) ["do"] "do" :=
        firstOf_cons.2 (.inl ⟨hnot, rfl⟩)
      exact ⟨_, rfl, .branch hfor hif (.missing hkeys ((firstOf_missing hif).2 hfirst))⟩
    · cases h
  · rintro ⟨fault, rfl, hfault⟩
    cases hfault with
    | loop hnot => exact absurd hnot hfor
    | binding hkeys => exact absurd ((hkeys "for").2 (by simp)) hfor
    | branch _ _ h =>
      obtain ⟨test, htest⟩ := Mapping.exists_lookup hif
      cases h with
      | unexpected hkey => exact .inl ⟨_, hkey, rfl⟩
      | missing hkeys hfirst =>
        rcases firstOf_cons.1 ((firstOf_missing hif).1 hfirst) with ⟨hnot, rfl⟩ | ⟨-, hnone⟩
        · exact .inr ⟨(), hkeys, .inr ⟨test, htest, .inl ⟨hnot, rfl⟩⟩⟩
        · exact absurd hnone not_firstOf_nil

theorem read?_map_eq_some {op : Operator} : read? (.map entries) = .ok (some op) ↔
    "for" ∈ Mapping.keys entries ∧ readLoop entries = .ok op ∨
      "for" ∉ Mapping.keys entries ∧ "if" ∈ Mapping.keys entries ∧
        readBranch entries = .ok op := by
  have hsome : ∀ x : Except OperatorError Operator, some <$> x = .ok (some op) ↔ x = .ok op := by
    intro x
    cases x <;> simp [Functor.map, Except.map]
  rw [read?, ← Mapping.has_iff_mem_keys, ← Mapping.has_iff_mem_keys]
  cases Mapping.has entries "for" with
  | true => simp [hsome]
  | false => cases Mapping.has entries "if" <;> simp [hsome]

theorem read?_map_eq_error : read? (.map entries) = .error e ↔
    "for" ∈ Mapping.keys entries ∧ readLoop entries = .error e ∨
      "for" ∉ Mapping.keys entries ∧ "if" ∈ Mapping.keys entries ∧
        readBranch entries = .error e := by
  have hsome : ∀ x : Except OperatorError Operator, some <$> x = .error e ↔ x = .error e := by
    intro x
    cases x <;> simp [Functor.map, Except.map]
  rw [read?, ← Mapping.has_iff_mem_keys, ← Mapping.has_iff_mem_keys]
  cases Mapping.has entries "for" with
  | true => simp [hsome]
  | false => cases Mapping.has entries "if" <;> simp [hsome]

theorem IsBranch.keys_mem {test body : Value} {otherwise : Option Value}
    (h : IsBranch entries test body otherwise) :
    "for" ∉ Mapping.keys entries ∧ "if" ∈ Mapping.keys entries :=
  ⟨fun hfor => absurd (h.keys "for" hfor) (by decide), Mapping.mem_keys_of_lookup h.test⟩

theorem read?_eq_loop {binding : String} {items body : Value} :
    read? v = .ok (some (.loop binding items body)) ↔
      ∃ entries, v = .map entries ∧ IsLoop entries binding items body := by
  cases v with
  | map entries =>
    simp only [read?_map_eq_some, readLoop_eq_ok, readBranch_eq_ok, Value.map.injEq,
      exists_eq_left', loop.injEq, reduceCtorEq, false_and, exists_false, and_false, or_false]
    constructor
    · rintro ⟨-, _, _, _, ⟨rfl, rfl, rfl⟩, h⟩
      exact h
    · intro h
      exact ⟨Mapping.mem_keys_of_lookup h.binds, _, _, _, ⟨rfl, rfl, rfl⟩, h⟩
  | _ => simp [read?]

theorem read?_eq_branch {test body : Value} {otherwise : Option Value} :
    read? v = .ok (some (.branch test body otherwise)) ↔
      ∃ entries, v = .map entries ∧ IsBranch entries test body otherwise := by
  cases v with
  | map entries =>
    simp only [read?_map_eq_some, readLoop_eq_ok, readBranch_eq_ok, Value.map.injEq,
      exists_eq_left', branch.injEq, reduceCtorEq, false_and, exists_false, and_false, false_or]
    constructor
    · rintro ⟨-, -, _, _, _, ⟨rfl, rfl, rfl⟩, h⟩
      exact h
    · intro h
      exact ⟨h.keys_mem.1, h.keys_mem.2, _, _, _, ⟨rfl, rfl, rfl⟩, h⟩
  | _ => simp [read?]

theorem read?_eq_none : read? v = .ok none ↔
    ∀ entries, v = .map entries →
      "for" ∉ Mapping.keys entries ∧ "if" ∉ Mapping.keys entries := by
  cases v with
  | map entries => simp only [read?_map_eq_none, Value.map.injEq, forall_eq']
  | _ => simp [read?]

theorem read?_eq_error : read? v = .error e ↔
    ∃ entries fault, v = .map entries ∧ e = .malformed fault ∧ IsMalformed entries fault := by
  cases v with
  | map entries =>
    simp only [read?_map_eq_error, Value.map.injEq, exists_and_left, exists_eq_left']
    constructor
    · rintro (⟨hfor, h⟩ | ⟨hfor, hif, h⟩)
      · exact (readLoop_eq_error hfor).1 h
      · exact (readBranch_eq_error hfor hif).1 h
    · rintro ⟨fault, rfl, h⟩
      cases h with
      | loop hfor h => exact .inl ⟨hfor, (readLoop_eq_error hfor).2 ⟨_, rfl, .loop hfor h⟩⟩
      | binding hkeys hfound h =>
        have hfor := Mapping.mem_keys_of_lookup hfound
        exact .inl ⟨hfor, (readLoop_eq_error hfor).2 ⟨_, rfl, .binding hkeys hfound h⟩⟩
      | branch hfor hif h =>
        exact .inr ⟨hfor, hif, (readBranch_eq_error hfor hif).2 ⟨_, rfl, .branch hfor hif h⟩⟩
  | _ => simp [read?]

/-- What is malformed has a key of an operator and is none of the two. -/
theorem exists_malformed_iff : (∃ fault, read? v = .error (.malformed fault)) ↔
    ∃ entries, v = .map entries ∧
      ("for" ∈ Mapping.keys entries ∨ "if" ∈ Mapping.keys entries) ∧
      (∀ binding items body, ¬IsLoop entries binding items body) ∧
      ∀ test body otherwise, ¬IsBranch entries test body otherwise := by
  constructor
  · rintro ⟨fault, hread⟩
    obtain ⟨entries, -, rfl, -, -⟩ := read?_eq_error.1 hread
    refine ⟨entries, rfl, ?_, fun binding items body h => ?_, fun test body otherwise h => ?_⟩
    · by_contra hnone
      cases hread.symm.trans (read?_map_eq_none.2 (not_or.1 hnone))
    · cases hread.symm.trans (read?_eq_loop.2 ⟨entries, rfl, h⟩)
    · cases hread.symm.trans (read?_eq_branch.2 ⟨entries, rfl, h⟩)
  · rintro ⟨entries, rfl, hkeys, hloop, hbranch⟩
    cases hread : read? (.map entries) with
    | error e =>
      obtain ⟨-, fault, -, rfl, -⟩ := read?_eq_error.1 hread
      exact ⟨fault, rfl⟩
    | ok form =>
      cases form with
      | none => exact absurd hkeys (not_or.2 (read?_map_eq_none.1 hread))
      | some op =>
        cases op with
        | loop binding items body =>
          obtain ⟨_, hv, h⟩ := read?_eq_loop.1 hread
          exact absurd (Value.map.inj hv ▸ h) (hloop binding items body)
        | branch test body otherwise =>
          obtain ⟨_, hv, h⟩ := read?_eq_branch.1 hread
          exact absurd (Value.map.inj hv ▸ h) (hbranch test body otherwise)

end Operator

/-- A value at any depth of another, or that value itself. -/
inductive Within (w : Value) : Value → Prop
  | self : Within w w
  | item {items : List Value} {v : Value} (hv : v ∈ items) (h : Within w v) :
      Within w (.seq items)
  | entry {entries : Mapping} {e : String × Value} (he : e ∈ entries) (h : Within w e.2) :
      Within w (.map entries)

/-- What holds no operators holds none within. -/
theorem Within.plain {v w : Value} (h : Within w v) (hv : holdsOperators v = false) :
    holdsOperators w = false := by
  induction h with
  | self => exact hv
  | item hmem _ ih => exact ih (holdsOperators_seq_eq_false.1 hv _ hmem)
  | entry hmem _ ih => exact ih ((holdsOperators_map_eq_false.1 hv).2.2 _ hmem)

theorem plain_of_within {v : Value} (h : ∀ w, Within w v → Operator.read? w = .ok none) :
    holdsOperators v = false := by
  induction v using Operator.induction with
  | malformed v e hread => cases hread.symm.trans (h v .self)
  | loop v binding items body hread => cases hread.symm.trans (h v .self)
  | branch v test body otherwise hread => cases hread.symm.trans (h v .self)
  | seq items ih =>
    exact holdsOperators_seq_eq_false.2 fun v hv => ih v hv fun w hw => h w (.item hv hw)
  | map entries hread ih =>
    obtain ⟨hfor, hif⟩ := Operator.read?_map_eq_none.1 hread
    exact holdsOperators_map_eq_false.2
      ⟨hfor, hif, fun e he => ih e he fun w hw => h w (.entry he hw)⟩
  | _ => rfl

/-- Reading recognizes exactly the entries of a loop and of a branch, takes for plain what has
neither of their keys, and refuses everything else as malformed, with the fault that comes
first. The guard finds no operators in a value just when all that is within it is plain. -/
theorem operators_are_recognized (v : Value) :
    (∀ binding items body, Operator.read? v = .ok (some (.loop binding items body)) ↔
      ∃ entries, v = .map entries ∧ Operator.IsLoop entries binding items body) ∧
    (∀ test body otherwise, Operator.read? v = .ok (some (.branch test body otherwise)) ↔
      ∃ entries, v = .map entries ∧ Operator.IsBranch entries test body otherwise) ∧
    (Operator.read? v = .ok none ↔ ∀ entries, v = .map entries →
      "for" ∉ Mapping.keys entries ∧ "if" ∉ Mapping.keys entries) ∧
    ((∃ fault, Operator.read? v = .error (.malformed fault)) ↔ ∃ entries, v = .map entries ∧
      ("for" ∈ Mapping.keys entries ∨ "if" ∈ Mapping.keys entries) ∧
      (∀ binding items body, ¬Operator.IsLoop entries binding items body) ∧
      ∀ test body otherwise, ¬Operator.IsBranch entries test body otherwise) ∧
    (∀ e, Operator.read? v = .error e ↔ ∃ entries fault, v = .map entries ∧
      e = .malformed fault ∧ Operator.IsMalformed entries fault) ∧
    (holdsOperators v = false ↔ ∀ w, Within w v → Operator.read? w = .ok none) :=
  ⟨fun _ _ _ => Operator.read?_eq_loop, fun _ _ _ => Operator.read?_eq_branch,
    Operator.read?_eq_none, Operator.exists_malformed_iff, fun _ => Operator.read?_eq_error,
    fun hv _ hw => Operator.read?_of_plain (hw.plain hv), plain_of_within⟩

/-- The key `for` makes a loop of it, and a loop has no `if`, wherever that stands. -/
example : Operator.read? (.map [("do", .null), ("if", .bool true), ("for", .str "x")]) =
    .error (.malformed (.unexpectedKey "if" "for" ["for", "in", "do"])) := rfl

end WorkloadSpec
