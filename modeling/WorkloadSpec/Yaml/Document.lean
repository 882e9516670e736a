import WorkloadSpec.Yaml.Node

/-!
From tokens to the tree of the only document of a stream. Anchor names become
numbers: an anchor gets the number of distinct names bound before it, so one
that is bound again may share the number of another, and then the one that
begins later in the document counts for both. Each step of the grammar costs one
unit of fuel and every third step at least takes a token.
-/
namespace WorkloadSpec.Yaml

/-- What the tokens read so far have fixed. -/
structure Progress where
  tokens : List Token
  anchors : List (String × Nat) := []
  shorthands : List (String × TagText) := []

abbrev Grammar := StateT Progress Option

namespace Grammar

def peek : Grammar Token := return (← get).tokens.headD .streamEnd

def skip : Grammar Unit := modify fun p => { p with tokens := p.tokens.tail }

def bindAnchor (name : String) : Grammar Nat := do
  let anchors := (← get).anchors
  let id := anchors.length
  modify fun p => { p with anchors := (name, id) :: anchors.filter (·.1 != name) }
  pure id

/-- Full tags have no handle; a handle has to be declared or one of the usual two. -/
def resolveTag (handle : String) (suffix : TagText) : Grammar TagText := do
  if handle.isEmpty then pure suffix
  else
    match (← get).shorthands.lookup handle with
    | some expansion => pure (expansion ++ suffix)
    | none => failure

def anchor? : Grammar (Option Nat) := do
  match ← peek with
  | .anchor name => skip; some <$> bindAnchor name
  | _ => pure none

def tag? : Grammar (Option TagText) := do
  match ← peek with
  | .tag handle suffix => skip; some <$> resolveTag handle suffix
  | _ => pure none

/-- An anchor and a tag, in either order. -/
def properties : Grammar Properties := do
  match ← anchor? with
  | some id => pure { anchor := some id, tag := ← tag? }
  | none =>
    match ← tag? with
    | some tag => pure { tag := some tag, anchor := ← anchor? }
    | none => pure {}

/-- Where a node stands. The entries of a mapping in block style may be sequences
that are not indented. -/
inductive Place where
  | block
  | blockEntry
  | flow

def isBlockEnd : Token → Bool
  | .key | .value | .blockEnd => true
  | _ => false

/-- Properties alone make an empty scalar. -/
def absent (p : Properties) : Grammar Node :=
  if p.anchor.isNone && p.tag.isNone then failure else pure (.empty p)

/-- Takes the comma in front of every item but the first. -/
def comma (first : Bool) : Grammar Unit := do
  if !first then
    match ← peek with
    | .flowEntry => skip
    | _ => failure

mutual

def node : Nat → Place → Grammar Node
  | 0, _ => failure
  | fuel + 1, place => do
    if let .aliasTo name := ← peek then
      skip
      match (← get).anchors.lookup name with
      | some id => return .aliasTo id
      | none => failure
    let p ← properties
    match ← peek, place with
    | .blockEntry, .blockEntry => .seq p <$> looseItems fuel []
    | .scalar text plain, _ => skip; pure (.scalar p text plain)
    | .flowSequenceStart, _ => skip; .seq p <$> flowItems fuel []
    | .flowMappingStart, _ => skip; .map p <$> flowEntries fuel []
    | _, .flow => absent p
    | .blockSequenceStart, _ => skip; .seq p <$> blockItems fuel []
    | .blockMappingStart, _ => skip; .map p <$> blockEntries fuel []
    | _, _ => absent p

def blockItems : Nat → List Node → Grammar (List Node)
  | 0, _ => failure
  | fuel + 1, items => do
    match ← peek with
    | .blockEntry =>
      skip
      let item ←
        match ← peek with
        | .blockEntry | .blockEnd => pure (.empty {})
        | _ => node fuel .block
      blockItems fuel (item :: items)
    | .blockEnd => skip; pure items.reverse
    | _ => failure

/-- The items of a sequence that ends where the mapping around it goes on. -/
def looseItems : Nat → List Node → Grammar (List Node)
  | 0, _ => failure
  | fuel + 1, items => do
    match ← peek with
    | .blockEntry =>
      skip
      let item ←
        match ← peek with
        | .blockEntry => pure (.empty {})
        | t => if isBlockEnd t then pure (.empty {}) else node fuel .block
      looseItems fuel (item :: items)
    | _ => pure items.reverse

def blockEntries : Nat → List (Node × Node) → Grammar (List (Node × Node))
  | 0, _ => failure
  | fuel + 1, entries => do
    match ← peek with
    | .key =>
      skip
      let key ← blockPart fuel
      let value ←
        match ← peek with
        | .value => skip; blockPart fuel
        | _ => pure (.empty {})
      blockEntries fuel ((key, value) :: entries)
    | .blockEnd => skip; pure entries.reverse
    | _ => failure

/-- A key or a value of a block mapping, which may be left out. -/
def blockPart : Nat → Grammar Node
  | 0 => failure
  | fuel + 1 => do
    if isBlockEnd (← peek) then pure (.empty {}) else node fuel .blockEntry

def flowItems : Nat → List Node → Grammar (List Node)
  | 0, _ => failure
  | fuel + 1, items => do
    if let .flowSequenceEnd := ← peek then
      skip
      return items.reverse
    comma items.isEmpty
    match ← peek with
    | .flowSequenceEnd => skip; pure items.reverse
    | .key =>
      skip
      let entry ← singleEntry fuel
      flowItems fuel (.map {} [entry] :: items)
    | _ =>
      let item ← node fuel .flow
      flowItems fuel (item :: items)

/-- The entry of a mapping without braces. A token that cannot begin its key is
passed over. -/
def singleEntry : Nat → Grammar (Node × Node)
  | 0 => failure
  | fuel + 1 => do
    let key ←
      match ← peek with
      | .value | .flowEntry | .flowSequenceEnd => skip; pure (.empty {})
      | _ => node fuel .flow
    let value ← flowValue fuel .flowSequenceEnd
    pure (key, value)

/-- The value after a key in brackets, which may be left out. -/
def flowValue : Nat → Token → Grammar Node
  | 0, _ => failure
  | fuel + 1, closing => do
    if .value ≠ (← peek) then return .empty {}
    skip
    let t ← peek
    if t = .flowEntry ∨ t = closing then pure (.empty {}) else node fuel .flow

def flowEntries : Nat → List (Node × Node) → Grammar (List (Node × Node))
  | 0, _ => failure
  | fuel + 1, entries => do
    if let .flowMappingEnd := ← peek then
      skip
      return entries.reverse
    comma entries.isEmpty
    match ← peek with
    | .flowMappingEnd => skip; pure entries.reverse
    | .key =>
      skip
      let key ←
        match ← peek with
        | .value | .flowEntry | .flowMappingEnd => pure (.empty {})
        | _ => node fuel .flow
      let value ← flowValue fuel .flowMappingEnd
      flowEntries fuel ((key, value) :: entries)
    | _ =>
      let key ← node fuel .flow
      flowEntries fuel ((key, .empty {}) :: entries)

end

/-- The directives in front of a document. A version may be given once, a handle
may be declared once. -/
def directives : Nat → Bool → Grammar Unit
  | 0, _ => failure
  | fuel + 1, versioned => do
    match ← peek with
    | .version major minor =>
      if versioned ∨ major ≠ 1 ∨ (minor ≠ 1 ∧ minor ≠ 2) then failure
      skip
      directives fuel true
    | .tagShorthand handle expansion =>
      if ((← get).shorthands.lookup handle).isSome then failure
      skip
      modify fun p => { p with shorthands := (handle, expansion) :: p.shorthands }
      directives fuel versioned
    | _ => pure ()

/-- Handles that need no declaration; a declared one comes first. -/
def usualShorthands : List (String × TagText) :=
  [("!", ['!'.toNat.toUInt8]), ("!!", "tag:yaml.org,2002:".toList.map (·.toNat.toUInt8))]

def withUsualShorthands : Grammar Unit :=
  modify fun p => { p with shorthands := p.shorthands ++ usualShorthands }

def skipDocumentEnds : Nat → Grammar Unit
  | 0 => failure
  | fuel + 1 => do
    if let .documentEnd := ← peek then
      skip
      skipDocumentEnds fuel

/-- The root node, or nothing for a stream without a document. -/
def document (fuel : Nat) : Grammar (Option Node) := do
  let explicit :=
    match ← peek with
    | .version _ _ | .tagShorthand _ _ | .documentStart => true
    | _ => false
  if explicit then
    directives fuel false
    let .documentStart ← peek | failure
    skip
    withUsualShorthands
    match ← peek with
    | .version _ _ | .tagShorthand _ _ | .documentStart | .documentEnd | .streamEnd =>
      pure (some (.empty {}))
    | _ => some <$> node fuel .block
  else
    withUsualShorthands
    match ← peek with
    | .streamEnd => pure none
    | _ => some <$> node fuel .block

end Grammar

/-- The document of a stream of tokens, which may not hold a second one. -/
def document? (tokens : List Token) : Option (Option Node) := do
  let fuel := 4 * tokens.length + 4
  let (root, p) ← (Grammar.document fuel).run { tokens }
  let (_, p) ← (Grammar.skipDocumentEnds fuel).run p
  match p.tokens with
  | [] | [.streamEnd] => pure root
  | _ => failure

end WorkloadSpec.Yaml
