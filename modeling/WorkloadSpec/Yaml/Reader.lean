import WorkloadSpec.Yaml.Document
import WorkloadSpec.Yaml.Lexer
import WorkloadSpec.Yaml.Scalar
import WorkloadSpec.Value.Mapping

/-!
Values read from YAML text. Keys are the scalar as it is written. The four core
tags decide how their scalar is read, a local tag is refused, and any other tag
makes a scalar text. Nesting and the following of aliases are bounded, so a
small text cannot stand for a huge document.
-/
namespace WorkloadSpec.Yaml

def nestingLimit : Nat := 128

/-- The anchored nodes of a document, and how many aliases may be followed. -/
structure Anchors where
  nodes : List (Nat × Node)
  jumpLimit : Nat

namespace Anchors

/-- Of nodes that share a number the one that begins last counts. -/
def ofRoot (root : Node) : Anchors :=
  { nodes := root.anchored.reverse, jumpLimit := 100 * root.marks }

/-- The node an alias stands for. The state counts the aliases followed so far. -/
def follow (anchors : Anchors) (n : Node) : StateT Nat Option Node :=
  match n with
  | .aliasTo id => do
    let jumps := (← get) + 1
    if anchors.jumpLimit < jumps then failure
    set jumps
    match anchors.nodes.lookup id with
    | some n => pure n
    | none => failure
  | n => pure n

end Anchors

inductive CoreTag where
  | bool
  | int
  | float
  | null

/-- How a tag bears on its node. -/
inductive TagEffect where
  | none
  | core (tag : CoreTag)
  | text
  | refused

def octets (s : String) : TagText := s.toUTF8.toList

/-- A local tag that is not well-formed text is passed over. -/
def TagEffect.ofTag : Option TagText → TagEffect
  | Option.none => none
  | some tag =>
    if tag = octets "tag:yaml.org,2002:bool" then core .bool
    else if tag = octets "tag:yaml.org,2002:int" then core .int
    else if tag = octets "tag:yaml.org,2002:float" then core .float
    else if tag = octets "tag:yaml.org,2002:null" then core .null
    else if tag.head? = some '!'.toNat.toUInt8 then
      if (String.fromUTF8? ⟨tag.tail.toArray⟩).isSome then refused else none
    else text

def scalarValue? (tag : Option TagText) (text : String) (plain : Bool) : Option Value :=
  match TagEffect.ofTag tag with
  | .refused => none
  | .core .bool => (PlainScalar.bool? text).map Value.bool
  | .core .int => (PlainScalar.int? text.toList).bind Value.ofInt?
  | .core .float => (PlainScalar.float? text).map floatValue
  | .core .null => if PlainScalar.null? text then some .null else none
  | .text => some (.str text)
  | .none => if plain then plainValue? text else some (.str text)

def collectionAllowed (tag : Option TagText) : Bool :=
  match TagEffect.ofTag tag with
  | .refused => false
  | _ => true

def keyText (anchors : Anchors) (n : Node) : StateT Nat Option String := do
  match ← anchors.follow n with
  | .scalar _ text _ => pure text
  | _ => failure

/-- The value of a node with room for so many levels of collections. -/
def value (anchors : Anchors) : Nat → Node → StateT Nat Option Value
  | 0, n => do
    match ← anchors.follow n with
    | .scalar p text plain => liftM (scalarValue? p.tag text plain)
    | _ => failure
  | room + 1, n => do
    match ← anchors.follow n with
    | .scalar p text plain => liftM (scalarValue? p.tag text plain)
    | .seq p items =>
      if !collectionAllowed p.tag then failure
      .seq <$> items.mapM fun item => value anchors room item
    | .map p entries =>
      if !collectionAllowed p.tag then failure
      let entries ← entries.mapM fun (k, v) => do
        let key ← keyText anchors k
        pure (key, ← value anchors room v)
      pure (.map (Mapping.ofEntries entries))
    | .aliasTo _ => failure

/-- A stream without a document reads as null. -/
def parse? (text : String) : Option Value := do
  match ← document? (← tokens? text) with
  | none => pure .null
  | some root =>
    let (v, _) ← (value (Anchors.ofRoot root) nestingLimit root).run 0
    pure v

end WorkloadSpec.Yaml
