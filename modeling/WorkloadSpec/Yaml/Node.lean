import WorkloadSpec.Yaml.Token

/-!
The tree of a YAML document before its scalars get values. An alias refers to an
anchor by number; anchors and tags stay with their nodes.
-/
namespace WorkloadSpec.Yaml

structure Properties where
  anchor : Option Nat := none
  tag : Option TagText := none

inductive Node where
  | aliasTo (anchor : Nat)
  | scalar (properties : Properties) (text : String) (plain : Bool)
  | seq (properties : Properties) (items : List Node)
  | map (properties : Properties) (entries : List (Node × Node))

namespace Node

/-- A node that is left out. -/
def empty (properties : Properties) : Node := scalar properties "" true

mutual

/-- How many marks a node takes in the stream: one for a leaf, two more than its
children for a collection. -/
def marks : Node → Nat
  | aliasTo _ => 1
  | scalar _ _ _ => 1
  | seq _ items => 2 + marksOfItems items
  | map _ entries => 2 + marksOfEntries entries

def marksOfItems : List Node → Nat
  | [] => 0
  | n :: ns => marks n + marksOfItems ns

def marksOfEntries : List (Node × Node) → Nat
  | [] => 0
  | (k, v) :: es => marks k + marks v + marksOfEntries es

end

def ofAnchor (p : Properties) (n : Node) : List (Nat × Node) :=
  (p.anchor.map fun id => (id, n)).toList

mutual

/-- The anchored nodes, in the order in which they begin. -/
def anchored : Node → List (Nat × Node)
  | aliasTo _ => []
  | scalar p text plain => ofAnchor p (scalar p text plain)
  | seq p items => ofAnchor p (seq p items) ++ anchoredItems items
  | map p entries => ofAnchor p (map p entries) ++ anchoredEntries entries

def anchoredItems : List Node → List (Nat × Node)
  | [] => []
  | n :: ns => anchored n ++ anchoredItems ns

def anchoredEntries : List (Node × Node) → List (Nat × Node)
  | [] => []
  | (k, v) :: es => anchored k ++ anchored v ++ anchoredEntries es

end

end Node

end WorkloadSpec.Yaml
