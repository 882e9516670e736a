import WorkloadSpec.Kind
import WorkloadSpec.Number.Numeral
import WorkloadSpec.Operator.Error
import WorkloadSpec.Operator.Form
import WorkloadSpec.Text.Blank

/-!
References to data: names joined by dots. The first name is looked for in the
loop bindings, innermost first, then in the declarations, then among the
sections; the others lead into mappings by key and into sequences by index.
-/
namespace WorkloadSpec

structure Reference where
  head : String
  path : List String
  deriving DecidableEq

namespace Reference

/-- The pieces between dots. -/
def splitDots : List Char → List (List Char)
  | [] => [[]]
  | c :: cs =>
    match splitDots cs with
    | [] => [[c]]
    | piece :: pieces => if c = '.' then [] :: piece :: pieces else (c :: piece) :: pieces

def ofList? (cs : List Char) : Option Reference :=
  match splitDots cs with
  | [] => none
  | head :: path =>
    if isBinding head ∧ path.all isWord then
      some ⟨String.ofList head, path.map String.ofList⟩
    else none

def ofString? (s : String) : Option Reference := ofList? s.toList

/-- What a condition or iterable refers to, with or without the marks around it. -/
def bare (s : String) : String :=
  let cs := Text.trimList s.toList
  match cs with
  | '\x7b' :: '\x7b' :: rest =>
    if ['\x7d', '\x7d'].isSuffixOf rest then
      String.ofList (Text.trimList (rest.take (rest.length - 2)))
    else String.ofList cs
  | _ => String.ofList cs

/-- One step into a value. -/
def enter? (v : Value) (name : String) : Option Value :=
  match v with
  | .map entries => entries.lookup name
  | .seq items => (Numeral.natural? 10 name.toList).bind fun i => items[i]?
  | _ => none

end Reference

/-- Loop bindings, innermost first. -/
abbrev Scope := List (String × Value)

/-- What a name stands for. -/
def root? (document : Mapping) (scope : Scope) (name : String) : Option Value :=
  scope.lookup name <|>
    (document.lookup Section.declarations.key).bind (Reference.enter? · name) <|>
      document.lookup name

namespace Reference

def find? (document : Mapping) (scope : Scope) (r : Reference) : Option Value :=
  r.path.foldlM enter? =<< root? document scope r.head

end Reference

/-- The data a reference points at. -/
def resolveReference (document : Mapping) (scope : Scope) (text : String) :
    Except OperatorError Value :=
  match Reference.ofString? text with
  | none => .error (.reference text .invalid)
  | some r =>
    match r.find? document scope with
    | none => .error (.reference text .unresolved)
    | some v =>
      if holdsOperators v then .error (.reference text .holdsOperators) else .ok v

end WorkloadSpec
