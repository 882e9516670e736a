import WorkloadSpec.Operator.Reference

/-!
Texts with markers. A marker is a reference between double braces, with ASCII
blanks around it allowed; a text splits into literal pieces with markers between
them, the leftmost marker first. A literal piece must not hold double braces of
its own. A text that is nothing but a marker stands for the data itself, any
other text takes the data as text, which is not looked at again.
-/
namespace WorkloadSpec

/-- A text as a literal piece, then markers, each with the literal after it. -/
structure Template where
  lead : List Char
  markers : List (String × List Char)

namespace Template

/-- The reference and the length of a marker at the front of a text. -/
def marker? : List Char → Option (String × Nat)
  | '\x7b' :: '\x7b' :: cs =>
    let before := cs.takeWhile Text.isAsciiBlank
    let cs := cs.dropWhile Text.isAsciiBlank
    let word := cs.takeWhile fun c => isWordChar c || c == '.'
    let cs := cs.dropWhile fun c => isWordChar c || c == '.'
    let after := cs.takeWhile Text.isAsciiBlank
    match cs.dropWhile Text.isAsciiBlank with
    | '\x7d' :: '\x7d' :: _ =>
      (Reference.ofList? word).map fun _ =>
        (String.ofList word, before.length + word.length + after.length + 4)
    | _ => none
  | _ => none

/-- Splits a text whose first `skip` characters belong to a marker already read. -/
def split : Nat → List Char → Template
  | _, [] => ⟨[], []⟩
  | skip + 1, _ :: cs => split skip cs
  | 0, c :: cs =>
    match marker? (c :: cs) with
    | some (reference, length) =>
      let t := split (length - 1) cs
      ⟨[], (reference, t.lead) :: t.markers⟩
    | none =>
      let t := split 0 cs
      ⟨c :: t.lead, t.markers⟩

def ofString (s : String) : Template := split 0 s.toList

/-- From double braces to the ones that close them, or to the end. -/
def toClosing : List Char → List Char
  | '\x7d' :: '\x7d' :: _ => ['\x7d', '\x7d']
  | c :: cs => c :: toClosing cs
  | [] => []

/-- Double braces in a literal piece, as far as they would be a marker. -/
def stray? : List Char → Option (List Char)
  | '\x7b' :: '\x7b' :: cs => some ('\x7b' :: '\x7b' :: toClosing cs)
  | _ :: cs => stray? cs
  | [] => none

def literal (cs : List Char) : Except OperatorError String :=
  match stray? cs with
  | some marker => .error (.reference (String.ofList marker) .invalid)
  | none => .ok (String.ofList cs)

/-- Data as it stands in a text. -/
def dataText : Value → String
  | .str s => s
  | v => Json.compact v

/-- The reference of a text that is one marker and blanks. -/
def whole? (t : Template) : Option String :=
  match t.markers with
  | [(reference, last)] =>
    if t.lead.all Text.isAsciiBlank ∧ last.all Text.isAsciiBlank then some reference else none
  | _ => none

def fill (document : Mapping) (scope : Scope) :
    List (String × List Char) → Except OperatorError String
  | [] => .ok ""
  | (reference, after) :: markers => do
    let v ← resolveReference document scope reference
    let after ← literal after
    let rest ← fill document scope markers
    pure (dataText v ++ after ++ rest)

def render (document : Mapping) (scope : Scope) (t : Template) : Except OperatorError Value :=
  match t.whole? with
  | some reference => resolveReference document scope reference
  | none => do
    let lead ← literal t.lead
    let rest ← fill document scope t.markers
    pure (.str (lead ++ rest))

end Template

end WorkloadSpec
