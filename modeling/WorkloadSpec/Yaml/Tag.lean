import WorkloadSpec.Yaml.Cursor
import WorkloadSpec.Yaml.Token
import WorkloadSpec.Number.Numeral

/-!
Tags, anchors and directives. A tag is a handle and a suffix, or complete
between angle brackets; its percent escapes have to spell well-formed octet
sequences, and a zero octet among them ends it.
-/
namespace WorkloadSpec.Yaml

def isTagChar (c : Char) : Bool := isWordChar c || ";/?:@&=+$.%!~*'()".toList.contains c

/-- Inside angle brackets and in directives three more indicators may stand. -/
def isTagCharVerbatim (c : Char) : Bool := isTagChar c || c == ',' || c == '[' || c == ']'

/-- How many octets a character takes whose first one is given. -/
def octetWidth? (octet : Nat) : Option Nat :=
  if octet < 0x80 then some 1
  else if octet / 0x20 = 6 then some 2
  else if octet / 0x10 = 14 then some 3
  else if octet / 0x08 = 30 then some 4
  else none

/-- Octets of a tag. `pending` is how many trailing octets an escaped character lacks. -/
def tagOctets? : Nat → List Char → Option TagText
  | pending, '%' :: a :: b :: rest =>
    match Numeral.natural? 16 [a, b] with
    | none => none
    | some octet =>
      let pending? :=
        if pending = 0 then (octetWidth? octet).map (· - 1)
        else if octet / 0x40 = 2 then some (pending - 1)
        else none
      match pending? with
      | some pending => (tagOctets? pending rest).map (octet.toUInt8 :: ·)
      | none => none
  | _, '%' :: _ => none
  | 0, c :: rest => (tagOctets? 0 rest).map (c.toNat.toUInt8 :: ·)
  | _ + 1, _ => none
  | 0, [] => some []

/-- What counts of a tag: the octets before the first zero octet. -/
def tagText (octets : TagText) : TagText := octets.takeWhile (· != 0)

/-- The octets of a run of tag characters. -/
def tagRun? (verbatim : Bool) (c : Cursor) : Option (TagText × Cursor) :=
  let (run, c) := c.span (if verbatim then isTagCharVerbatim else isTagChar)
  (tagOctets? 0 run).map fun octets => (octets, c)

/-- A handle: an exclamation mark, word characters, perhaps a second mark. -/
def tagHandle (c : Cursor) : String × Cursor :=
  let (word, c) := (c.skip 1).span isWordChar
  if c.rest.head? = some '!' then (String.ofList ('!' :: word ++ ['!']), c.skip 1)
  else (String.ofList ('!' :: word), c)

def isHandle (handle : String) : Bool := 1 < handle.length && handle.endsWith "!"

/-- A tag whose exclamation mark is at the cursor. -/
def tag? (inFlow : Bool) (c : Cursor) : Option (Token × Cursor) := do
  let (token, c) ←
    match c.rest with
    | '!' :: '<' :: _ => do
      let (octets, c) ← tagRun? true (c.skip 2)
      if octets.isEmpty ∨ c.rest.head? ≠ some '>' then none
      pure (Token.tag "" (tagText octets), c.skip 1)
    | _ => do
      let (handle, c) := tagHandle c
      let (octets, c) ← tagRun? false c
      if isHandle handle then
        if octets.isEmpty then none
        pure (Token.tag handle (tagText octets), c)
      else
        let suffix := tagText (handle.toList.tail.map (·.toNat.toUInt8) ++ octets)
        if suffix.isEmpty then pure (Token.tag "" ['!'.toNat.toUInt8], c)
        else pure (Token.tag "!" suffix, c)
  if atGap c.rest ∨ (inFlow = true ∧ c.rest.head? = some ',') then some (token, c) else none

/-- The name after an anchor or alias mark, and what may touch it. -/
def anchorName? (c : Cursor) : Option (String × Cursor) :=
  let (name, c) := c.span isWordChar
  let closed := atGap c.rest || c.rest.head?.any ("?:,]\x7d%@`".toList.contains ·)
  if name.isEmpty || !closed then none else some (String.ofList name, c)

def versionNumber? (c : Cursor) : Option (Nat × Cursor) :=
  let (digits, c) := c.span Char.isDigit
  if 9 < digits.length then none else (Numeral.natural? 10 digits).map fun n => (n, c)

/-- A directive line whose percent sign is at the cursor. -/
def directive? (c : Cursor) : Option (Token × Cursor) := do
  let (name, c) := (c.skip 1).span isWordChar
  if name.isEmpty ∨ ¬ atGap c.rest then none
  let c := c.skipWhile isSpaceOrTab
  let (token, c) ←
    if name = "YAML".toList then do
      let (major, c) ← versionNumber? c
      if c.rest.head? ≠ some '.' then none
      let (minor, c) ← versionNumber? (c.skip 1)
      pure (Token.version major minor, c)
    else if name = "TAG".toList then do
      if c.rest.head? ≠ some '!' then none
      let (handle, c) := tagHandle c
      if handle ≠ "!" ∧ ¬ isHandle handle then none
      if ¬ c.rest.head?.any isSpaceOrTab then none
      let (octets, c) ← tagRun? true (c.skipWhile isSpaceOrTab)
      if octets.isEmpty ∨ ¬ atGap c.rest then none
      pure (Token.tagShorthand handle (tagText octets), c)
    else none
  let c ← c.endOfLine?
  pure (token, c)

end WorkloadSpec.Yaml
