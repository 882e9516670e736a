import WorkloadSpec.Yaml.Cursor

/-!
Indented text after a block indicator. A header says how line breaks at the end
are chomped and may fix the indentation, which otherwise is that of the deepest
of the leading blank lines and the first line of text. Literal text keeps its
lines; folded text joins two lines unless one of them starts with a blank.
-/
namespace WorkloadSpec.Yaml

inductive Chomping where
  | strip
  | clip
  | keep

structure BlockHeader where
  chomping : Chomping := .clip
  /-- Indentation beyond that of the surrounding block. -/
  increment : Option Nat := none

namespace BlockHeader

def chomping? (c : Char) : Option Chomping :=
  if c = '+' then some .keep else if c = '-' then some .strip else none

def readIncrement (h : BlockHeader) (c : Cursor) : Option (BlockHeader × Cursor) :=
  match c.rest with
  | d :: _ =>
    if d = '0' then none
    else if d.isDigit then some ({ h with increment := some (d.toNat - '0'.toNat) }, c.skip 1)
    else some (h, c)
  | [] => some (h, c)

/-- A chomping mark and an increment, in either order, then the end of the line. -/
def read? (c : Cursor) : Option (BlockHeader × Cursor) := do
  let (h, c) ←
    match c.rest.head?.bind chomping? with
    | some chomping => readIncrement { chomping } (c.skip 1)
    | none => do
      let (h, c') ← readIncrement {} c
      match h.increment, c'.rest.head?.bind chomping? with
      | some _, some chomping => pure ({ h with chomping }, c'.skip 1)
      | _, _ => pure (h, c')
  let c ← c.endOfLine?
  pure (h, c)

end BlockHeader

/-- Blank lines, with the greatest column reached. Without an indentation every
leading space belongs to it. -/
def blankLines (indent : Option Nat) :
    Nat → Cursor → List Char → Nat → Option (List Char × Nat × Cursor)
  | 0, c, breaks, deepest => some (breaks, deepest, c)
  | fuel + 1, c, breaks, deepest =>
    let margin := (c.rest.takeWhile (· == ' ')).length
    let c := c.skip (match indent with
      | some n => min margin (n - c.column)
      | none => margin)
    let deepest := max deepest c.column
    if c.rest.head? = some '\t' ∧ indent.all (c.column < ·) then none
    else
      match c.lineBreak? with
      | some (b, c) => blankLines indent fuel c (breaks ++ [b]) deepest
      | none => some (breaks, deepest, c)

structure BlockState where
  text : List Char := []
  /-- The line break after the last line, not yet written. -/
  lastBreak : List Char := []
  blankBreaks : List Char := []
  startedBlank : Bool := false

/-- The lines of text at the given indentation. -/
def blockLines (literal : Bool) (indent : Nat) :
    Nat → Cursor → BlockState → Option (BlockState × Cursor)
  | 0, c, s => some (s, c)
  | fuel + 1, c, s =>
    if c.column ≠ indent ∨ c.rest.isEmpty then some (s, c)
    else
      let startsBlank := c.rest.head?.any isSpaceOrTab
      let folds := !literal && s.lastBreak == ['\n'] && !s.startedBlank && !startsBlank
      let joint :=
        if folds then if s.blankBreaks.isEmpty then [' '] else [] else s.lastBreak
      let (line, c) := c.span fun x => !isBreak x
      let (lastBreak, c) :=
        match c.lineBreak? with
        | some (b, c) => ([b], c)
        | none => ([], c)
      match blankLines (some indent) (c.rest.length + 1) c [] 0 with
      | none => none
      | some (blankBreaks, _, c) =>
        blockLines literal indent fuel c
          { text := s.text ++ joint ++ s.blankBreaks ++ line, lastBreak, blankBreaks,
            startedBlank := startsBlank }

/-- A block text whose indicator is read, inside a block at column `outer`, which is
-1 for the whole document. -/
def block? (literal : Bool) (outer : Int) (c : Cursor) : Option (List Char × Cursor) := do
  let (h, c) ← BlockHeader.read? c
  let fixed := h.increment.map fun n => (max outer 0).toNat + n
  let (breaks, deepest, c) ← blankLines fixed (c.rest.length + 1) c [] 0
  let indent := fixed.getD (max deepest (max (outer + 1).toNat 1))
  let (s, c) ← blockLines literal indent (c.rest.length + 1) c { blankBreaks := breaks }
  let ending :=
    match h.chomping with
    | .strip => []
    | .clip => s.lastBreak
    | .keep => s.lastBreak ++ s.blankBreaks
  pure (s.text ++ ending, c)

end WorkloadSpec.Yaml
