import WorkloadSpec.Yaml.Cursor
import WorkloadSpec.Number.Numeral

/-!
Text written without a block indicator: plain or between quotes. Such text may
go over several lines; a single line break inside it reads as a space and
further ones are kept. `Gap` is what stands between two words.
-/
namespace WorkloadSpec.Yaml

structure Gap where
  /-- Blanks of a gap that does not break the line. -/
  blanks : List Char := []
  broken : Bool := false
  /-- The first line break, unless it is escaped. -/
  firstBreak : Option Char := none
  moreBreaks : List Char := []

namespace Gap

def text (g : Gap) : List Char :=
  if g.broken then
    match g.firstBreak with
    | some '\n' => if g.moreBreaks.isEmpty then [' '] else g.moreBreaks
    | some b => b :: g.moreBreaks
    | none => g.moreBreaks
  else g.blanks

/-- Reads blanks and line breaks. A tab left of `indent` on a new line is refused. -/
def read (indent : Nat) : Nat → Cursor → Gap → Option (Cursor × Gap)
  | 0, c, g => some (c, g)
  | fuel + 1, c, g =>
    match c.rest with
    | [] => some (c, g)
    | x :: _ =>
      if isSpaceOrTab x then
        if g.broken then
          if x = '\t' ∧ c.column < indent then none else read indent fuel (c.skip 1) g
        else read indent fuel (c.skip 1) { g with blanks := g.blanks ++ [x] }
      else
        match c.lineBreak? with
        | some (b, c) =>
          if g.broken then read indent fuel c { g with moreBreaks := g.moreBreaks ++ [b] }
          else read indent fuel c { broken := true, firstBreak := some b }
        | none => some (c, g)

end Gap

def endsFlowWord (c : Char) : Bool :=
  c == ',' || c == '[' || c == ']' || c == '\x7b' || c == '\x7d'

/-- The characters of a plain text up to a gap, a colon before a gap or, inside
brackets, an indicator. Inside brackets a colon may not touch an indicator. -/
def plainRun? (inFlow : Bool) : List Char → Option (List Char)
  | [] => some []
  | c :: rest =>
    if isSpaceOrTab c || isBreak c then some []
    else if inFlow && c == ':' && (rest.head?.any fun d => endsFlowWord d || d == '?') then none
    else if (c == ':' && atGap rest) || (inFlow && endsFlowWord c) then some []
    else (plainRun? inFlow rest).map (c :: ·)

/-- A plain text; the flag says that it ended at the start of a line. -/
def plainFrom (inFlow : Bool) (indent : Nat) :
    Nat → Cursor → List Char → Gap → Option (List Char × Bool × Cursor)
  | 0, c, text, g => some (text, g.broken, c)
  | fuel + 1, c, text, g =>
    if c.atDocumentMark || c.rest.head? = some '#' then some (text, g.broken, c)
    else
      match plainRun? inFlow c.rest with
      | none => none
      | some run =>
        let (text, g) := if run.isEmpty then (text, g) else (text ++ g.text ++ run, {})
        let c := c.skip run.length
        if c.rest.isEmpty || !atGap c.rest then some (text, g.broken, c)
        else
          match g.read indent (c.rest.length + 1) c with
          | none => none
          | some (c, g) =>
            if !inFlow && c.column < indent then some (text, g.broken, c)
            else plainFrom inFlow indent fuel c text g

def plain? (inFlow : Bool) (indent : Nat) (c : Cursor) : Option (List Char × Bool × Cursor) :=
  plainFrom inFlow indent (c.rest.length + 1) c [] {}

/-- What a single character after a backslash stands for. -/
def shortEscape? (c : Char) : Option Char :=
  [('0', 0x0), ('a', 0x7), ('b', 0x8), ('t', 0x9), ('\t', 0x9), ('n', 0xA), ('v', 0xB), ('f', 0xC),
    ('r', 0xD), ('e', 0x1B), (' ', 0x20), ('"', 0x22), ('/', 0x2F), ('\\', 0x5C), ('N', 0x85),
    ('_', 0xA0), ('L', 0x2028), ('P', 0x2029)].lookup c |>.map Char.ofNat

/-- How many hexadecimal digits follow an escape by code point. -/
def escapeWidth? (c : Char) : Option Nat :=
  [('x', 2), ('u', 4), ('U', 8)].lookup c

/-- The character of an escape whose backslash is read, and the length of the rest. -/
def escape? : List Char → Option (Char × Nat)
  | [] => none
  | c :: rest =>
    match escapeWidth? c with
    | none => (shortEscape? c).map fun x => (x, 1)
    | some width =>
      if rest.length < width then none
      else
        match Numeral.natural? 16 (rest.take width) with
        | some n => if n.isValidChar then some (Char.ofNat n, width + 1) else none
        | none => none

/-- The text up to the closing quote, collected in reverse. -/
def quotedFrom (quote : Char) : Nat → Cursor → List Char → Option (List Char × Cursor)
  | 0, _, _ => none
  | fuel + 1, c, text =>
    if c.atDocumentMark then none
    else
      match c.rest with
      | [] => none
      | x :: rest =>
        if x = quote then
          if quote = '\'' ∧ rest.head? = some '\'' then
            quotedFrom quote fuel (c.skip 2) ('\'' :: text)
          else some (text.reverse, c.skip 1)
        else if quote = '"' ∧ x = '\\' then
          match (c.skip 1).lineBreak? with
          | some (_, c) =>
            match Gap.read 0 (c.rest.length + 1) c { broken := true } with
            | some (c, g) => quotedFrom quote fuel c (g.text.reverse ++ text)
            | none => none
          | none =>
            match escape? rest with
            | some (y, length) => quotedFrom quote fuel (c.skip (length + 1)) (y :: text)
            | none => none
        else if isSpaceOrTab x || isBreak x then
          match Gap.read 0 (c.rest.length + 1) c {} with
          | some (c, g) => quotedFrom quote fuel c (g.text.reverse ++ text)
          | none => none
        else quotedFrom quote fuel (c.skip 1) (x :: text)

/-- A quoted text whose opening quote is read. -/
def quoted? (quote : Char) (c : Cursor) : Option (List Char × Cursor) :=
  quotedFrom quote (c.rest.length + 1) c []

end WorkloadSpec.Yaml
