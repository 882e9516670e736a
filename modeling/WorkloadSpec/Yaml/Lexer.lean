import WorkloadSpec.Yaml.Tag
import WorkloadSpec.Yaml.FlowText
import WorkloadSpec.Yaml.BlockText

/-!
From YAML text to tokens. The lexer keeps the columns of the open blocks and, for
every bracket level, the place where a key may have begun: when a colon follows
on the same line within 1024 octets, a key token is put in at that place.
-/
namespace WorkloadSpec.Yaml

/-- A node that may turn out to be a key. It has to be one when it stands at the
column of its block. -/
structure PendingKey where
  required : Bool
  token : Nat
  offset : Nat
  line : Nat
  column : Nat

/-- How many octets a key may take together with what stands before its colon. -/
def keyLimit : Nat := 1024

structure Lexer where
  cursor : Cursor
  tokens : Array Token
  /-- The column of the innermost block, -1 outside of all. -/
  indent : Int
  outerIndents : List Int
  pending : Option PendingKey
  /-- Pending keys outside of the open brackets, one for each bracket. -/
  outerPending : List (Option PendingKey)
  keyAllowed : Bool

namespace Lexer

def start (cs : List Char) : Lexer :=
  { cursor := .start cs, tokens := #[], indent := -1, outerIndents := [], pending := none,
    outerPending := [], keyAllowed := true }

def inFlow (l : Lexer) : Bool := !l.outerPending.isEmpty

def emit (l : Lexer) (t : Token) : Lexer := { l with tokens := l.tokens.push t }

/-- Skips spaces, comments and line breaks. Tabs count as space where no key can
begin. A line break lets a key begin, outside of brackets. -/
def skipGap : Nat → Lexer → Lexer
  | 0, l => l
  | fuel + 1, l =>
    let c := l.cursor
    let c := if c.column = 0 ∧ c.rest.head? = some '\uFEFF' then c.skip 1 else c
    let tabs := l.inFlow || !l.keyAllowed
    let c := c.skipWhile fun x => x == ' ' || (tabs && x == '\t')
    let c := if c.rest.head? = some '#' then c.skipWhile fun x => !isBreak x else c
    match c.lineBreak? with
    | some (_, c) => skipGap fuel { l with cursor := c, keyAllowed := !l.inFlow || l.keyAllowed }
    | none => { l with cursor := c }

/-- Closes the blocks to the right of a column. -/
def closeBlocks (l : Lexer) (column : Int) : Lexer :=
  if l.inFlow then l
  else
    let (closed, remaining) := (l.indent :: l.outerIndents).span (column < ·)
    match remaining with
    | [] => l
    | indent :: outerIndents =>
      { l with tokens := l.tokens ++ closed.map fun _ => Token.blockEnd, indent, outerIndents }

/-- Opens a block at a column to the right of the current one. -/
def openBlock (l : Lexer) (column : Nat) (place? : Option Nat) (t : Token) : Lexer :=
  if l.inFlow ∨ (column : Int) ≤ l.indent then l
  else
    { l with
      indent := column
      outerIndents := l.indent :: l.outerIndents
      tokens := (match place? with
        | some place => l.tokens.insertIdxIfInBounds place t
        | none => l.tokens.push t) }

/-- Gives up the pending key, which must not be a required one. -/
def dropKey? (l : Lexer) : Option Lexer :=
  if l.pending.any (·.required) then none else some { l with pending := none }

/-- Notes that the next token may begin a key. -/
def saveKey? (l : Lexer) : Option Lexer :=
  if l.keyAllowed then do
    let l ← l.dropKey?
    let c := l.cursor
    pure { l with
      pending := some
        { required := !l.inFlow && l.indent == c.column
          token := l.tokens.size
          offset := c.offset
          line := c.line
          column := c.column } }
  else some l

/-- The pending key, if it may still be one; it is an error to lose a required key. -/
def liveKey? (l : Lexer) : Option (Option PendingKey) :=
  match l.pending with
  | none => some none
  | some k =>
    if k.line < l.cursor.line ∨ k.offset + keyLimit < l.cursor.offset then
      if k.required then none else some none
    else some (some k)

/-- Emits the token of the indicator at the cursor. -/
def take (l : Lexer) (t : Token) : Lexer := { l.emit t with cursor := l.cursor.skip 1 }

def openBracket? (l : Lexer) (t : Token) : Option Lexer := do
  let l ← l.saveKey?
  let outerPending := l.pending :: l.outerPending
  pure ({ l with pending := none, outerPending, keyAllowed := true }.take t)

def closeBracket? (l : Lexer) (t : Token) : Option Lexer := do
  let l ← l.dropKey?
  let (pending, outerPending) :=
    match l.outerPending with
    | p :: ps => (p, ps)
    | [] => (l.pending, [])
  pure ({ l with pending, outerPending, keyAllowed := false }.take t)

def flowEntry? (l : Lexer) : Option Lexer := do
  let l ← l.dropKey?
  pure ({ l with keyAllowed := true }.take .flowEntry)

def blockEntry? (l : Lexer) : Option Lexer := do
  if ¬ l.inFlow ∧ ¬ l.keyAllowed then none
  let l ← (l.openBlock l.cursor.column none .blockSequenceStart).dropKey?
  pure ({ l with keyAllowed := true }.take .blockEntry)

def explicitKey? (l : Lexer) : Option Lexer := do
  if ¬ l.inFlow ∧ ¬ l.keyAllowed then none
  let l ← (l.openBlock l.cursor.column none .blockMappingStart).dropKey?
  pure ({ l with keyAllowed := !l.inFlow }.take .key)

def value? (l : Lexer) : Option Lexer := do
  match ← l.liveKey? with
  | some k =>
    let l := { l with tokens := l.tokens.insertIdxIfInBounds k.token .key }
    let l := l.openBlock k.column (some k.token) .blockMappingStart
    pure ({ l with pending := none, keyAllowed := false }.take .value)
  | none =>
    if ¬ l.inFlow ∧ ¬ l.keyAllowed then none
    let l := l.openBlock l.cursor.column none .blockMappingStart
    pure ({ l with pending := none, keyAllowed := !l.inFlow }.take .value)

def documentMark? (l : Lexer) (t : Token) : Option Lexer := do
  let l ← (l.closeBlocks (-1)).dropKey?
  let l := l.emit t
  pure { l with keyAllowed := false, cursor := l.cursor.skip 3 }

def directiveLine? (l : Lexer) : Option Lexer := do
  let l ← (l.closeBlocks (-1)).dropKey?
  let (t, cursor) ← directive? l.cursor
  pure ({ l with keyAllowed := false, cursor }.emit t)

/-- An anchor, alias or tag, which may begin a key. -/
def property? (l : Lexer) (read : Cursor → Option (Token × Cursor)) : Option Lexer := do
  let l ← l.saveKey?
  let (t, cursor) ← read l.cursor
  pure ({ l with keyAllowed := false, cursor }.emit t)

/-- The token of a name whose mark is at the cursor. -/
def nameToken? (token : String → Token) (c : Cursor) : Option (Token × Cursor) :=
  (anchorName? (c.skip 1)).map fun (name, c) => (token name, c)

def blockScalar? (l : Lexer) (literal : Bool) : Option Lexer := do
  let l ← l.dropKey?
  let (text, cursor) ← block? literal l.indent (l.cursor.skip 1)
  pure ({ l with keyAllowed := true, cursor }.emit (.scalar (String.ofList text) false))

def quotedScalar? (l : Lexer) (quote : Char) : Option Lexer := do
  let l ← l.saveKey?
  let (text, cursor) ← quoted? quote (l.cursor.skip 1)
  pure ({ l with keyAllowed := false, cursor }.emit (.scalar (String.ofList text) false))

def plainScalar? (l : Lexer) : Option Lexer := do
  let l ← l.saveKey?
  let (text, newLine, cursor) ← plain? l.inFlow (l.indent + 1).toNat l.cursor
  pure ({ l with keyAllowed := newLine, cursor }.emit (.scalar (String.ofList text) true))

/-- Whether a plain text may begin with `c` before `rest`. -/
def startsPlain (inFlow : Bool) (c : Char) (rest : List Char) : Bool :=
  !("-?:,[]\x7b\x7d#&*!|>'\"%@`".toList.contains c) ||
    (c == '-' && !(rest.head?.any isSpaceOrTab)) ||
    (!inFlow && (c == '?' || c == ':') && !atGap rest)

/-- The next token at a cursor that is not in a gap. -/
def next? (l : Lexer) (c : Char) (rest : List Char) : Option Lexer :=
  if l.cursor.column = 0 ∧ c = '%' then l.directiveLine?
  else if l.cursor.atMark '-' then l.documentMark? .documentStart
  else if l.cursor.atMark '.' then l.documentMark? .documentEnd
  else if c = '[' then l.openBracket? .flowSequenceStart
  else if c = '\x7b' then l.openBracket? .flowMappingStart
  else if c = ']' then l.closeBracket? .flowSequenceEnd
  else if c = '\x7d' then l.closeBracket? .flowMappingEnd
  else if c = ',' then l.flowEntry?
  else if c = '-' ∧ atGap rest then l.blockEntry?
  else if c = '?' ∧ (l.inFlow ∨ atGap rest) then l.explicitKey?
  else if c = ':' ∧ (l.inFlow ∨ atGap rest) then l.value?
  else if c = '*' then l.property? (nameToken? .aliasTo)
  else if c = '&' then l.property? (nameToken? .anchor)
  else if c = '!' then l.property? (tag? l.inFlow)
  else if c = '|' ∧ ¬ l.inFlow then l.blockScalar? true
  else if c = '>' ∧ ¬ l.inFlow then l.blockScalar? false
  else if c = '\'' ∨ c = '"' then l.quotedScalar? c
  else if isBreak c = false ∧ isSpaceOrTab c = false ∧ startsPlain l.inFlow c rest then
    l.plainScalar?
  else none

def finish? (l : Lexer) : Option (Array Token) := do
  let l ← (l.closeBlocks (-1)).dropKey?
  pure (l.emit .streamEnd).tokens

/-- Every token reads at least one character. -/
def run? : Nat → Lexer → Option (Array Token)
  | 0, _ => none
  | fuel + 1, l =>
    let l := l.skipGap (l.cursor.rest.length + 1)
    match l.cursor.rest with
    | [] => l.finish?
    | c :: rest =>
      match (l.closeBlocks l.cursor.column).next? c rest with
      | some l => run? fuel l
      | none => none

end Lexer

/-- The tokens of a text, ending with the end of the stream. -/
def tokens? (text : String) : Option (List Token) :=
  let cs := text.toList
  if cs.all isAllowed then ((Lexer.start cs).run? (cs.length + 1)).map Array.toList else none

end WorkloadSpec.Yaml
