import WorkloadSpec.Yaml.Cursor
import WorkloadSpec.Yaml.Scalar

/-!
How a text is written in YAML. A text with a line feed is written as a literal
block; one that would be read as something else than text is put between single
quotes; all other text stays plain. Where the chosen style cannot hold the text,
quotes take its place: single ones for plain text, double ones for the rest.
-/
namespace WorkloadSpec.Yaml

inductive Style where
  | plain
  | single
  | double
  | literal
  deriving DecidableEq

/-- Characters that are written as they are; the byte order mark is not one. -/
def isPrintable (c : Char) : Bool :=
  let n := c.toNat
  n == 10 || (0x20 ≤ n && n ≤ 0x7E) ||
    (0xA0 ≤ n && n != 0xFEFF && n != 0xFFFE && n != 0xFFFF)

/-- What stands in a text, as far as its style depends on it. -/
structure Makeup where
  /-- Something that would not be read as text outside of quotes. -/
  indicator : Bool := false
  unprintable : Bool := false
  lineBreak : Bool := false
  startsWithGap : Bool := false
  endsWithSpace : Bool := false
  spaceBeforeBreak : Bool := false
  spaceAfterBreak : Bool := false

namespace Makeup

/-- Whether an indicator stands at the start of a text. -/
def opensWithIndicator : List Char → Bool
  | '-' :: '-' :: '-' :: _ => true
  | '.' :: '.' :: '.' :: _ => true
  | c :: rest =>
    "#,[]\x7b\x7d&*!|>'\"%@`".toList.contains c || ("?:-".toList.contains c && atGap rest)
  | [] => false

def isGap (c : Char) : Bool := isSpaceOrTab c || isBreak c

def hasPair (p : Char → Char → Bool) (cs : List Char) : Bool :=
  (cs.zip cs.tail).any fun (a, b) => p a b

/-- A colon before a gap or a number sign after one, past the first character. -/
def holdsIndicator (cs : List Char) : Bool :=
  hasPair (fun a b => b == '#' && isGap a) cs || hasPair (fun a b => a == ':' && isGap b) cs ||
    cs.getLast? == some ':'

def ofText (cs : List Char) : Makeup :=
  { indicator := opensWithIndicator cs || holdsIndicator cs
    unprintable := cs.any fun c => !isPrintable c
    lineBreak := cs.any isBreak
    startsWithGap := cs.head?.any fun c => c == ' ' || isBreak c
    endsWithSpace := cs.getLast? == some ' '
    spaceBeforeBreak := hasPair (fun a b => a == ' ' && isBreak b) cs
    spaceAfterBreak := hasPair (fun a b => isBreak a && b == ' ') cs }

def allowsPlain (m : Makeup) : Bool :=
  !(m.indicator || m.unprintable || m.lineBreak || m.startsWithGap || m.endsWithSpace)

def allowsSingle (m : Makeup) : Bool :=
  !(m.unprintable || m.spaceBeforeBreak || m.spaceAfterBreak)

def allowsLiteral (m : Makeup) : Bool :=
  !(m.unprintable || m.spaceBeforeBreak || m.endsWithSpace)

end Makeup

/-- Whether a plain scalar with this text would be something else than text, or
digits that some readers take for a number. -/
def needsQuotes (s : String) : Bool :=
  PlainScalar.isPadded s.toList ||
    match PlainScalar.read s with
    | .text => false
    | _ => true

def Style.ofText (s : String) : Style :=
  let m := Makeup.ofText s.toList
  if s.contains '\n' then if m.allowsLiteral then .literal else .double
  else if m.allowsPlain && !needsQuotes s then .plain
  else if m.allowsSingle then .single
  else .double

end WorkloadSpec.Yaml
