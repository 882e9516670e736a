/-!
Text for a terminal, where escape sequences set the style, and the same text for
a stream that is no terminal: without sequences and without control characters
other than blanks. A blank shows even inside of a control sequence, and then the
text after it shows up to the next character that is not plain, where the
sequence goes on.
-/
namespace WorkloadSpec.Text

def isControlBlank (c : Char) : Bool := c == '\t' || c == '\n' || c == '\x0c' || c == '\r'

def isPlain (c : Char) : Bool := (0x20 ≤ c.toNat && c.toNat != 0x7F) || isControlBlank c

def isWide (c : Char) : Bool := 0x80 ≤ c.toNat

/-- What the characters so far have begun. -/
inductive Sequence where
  /-- Nothing that is left open. -/
  | ground
  | escape
  | escapeIntermediate
  | control
  | device
  | deviceNumber
  | deviceIntermediate
  /-- Text that is not shown, up to an escape or an octet that ends it. -/
  | text
  /-- A command to the system, up to an escape or a bell. -/
  | command
  deriving DecidableEq, Repr

namespace Sequence

/-- Whether a character shows where a sequence has begun. -/
def shows (q : Sequence) (c : Char) : Bool :=
  match q with
  | ground => isPlain c
  | escape | escapeIntermediate | control => isControlBlank c
  | _ => false

/-- The octet that ends hidden text, which may be a part of a character. -/
def endsText (c : Char) : Bool := (String.utf8EncodeChar c).contains 0x9C

/-- After a character that is neither a control character nor wide. -/
def nextVisible (q : Sequence) (c : Char) : Sequence :=
  let n := c.toNat
  match q with
  | escape =>
    if n < 0x30 then escapeIntermediate
    else if c = '[' then control
    else if c = ']' then command
    else if c = 'P' then device
    else if c = 'X' ∨ c = '^' ∨ c = '_' then text
    else ground
  | escapeIntermediate => if n < 0x30 then escapeIntermediate else ground
  | control => if n < 0x40 then control else ground
  | device => if n < 0x30 then deviceIntermediate else if n < 0x40 then deviceNumber else text
  | deviceNumber => if n < 0x30 then deviceIntermediate else if n < 0x3C then deviceNumber else text
  | deviceIntermediate => if n < 0x30 then deviceIntermediate else text
  | _ => q

/-- After a character that does not show. -/
def next (q : Sequence) (c : Char) : Sequence :=
  if c = '\x1b' then escape
  else if c = '\x18' ∨ c = '\x1a' then ground
  else if c.toNat < 0x20 ∨ c = '\x7f' then if q = command ∧ c = '\x07' then ground else q
  else if isWide c then if q = text ∧ endsText c then ground else q
  else q.nextVisible c

/-- In a run of plain text the sequence that is left open has no say. -/
def showsNext (inRun : Bool) (q : Sequence) (c : Char) : Bool :=
  if inRun then isPlain c else q.shows c

end Sequence

/-- The characters that show. -/
def shown : Bool → Sequence → List Char → List Char
  | _, _, [] => []
  | inRun, q, c :: cs =>
    if q.showsNext inRun c then c :: shown true (if isWide c then .ground else q) cs
    else shown false (q.next c) cs

def unstyled (s : String) : String := String.ofList (shown true .ground s.toList)

def emphasised (s : String) : String := "\x1b[1m" ++ s ++ "\x1b[0m"

theorem Sequence.isPlain_of_shows {q : Sequence} {c : Char} (h : q.shows c = true) :
    isPlain c = true := by
  cases q <;> simp_all [shows, isPlain]

theorem Sequence.isPlain_of_showsNext {inRun : Bool} {q : Sequence} {c : Char}
    (h : q.showsNext inRun c = true) : isPlain c = true := by
  cases inRun with
  | false => exact isPlain_of_shows h
  | true => exact h

theorem isPlain_of_mem_shown {c : Char} {cs : List Char} {inRun : Bool} {q : Sequence}
    (h : c ∈ shown inRun q cs) : isPlain c = true := by
  induction cs generalizing inRun q with
  | nil => simp [shown] at h
  | cons d cs ih =>
    rw [shown] at h
    split at h
    · next hd =>
      rcases List.mem_cons.1 h with rfl | h
      · exact Sequence.isPlain_of_showsNext hd
      · exact ih h
    · exact ih h

theorem shown_eq_self {cs : List Char} {q : Sequence} (h : ∀ c ∈ cs, isPlain c = true) :
    shown true q cs = cs := by
  induction cs generalizing q with
  | nil => rfl
  | cons c cs ih =>
    have hc : q.showsNext true c = true := h c List.mem_cons_self
    rw [shown, if_pos hc, ih fun d hd => h d (List.mem_cons_of_mem c hd)]

theorem unstyled_eq_self {s : String} (h : ∀ c ∈ s.toList, isPlain c = true) : unstyled s = s := by
  rw [unstyled, shown_eq_self h, String.ofList_toList]

end WorkloadSpec.Text
