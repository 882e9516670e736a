import WorkloadSpec.Yaml.Style
import WorkloadSpec.Number.Layout

/-!
Values written as YAML in block style, two columns a level and no limit on the
length of a line. A sequence that is the value of a key stands at the column of
the key. A key that is longer than 128 octets or breaks the line gets a mark of
its own.
-/
namespace WorkloadSpec.Yaml

def layout : NumberLayout := ⟨-5, 15, false⟩

def margin (n : Nat) : String := "".pushn ' ' n

def hexDigits (width n : Nat) : String :=
  String.ofList ((List.range width).reverse.map fun i => (Nat.digitChar ((n >>> (4 * i)) % 16)).toUpper)

/-- The letter that stands for a character after a backslash, or its code point. -/
def escaped (c : Char) : String :=
  let letters := [(0x0, '0'), (0x7, 'a'), (0x8, 'b'), (0x9, 't'), (0xA, 'n'), (0xB, 'v'),
    (0xC, 'f'), (0xD, 'r'), (0x1B, 'e'), (0x22, '"'), (0x5C, '\\'), (0x85, 'N'), (0xA0, '_'),
    (0x2028, 'L'), (0x2029, 'P')]
  let n := c.toNat
  match letters.lookup n with
  | some letter => String.ofList ['\\', letter]
  | none =>
    if n ≤ 0xFF then "\\x" ++ hexDigits 2 n
    else if n ≤ 0xFFFF then "\\u" ++ hexDigits 4 n
    else "\\U" ++ hexDigits 8 n

def doubleQuoted (cs : List Char) : String :=
  let char (c : Char) : String :=
    if !isPrintable c || isBreak c || c == '"' || c == '\\' then escaped c else c.toString
  "\"" ++ String.join (cs.map char) ++ "\""

/-- Text with a margin in front of every line that is not blank. -/
def indented (indent : Nat) : Bool → List Char → List Char
  | _, [] => []
  | lineStart, c :: rest =>
    if isBreak c then c :: indented indent true rest
    else if lineStart then List.replicate indent ' ' ++ c :: indented indent false rest
    else c :: indented indent false rest

/-- Text without line feeds between single quotes, which are doubled inside. -/
def singleQuoted (indent : Nat) (cs : List Char) : String :=
  let doubled := cs.flatMap fun c => if c = '\'' then [c, c] else [c]
  let ending := if cs.getLast?.any isBreak then margin indent else ""
  "'" ++ String.ofList (indented indent false doubled) ++ ending ++ "'"

/-- The mark that says which line breaks at the end belong to the text. -/
def chomping (cs : List Char) : String :=
  match cs.reverse with
  | x :: rest =>
    if !isBreak x then "-"
    else if rest.head?.all isBreak then "+"
    else ""
  | [] => "-"

def literal (indent : Nat) (cs : List Char) : String :=
  let hint := if cs.head?.any fun c => c == ' ' || isBreak c then "2" else ""
  "|" ++ hint ++ chomping cs ++ "\n" ++ String.ofList (indented indent true cs)

/-- A text whose further lines have the given margin. -/
def text (indent : Nat) (s : String) : String :=
  match Style.ofText s with
  | .plain => s
  | .single => singleQuoted indent s.toList
  | .double => doubleQuoted s.toList
  | .literal => literal indent s.toList

/-- A literal block that keeps its last line break has ended its line already. -/
def endLine (s : String) : String := if s.toList.getLast?.any isBreak then s else s ++ "\n"

/-- A value that fits the line it begins on, apart from text of several lines. -/
def inline? (indent : Nat) : Value → Option String
  | .null => some "null"
  | .bool b => some (if b then "true" else "false")
  | .int n => some (toString n)
  | .float x => some (layout.text x)
  | .str s => some (text indent s)
  | .seq [] => some "[]"
  | .map [] => some "\x7b\x7d"
  | _ => none

/-- Keys that may stand in front of a colon without a mark of their own. -/
def isSimpleKey (key : String) : Bool := key.utf8ByteSize ≤ 128 && !key.toList.any isBreak

mutual

/-- A value that begins at column `indent`, up to the end of its last line. -/
def body (indent : Nat) : Value → String
  | .seq (v :: vs) => "- " ++ body (indent + 2) v ++ items indent vs
  | .map ((k, v) :: es) => entry indent k v ++ entries indent es
  | v => endLine ((inline? indent v).getD "")

def items (indent : Nat) : List Value → String
  | [] => ""
  | v :: vs => margin indent ++ "- " ++ body (indent + 2) v ++ items indent vs

def entries (indent : Nat) : List (String × Value) → String
  | [] => ""
  | (k, v) :: es => margin indent ++ entry indent k v ++ entries indent es

def entry (indent : Nat) (key : String) (v : Value) : String :=
  if isSimpleKey key then
    text indent key ++ ":" ++
      match v with
      | .seq (w :: ws) => "\n" ++ margin indent ++ "- " ++ body (indent + 2) w ++ items indent ws
      | .map ((k, w) :: es) =>
        "\n" ++ margin (indent + 2) ++ entry (indent + 2) k w ++ entries (indent + 2) es
      | v => " " ++ endLine ((inline? (indent + 2) v).getD "")
  else
    "? " ++ endLine (text (indent + 2) key) ++ margin indent ++ ": " ++ body (indent + 2) v

end

/-- A document that is a single text has its further lines indented. -/
def print (v : Value) : String :=
  match inline? 2 v with
  | some line => endLine line
  | none => body 0 v

end WorkloadSpec.Yaml
