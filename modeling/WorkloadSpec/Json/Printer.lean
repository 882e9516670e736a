import WorkloadSpec.Value
import WorkloadSpec.Number.Layout

/-!
Values written as JSON, on one line or indented by two spaces a level. Entries
keep their order; only quotes, backslashes and control characters are escaped.
-/
namespace WorkloadSpec.Json

def layout : NumberLayout := ⟨-5, 15, true⟩

def hexDigit (n : Nat) : Char := (Nat.digitChar (n % 16))

def escapedChar (c : Char) : String :=
  if c = '"' then "\\\""
  else if c = '\\' then "\\\\"
  else if c = '\x08' then "\\b"
  else if c = '\x0c' then "\\f"
  else if c = '\n' then "\\n"
  else if c = '\r' then "\\r"
  else if c = '\t' then "\\t"
  else if c.toNat < 0x20 then
    "\\u00" ++ String.ofList [hexDigit (c.toNat / 16), hexDigit c.toNat]
  else c.toString

def quote (s : String) : String :=
  "\"" ++ String.join (s.toList.map escapedChar) ++ "\""

mutual

def compact : Value → String
  | .null => "null"
  | .bool b => if b then "true" else "false"
  | .int n => toString n
  | .float x => layout.text x
  | .str s => quote s
  | .seq items => "[" ++ String.intercalate "," (compactItems items) ++ "]"
  | .map entries => "\x7b" ++ String.intercalate "," (compactEntries entries) ++ "\x7d"

def compactItems : List Value → List String
  | [] => []
  | v :: vs => compact v :: compactItems vs

def compactEntries : List (String × Value) → List String
  | [] => []
  | (k, v) :: es => (quote k ++ ":" ++ compact v) :: compactEntries es

end

/-- A bracketed list of lines, one level below `indent`. -/
def block (opening closing : String) (indent : Nat) (lines : List String) : String :=
  if lines.isEmpty then opening ++ closing
  else
    let margin := "\n" ++ "".pushn ' ' (indent + 2)
    opening ++ margin ++ String.intercalate ("," ++ margin) lines ++
      "\n" ++ "".pushn ' ' indent ++ closing

mutual

def prettyAt (indent : Nat) : Value → String
  | .seq items => block "[" "]" indent (prettyItems (indent + 2) items)
  | .map entries => block "\x7b" "\x7d" indent (prettyEntries (indent + 2) entries)
  | v => compact v

def prettyItems (indent : Nat) : List Value → List String
  | [] => []
  | v :: vs => prettyAt indent v :: prettyItems indent vs

def prettyEntries (indent : Nat) : List (String × Value) → List String
  | [] => []
  | (k, v) :: es => (quote k ++ ": " ++ prettyAt indent v) :: prettyEntries indent es

end

def pretty (v : Value) : String := prettyAt 0 v

end WorkloadSpec.Json
