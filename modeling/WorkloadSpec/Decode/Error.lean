import WorkloadSpec.Json.Printer
import WorkloadSpec.Text.Quoted

/-!
Why a value could not be read as a typed record, in the terms of the value: what
was found and what was expected.
-/
namespace WorkloadSpec

/-- What a reader came upon. -/
inductive Found where
  | null
  | bool (b : Bool)
  | int (n : Int)
  | float (x : Double)
  | str (s : String)
  | seq
  | map
  /-- A variant by name alone, where its content was due. -/
  | bareVariant
  deriving DecidableEq

namespace Found

def ofValue : Value → Found
  | .null => null
  | .bool b => bool b
  | .int n => int n
  | .float x => float x
  | .str s => str s
  | .seq _ => seq
  | .map _ => map

def text : Found → String
  | null => "null"
  | bool b => s!"boolean `{b}`"
  | int n => s!"integer `{n}`"
  | float x => "floating point `" ++ Json.layout.text x ++ "`"
  | str s => "string " ++ Text.quoted s
  | seq => "sequence"
  | map => "map"
  | bareVariant => "unit variant"

end Found

inductive DecodeError where
  | invalidType (found : Found) (expected : String)
  | invalidValue (found : Found) (expected : String)
  | invalidLength (length : Nat) (expected : String)
  | unknownField (field : String) (known : List String)
  | unknownVariant (name : String) (known : List String)
  | missingField (field : String)
  /-- None of the forms that are tried in turn fits. -/
  | noAlternative (title : String)
  deriving DecidableEq

namespace DecodeError

/-- The names that would have been right. -/
def choices : List String → String
  | [a] => s!"`{a}`"
  | [a, b] => s!"`{a}` or `{b}`"
  | names => "one of " ++ String.intercalate ", " (names.map fun a => s!"`{a}`")

def message : DecodeError → String
  | invalidType found expected => s!"invalid type: {found.text}, expected {expected}"
  | invalidValue found expected => s!"invalid value: {found.text}, expected {expected}"
  | invalidLength length expected => s!"invalid length {length}, expected {expected}"
  | unknownField field known => s!"unknown field `{field}`, expected {choices known}"
  | unknownVariant name known => s!"unknown variant `{name}`, expected {choices known}"
  | missingField field => s!"missing field `{field}`"
  | noAlternative title => s!"data did not match any variant of untagged enum {title}"

end DecodeError

end WorkloadSpec
