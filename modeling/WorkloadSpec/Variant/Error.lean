import WorkloadSpec.Value

/-!
Why a selection from a family of variants is refused.
-/
namespace WorkloadSpec

/-- What is wrong with the form of a selection. -/
inductive SelectionFault where
  | empty
  | parameters (identifier : String) (shape : String)
  | shape (shape : String)
  deriving DecidableEq

inductive VariantError where
  | unknownVariant (family identifier : String) (known : List String)
  | severalSelectors (family : String) (selectors : List String)
  | invalidSelector (family : String) (fault : SelectionFault)
  | unknownField (identifier field : String)
  | fieldType (identifier field expected actual : String)
  | missingField (identifier field : String)
  | duplicate (family identifier : String)
  deriving DecidableEq

def SelectionFault.message : SelectionFault → String
  | empty => "the selection mapping is empty"
  | parameters identifier actual =>
    s!"parameters of `{identifier}` must be a mapping, found {actual}"
  | shape actual => s!"expected a name or a single-key mapping, found {actual}"

namespace VariantError

def code : VariantError → String
  | unknownVariant _ _ _ => "UNKNOWN_VARIANT"
  | severalSelectors _ _ => "MULTIPLE_VARIANT_SELECTORS"
  | invalidSelector _ _ => "INVALID_SELECTOR"
  | unknownField _ _ => "UNKNOWN_FIELD"
  | fieldType _ _ _ _ => "FIELD_TYPE"
  | missingField _ _ => "MISSING_REQUIRED_FIELD"
  | duplicate _ _ => "DUPLICATE_VARIANT"

def message : VariantError → String
  | unknownVariant family identifier known =>
    s!"Unknown {family} `{identifier}`; expected one of: " ++ String.intercalate ", " known
  | severalSelectors family selectors =>
    s!"A {family} selection must name exactly one variant, found: " ++
      String.intercalate ", " selectors
  | invalidSelector family fault => s!"Invalid {family} selection: {fault.message}"
  | unknownField identifier field => s!"Unknown field `{field}` for `{identifier}`"
  | fieldType identifier field expected actual =>
    s!"Field `{field}` of `{identifier}` expects {expected}, found {actual}"
  | missingField identifier field => s!"Field `{field}` is required for `{identifier}`"
  | duplicate family identifier =>
    s!"Variant `{identifier}` is already registered in the {family} family"

end VariantError

end WorkloadSpec
