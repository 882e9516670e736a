import WorkloadSpec.Json.Printer

/-!
Why a section with operators cannot be expanded.
-/
namespace WorkloadSpec

inductive ReferenceFault where
  | invalid
  | unresolved
  /-- Only data that is free of operators may be referred to. -/
  | holdsOperators
  deriving DecidableEq

inductive MalformedOperator where
  | unexpectedKey (key operator : String) (allowed : List String)
  | missingKey (operator key : String)
  | notABinding (found : Value)

inductive OperatorError where
  | reference (reference : String) (fault : ReferenceFault)
  | type (reference expected actual : String)
  | malformed (fault : MalformedOperator)

def ReferenceFault.message : ReferenceFault → String
  | invalid => "is not a valid reference"
  | unresolved => "cannot be resolved in the current document or scope"
  | holdsOperators => "points at a value that still contains operators"

def MalformedOperator.message : MalformedOperator → String
  | unexpectedKey key operator allowed =>
    s!"unexpected key `{key}` in `{operator}` operator; allowed keys are: " ++
      String.intercalate ", " allowed
  | missingKey operator key => s!"`{operator}` operator is missing `{key}`"
  | notABinding found => "`for` must name a binding, found " ++ Json.compact found

namespace OperatorError

def code : OperatorError → String
  | reference _ _ => "OPERATOR_REFERENCE"
  | type _ _ _ => "OPERATOR_TYPE"
  | malformed _ => "MALFORMED_OPERATOR"

def message : OperatorError → String
  | reference text fault => s!"Reference `{text}` {fault.message}"
  | type text expected actual => s!"Reference `{text}` must resolve to {expected}, found {actual}"
  | malformed fault => s!"Malformed operator: {fault.message}"

end OperatorError

end WorkloadSpec
