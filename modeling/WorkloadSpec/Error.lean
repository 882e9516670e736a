import WorkloadSpec.Decode.Error
import WorkloadSpec.Kind
import WorkloadSpec.Operator.Error
import WorkloadSpec.Section.Sweep
import WorkloadSpec.Variant.Error

/-!
Every way a document can be refused, with a code, a message and, for most, the
section it concerns.
-/
namespace WorkloadSpec

/-- Why the text of a file is not to be had. -/
inductive ReadFault where
  | notFound
  | isDirectory
  | notDirectory
  | nameTooLong
  | notText
  | other (text : String)
  deriving DecidableEq

/-- What is wrong with the content of a section. -/
inductive SectionFault where
  | decode (error : DecodeError)
  | sweep (fault : SweepFault)
  | tagNotString
  | tagsShape
  | shape (actual : String)
  | unknownRunField (field : String) (known : List String)
  deriving DecidableEq

inductive DocumentError where
  | unreadable (path : String) (fault : ReadFault)
  | unparsable (name : String)
  | notMapping (name actual : String)
  | missingVersion
  | unsupportedVersion (found : Value) (least greatest : Int)
  | missingKind
  | unsupportedKind (found : String)
  | kindMismatch (expected found : Kind)
  | unexpectedSection (key : String) (version : Int)
  | unsupportedSection (place : Section) (kind : Kind)
  | missingSection (place : Section) (kind : Kind)
  | invalidSection (place : Section) (fault : SectionFault)
  | invalidBuildInput (actual : String)

inductive ResolutionError where
  | document (error : DocumentError)
  | variant (error : VariantError)
  | operator (error : OperatorError) (place : Option Section)

def ReadFault.message : ReadFault → String
  | notFound => "No such file or directory (os error 2)"
  | isDirectory => "Is a directory (os error 21)"
  | notDirectory => "Not a directory (os error 20)"
  | nameTooLong => "File name too long (os error 36)"
  | notText => "stream did not contain valid UTF-8"
  | other text => text

def SectionFault.message : SectionFault → String
  | decode error => error.message
  | sweep fault => fault.message
  | tagNotString => "every tag must be a string"
  | tagsShape => "expected a string or a sequence of strings"
  | shape actual => s!"expected a mapping, found {actual}"
  | unknownRunField field known =>
    s!"unknown field `{field}`, expected one of: " ++ String.intercalate ", " known

namespace DocumentError

def code : DocumentError → String
  | unreadable _ _ => "SOURCE_READ"
  | unparsable _ => "SOURCE_PARSE"
  | notMapping _ _ => "INVALID_SOURCE"
  | missingVersion => "MISSING_VERSION"
  | unsupportedVersion _ _ _ => "UNSUPPORTED_VERSION"
  | missingKind => "MISSING_KIND"
  | unsupportedKind _ => "UNSUPPORTED_KIND"
  | kindMismatch _ _ => "KIND_MISMATCH"
  | unexpectedSection _ _ => "UNEXPECTED_SECTION"
  | unsupportedSection _ _ => "UNSUPPORTED_SECTION"
  | missingSection _ _ => "MISSING_REQUIRED_SECTION"
  | invalidSection _ _ => "INVALID_SECTION"
  | invalidBuildInput _ => "INVALID_BUILD_INPUT"

def message : DocumentError → String
  | unreadable path fault => s!"Could not read specification source `{path}`: {fault.message}"
  | unparsable name => s!"Could not parse specification source `{name}`"
  | notMapping name actual => s!"Specification source `{name}` must be a mapping, found {actual}"
  | missingVersion => "The specification `version` must be specified"
  | unsupportedVersion found least greatest =>
    s!"The specification version `{Json.compact found}` is not supported; " ++
      s!"supported versions are {least} <= v <= {greatest}"
  | missingKind => "The specification `kind` must be specified"
  | unsupportedKind found =>
    s!"The specification kind `{found}` is not supported; expected one of: " ++
      String.intercalate ", " Kind.names
  | kindMismatch expected found =>
    s!"A `{expected.name}` specification cannot be built from a document of kind `{found.name}`"
  | unexpectedSection key version =>
    s!"Unexpected section `{key}` in specification version `{version}`; legal sections are: " ++
      String.intercalate ", " Section.keys
  | unsupportedSection place kind =>
    s!"Section `{place.key}` is not supported for specification kind `{kind.name}`"
  | missingSection place kind =>
    s!"`{place.key}` is a required section for a `{kind.name}` specification"
  | invalidSection place fault => s!"Invalid `{place.key}` section: {fault.message}"
  | invalidBuildInput actual =>
    s!"A build specification expects a build config or a mapping, found {actual}"

/-- The key of the section that is to blame. -/
def place? : DocumentError → Option String
  | missingVersion | unsupportedVersion _ _ _ => some Section.version.key
  | missingKind | unsupportedKind _ | kindMismatch _ _ => some Section.kind.key
  | unexpectedSection key _ => some key
  | unsupportedSection place _ | missingSection place _ | invalidSection place _ => some place.key
  | invalidBuildInput _ => some Section.build.key
  | unreadable _ _ | unparsable _ | notMapping _ _ => none

end DocumentError

namespace ResolutionError

def code : ResolutionError → String
  | document error => error.code
  | variant error => error.code
  | operator error _ => error.code

def message : ResolutionError → String
  | document error => error.message
  | variant error => error.message
  | operator error none => error.message
  | operator error (some place) => s!"{error.message} (in section `{place.key}`)"

def place? : ResolutionError → Option String
  | document error => error.place?
  | variant _ => none
  | operator _ place => place.map Section.key

instance : MonadLift (Except DocumentError) (Except ResolutionError) where
  monadLift := Except.mapError document

instance : MonadLift (Except VariantError) (Except ResolutionError) where
  monadLift := Except.mapError variant

end ResolutionError

end WorkloadSpec
