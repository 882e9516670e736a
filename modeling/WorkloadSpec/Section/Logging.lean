import WorkloadSpec.Decode.Record

/-!
The logging section. Levels may be written in lower case, and the warning level
has a short name.
-/
namespace WorkloadSpec

inductive LogLevel where
  | debug
  | info
  | warning
  | error
  | critical
  deriving DecidableEq, Repr

namespace LogLevel

def name : LogLevel → String
  | debug => "DEBUG"
  | info => "INFO"
  | warning => "WARNING"
  | error => "ERROR"
  | critical => "CRITICAL"

def spellings : List (String × LogLevel) :=
  [("DEBUG", debug), ("debug", debug), ("INFO", info), ("info", info), ("WARN", warning),
    ("WARNING", warning), ("warn", warning), ("warning", warning), ("ERROR", error),
    ("error", error), ("CRITICAL", critical), ("critical", critical)]

def codec : Codec LogLevel := .choice spellings name

end LogLevel

structure Logging where
  level : LogLevel := .info
  formatter : Option String := none
  deriving DecidableEq

namespace Logging

def record : Record Logging where
  title := "LoggingConfig"
  blank := {}
  fields :=
    [.defaulted "level" LogLevel.codec level fun s x => { s with level := x },
      .optional "formatter" .string formatter fun s x => { s with formatter := x }]

def codec : Codec Logging := record.codec

end Logging

end WorkloadSpec
