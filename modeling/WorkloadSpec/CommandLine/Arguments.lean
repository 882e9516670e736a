import WorkloadSpec.Text.Style

/-!
Reading command-line arguments by a list of options and places. Options take a
value or none and have a long name and perhaps a letter; letters can be written
together, and a value can be attached. A value is not checked until the next
argument that is not part of it, so an unknown argument is reported before a
value that is pending.
-/
namespace WorkloadSpec.CommandLine

/-- Takes a value, or says why not. -/
abbrev ValueCheck := String → Except String Unit

structure OptionSpec where
  long : String
  short : Option Char := none
  /-- What its value is called in messages, and which values are fit. -/
  takes : Option (String × ValueCheck) := none

/-- What is given by position. -/
structure PlaceSpec where
  name : String
  many : Bool := false
  /-- Whether an empty text may stand here. -/
  allowsEmpty : Bool := false

structure Interface where
  options : List OptionSpec
  places : List PlaceSpec
  commands : List String := []
  /-- Whether the version can be asked for. -/
  versioned : Bool := false

inductive UsageError where
  | nothingGiven
  | missingCommand
  | unknownCommand (name : String)
  | unexpectedArgument (text : String)
  | missingValue (label : String)
  | invalidValue (value label reason : String)
  | repeated (label : String)
  | unneededValue (value label : String)
  | missingPlaces
  deriving DecidableEq

/-- Why reading ends early. -/
inductive Stop where
  | usage (error : UsageError)
  | help
  | version
  deriving DecidableEq

def OptionSpec.label (o : OptionSpec) : String :=
  match o.takes with
  | some (value, _) => s!"--{o.long} <{value}>"
  | none => s!"--{o.long}"

def PlaceSpec.label (p : PlaceSpec) : String := if p.many then s!"<{p.name}>..." else s!"<{p.name}>"

/-- An option or a place that is collecting its values. -/
inductive Slot where
  | option (o : OptionSpec)
  | place (p : PlaceSpec)

structure Progress where
  /-- Names with their values, in the order in which they were settled. -/
  given : List (String × String) := []
  pending : Option (Slot × List String) := none
  /-- Whether the next argument is the value of the pending option. -/
  awaits : Bool := false
  /-- Whether everything is taken by position from here on. -/
  trailing : Bool := false
  place : Nat := 0

namespace Progress

def has (p : Progress) (name : String) : Bool := (p.given.lookup name).isSome

def values (p : Progress) (name : String) : List String :=
  (p.given.filter fun e => e.1 == name).map Prod.snd

def value? (p : Progress) (name : String) : Option String := p.given.lookup name

def fail {α : Type} (e : UsageError) : Except Stop α := .error (.usage e)

/-- Settles an option with its values. An option can be given once. -/
def recordOption (p : Progress) (o : OptionSpec) (values : List String) :
    Except Stop Progress := do
  match o.takes, values with
  | some _, [] => fail (.missingValue o.label)
  | _, _ => pure ()
  if p.has o.long then fail (.repeated o.label)
  match o.takes with
  | none => pure { p with given := p.given ++ [(o.long, "")] }
  | some (_, check) =>
    values.forM fun v =>
      match check v with
      | .ok () => pure ()
      | .error reason => fail (.invalidValue v o.label reason)
    pure { p with given := p.given ++ values.map (o.long, ·) }

def record (p : Progress) (slot : Slot) (values : List String) : Except Stop Progress :=
  match slot with
  | .option o => p.recordOption o values
  | .place spec =>
    if !spec.allowsEmpty && values.any String.isEmpty then fail (.missingValue spec.label)
    else .ok { p with given := p.given ++ values.map (spec.name, ·) }

/-- Settles what is pending. -/
def settle (p : Progress) : Except Stop Progress :=
  match p.pending with
  | some (slot, values) => { p with pending := none }.record slot values
  | none => .ok p

/-- Begins an option that is given by name, perhaps with its value. -/
def option (p : Progress) (o : OptionSpec) (attached : Option String) : Except Stop Progress := do
  let p ← p.settle
  match o.takes, attached with
  | some _, none => pure { p with pending := some (.option o, []), awaits := true }
  | _, _ => return { ← p.recordOption o attached.toList with awaits := false }

/-- Fills the next place. A place that takes many texts collects them until an
option comes between. -/
def positional (p : Progress) (spec : PlaceSpec) (text : String) : Except Stop Progress := do
  match p.pending, spec.many with
  | some (.place _, texts), true => pure { p with pending := some (.place spec, texts ++ [text]) }
  | _, many =>
    let p ← p.settle
    pure
      { p with
        pending := some (.place spec, [text])
        place := if many then p.place else p.place + 1
        awaits := false }

end Progress

namespace Interface

def long? (i : Interface) (name : String) : Option OptionSpec :=
  i.options.find? fun o => o.long == name

def short? (i : Interface) (letter : Char) : Option OptionSpec :=
  i.options.find? fun o => o.short == some letter

/-- An argument that begins with two dashes. -/
def readLong (i : Interface) (p : Progress) (body : String) : Except Stop Progress := do
  let name := (body.takeWhile (· != '=')).toString
  let attached :=
    if name.length < body.length then some (body.drop (name.length + 1)).toString else none
  match i.long? name, attached with
  | some o, some v =>
    if o.takes.isNone then Progress.fail (.unneededValue v o.label) else p.option o (some v)
  | some o, none => p.option o none
  | none, _ =>
    if name = "help" ∧ attached.isNone then
      let _ ← p.settle
      .error .help
    else if name = "version" ∧ i.versioned ∧ attached.isNone then
      let _ ← p.settle
      .error .version
    else if name = "help" ∨ (name = "version" ∧ i.versioned) then
      Progress.fail (.unneededValue (attached.getD "") s!"--{name}")
    else Progress.fail (.unexpectedArgument s!"--{name}")

/-- Letters after a dash. What follows an option with a value is its value. -/
def readShorts (i : Interface) (p : Progress) : List Char → Except Stop Progress
  | [] => .ok p
  | c :: cs =>
    match i.short? c with
    | some o =>
      if o.takes.isSome then
        match cs with
        | [] => p.option o none
        | '=' :: v => p.option o (some (String.ofList v))
        | v => p.option o (some (String.ofList v))
      else p.option o none >>= fun p => i.readShorts p cs
    | none => do
      if c = 'h' then
        let _ ← p.settle
        .error .help
      else if c = 'V' ∧ i.versioned then
        let _ ← p.settle
        .error .version
      else Progress.fail (.unexpectedArgument s!"-{c}")

/-- Whether a name is that of a command. Help is one where there are others. -/
def hasCommand (i : Interface) (name : String) : Bool :=
  i.commands.contains name || (name == "help" && !i.commands.isEmpty)

/-- An argument that no place is left for. -/
def refuse (i : Interface) (p : Progress) (text : String) : UsageError :=
  if p.trailing ∧ i.hasCommand text then .unexpectedArgument text
  else if i.commands.isEmpty then .unexpectedArgument text
  else .unknownCommand text

/-- Reads arguments up to a command or to the end. A command comes back with the
arguments after it. -/
def read (i : Interface) :
    Progress → List String → Except Stop (Progress × Option (String × List String))
  | p, [] => .ok (p, none)
  | p, arg :: args =>
    let byPlace : Except Stop (Progress × Option (String × List String)) :=
      match i.places[p.place]? with
      | some spec => p.positional spec arg >>= fun p => i.read p args
      | none => Progress.fail (i.refuse p arg)
    if p.trailing then byPlace
    else if !p.awaits && i.hasCommand arg then .ok (p, some (arg, args))
    else if arg = "--" then i.read { p with trailing := true, awaits := false } args
    else if arg.startsWith "--" then i.readLong p (arg.drop 2).toString >>= fun p => i.read p args
    else if arg.startsWith "-" ∧ arg ≠ "-" then
      i.readShorts p (arg.toList.drop 1) >>= fun p => i.read p args
    else if p.awaits then
      match p.pending with
      | some (slot, values) =>
        i.read { p with pending := some (slot, values ++ [arg]), awaits := false } args
      | none => byPlace
    else byPlace

/-- Whether every place has been filled. -/
def isFilled (i : Interface) (p : Progress) : Bool := i.places.all fun spec => p.has spec.name

end Interface

namespace UsageError

/-- What is wrong. The reason of an invalid value stands as it is, with no style that
would close a sequence in it. -/
def message (about name : String) : UsageError → String
  | nothingGiven => about
  | missingCommand => s!"error: '{name}' requires a subcommand but one was not provided"
  | unknownCommand text => s!"error: unrecognized subcommand '{Text.emphasised text}'"
  | unexpectedArgument text => s!"error: unexpected argument '{Text.emphasised text}' found"
  | missingValue label => s!"error: a value is required for '{label}' but none was supplied"
  | invalidValue value label reason =>
    s!"error: invalid value '{Text.emphasised value}' for '{label}': {reason}"
  | repeated label => s!"error: the argument '{label}' cannot be used multiple times"
  | unneededValue value label =>
    s!"error: unexpected value '{Text.emphasised value}' for '{label}' found; " ++
      "no more were expected"
  | missingPlaces => "error: the following required arguments were not provided:"

def hint : String := "For more information, try '" ++ Text.emphasised "--help" ++ "'."

/-- The message and a hint, as a stream that is no terminal shows them. -/
def report (about name : String) (e : UsageError) : String :=
  Text.unstyled (e.message about name ++ "\n\n" ++ hint ++ "\n")

end UsageError

end WorkloadSpec.CommandLine
