import WorkloadSpec.CommandLine.Arguments
import WorkloadSpec.CommandLine.Options
import WorkloadSpec.Kind

/-!
What the command line asks for: one action, and the options that hold for all of
them. Those can stand before or after the action; after it they count more.
-/
namespace WorkloadSpec.CommandLine

inductive Action where
  | check (kind : Option Kind) (files : List String)
  | render (kind : Option Kind) (config : Bool) (files : List String)
  | buildSpec (file : String) (resolve : Bool)
  | variant (family text : String)

structure Invocation where
  log : LogTarget
  format : Format
  action : Action

namespace Invocation

def name : String := "runspec"

def version : String := "runspec 0.1.0\n"

def about : String :=
  "Resolution engine for versioned ML run specifications with discriminated variants and " ++
    "control-flow operators"

def checked {α : Type} (parse : String → Except String α) : ValueCheck := fun s =>
  (fun _ => ()) <$> parse s

def parseKind (s : String) : Except String Kind :=
  match Kind.ofName? s with
  | some k => .ok k
  | none => .error (Kind.unknownName s)

/-- The options of every command. What is logged is no part of an outcome, so an invocation does
not say whether it is verbose. -/
def globalOptions : List OptionSpec :=
  [{ long := "verbose", short := some 'v' },
    { long := "log", short := some 'l', takes := some ("LOG", checked LogTarget.parse) },
    { long := "format", short := some 'f', takes := some ("FORMAT", checked Format.parse) }]

def kindOption : OptionSpec :=
  { long := "kind", short := some 'k', takes := some ("KIND", checked parseKind) }

def commands : List String := ["check", "render", "build-spec", "variant"]

def top : Interface := { options := globalOptions, places := [], commands, versioned := true }

/-- The interface of a command. -/
def interface (command : String) : Interface :=
  match command with
  | "check" =>
    { options := kindOption :: globalOptions, places := [{ name := "FILE", many := true }] }
  | "render" =>
    { options := kindOption :: { long := "config" } :: globalOptions
      places := [{ name := "FILE", many := true }] }
  | "build-spec" =>
    { options := { long := "resolve" } :: globalOptions, places := [{ name := "FILE" }] }
  | _ =>
    { options := globalOptions
      places :=
        [{ name := "FAMILY", allowsEmpty := true }, { name := "VALUE", allowsEmpty := true }] }

def kind? (p : Progress) : Option Kind := (p.value? "kind").bind Kind.ofName?

def actionOf (command : String) (p : Progress) : Action :=
  let text (name : String) : String := (p.value? name).getD ""
  match command with
  | "check" => .check (kind? p) (p.values "FILE")
  | "render" => .render (kind? p) (p.has "config") (p.values "FILE")
  | "build-spec" => .buildSpec (text "FILE") (p.has "resolve")
  | _ => .variant (text "FAMILY") (text "VALUE")

/-- The value of an option, the one after the command first. -/
def shared {α : Type} (parse : String → Except String α) (name : String) (default : α)
    (outer inner : Progress) : α :=
  (((inner.value? name) <|> outer.value? name).bind fun s => (parse s).toOption).getD default

/-- Help on a command. No command has commands of its own. -/
def helpOn : List String → Stop
  | [] => .help
  | topic :: more =>
    if top.hasCommand topic then
      match more with
      | [] => .help
      | name :: _ => .usage (.unknownCommand name)
    else .usage (.unknownCommand topic)

def parse (args : List String) : Except Stop Invocation := do
  let (outer, rest) ← top.read {} args
  match rest with
  | none =>
    let outer ← outer.settle
    .error (.usage (if outer.given.isEmpty then .nothingGiven else .missingCommand))
  | some ("help", topics) =>
    .error (helpOn topics)
  | some (command, args) =>
    let i := interface command
    let (inner, _) ← i.read {} args
    let inner ← inner.settle
    if !i.isFilled inner then .error (.usage .missingPlaces)
    let outer ← outer.settle
    pure
      { log := shared LogTarget.parse "log" .stderr outer inner
        format := shared Format.parse "format" .yaml outer inner
        action := actionOf command inner }

end Invocation

end WorkloadSpec.CommandLine
