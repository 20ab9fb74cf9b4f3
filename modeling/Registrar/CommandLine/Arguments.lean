import Registrar.CommandLine.Help

/-!
# Reading the command line

The arguments are read from left to right, at the top up to the command and then at the place of
the command. An option that still waits for its value takes the next argument, unless that one
starts with a dash. Values are accepted late: the value of an option and the name of a surface are
pending until the next known option or the end, and only then found wrong. What is unknown is
refused at once. After a double dash nothing is an option.
-/

namespace Registrar

inductive Request where
  | listKeys (json : Bool)
  | check
  | showSurface (kind : SurfaceKind)
deriving DecidableEq, Repr

structure Invocation where
  config : Option String
  request : Request
deriving DecidableEq, Repr

/-- What can be wrong with a command line. -/
inductive UsageFault where
  | nothingGiven
  | commandMissing
  | unknownCommand (text : String)
  | unexpectedArgument (text : String)
  | unexpectedValue (text option : String)
  | valueMissing
  | repeated (option : String)
  | surfaceMissing
  | invalidSurface (text : String) (fault : Fault)

namespace UsageFault

def configName : String := "--config <CONFIG>"

def message : UsageFault → String
  | nothingGiven => Place.top.about
  | commandMissing => "error: 'mapkey' requires a subcommand but one was not provided"
  | unknownCommand text => "error: unrecognized subcommand '" ++ text ++ "'"
  | unexpectedArgument text => "error: unexpected argument '" ++ text ++ "' found"
  | unexpectedValue text option =>
    "error: unexpected value '" ++ text ++ "' for '" ++ option ++ "' found; no more were expected"
  | valueMissing => "error: a value is required for '" ++ configName ++ "' but none was supplied"
  | repeated option => "error: the argument '" ++ option ++ "' cannot be used multiple times"
  | surfaceMissing => "error: the following required arguments were not provided:\n  <SURFACE>"
  | invalidSurface text fault =>
    "error: invalid value '" ++ text ++ "' for '<SURFACE>': " ++ fault.message

/-- Wrong values are told without the usage of the place. -/
def usageOf (place : Place) : UsageFault → String
  | invalidSurface _ _ | valueMissing => ""
  | _ => "\n\n" ++ place.usage

/-- All that is said about a fault. -/
def report (place : Place) : UsageFault → String
  | nothingGiven => place.helpPage
  | fault => fault.message ++ fault.usageOf place ++ "\n\nFor more information, try '--help'.\n"

end UsageFault

/-- How reading ends early. -/
inductive Stop where
  | help (place : Place)
  | version
  | refused (place : Place) (fault : UsageFault)

/-- The looks of an argument. -/
inductive Token where
  | doubleDash
  | long (name : String) (value : Option String)
  | short (letters : List Char)
  | plain (text : String)
deriving DecidableEq, Repr

def Token.ofText (text : String) : Token :=
  match text.toList with
  | ['-', '-'] => .doubleDash
  | '-' :: '-' :: rest =>
    .long (String.ofList (rest.takeWhile (· ≠ '='))) (match rest.dropWhile (· ≠ '=') with
      | _ :: value => some (String.ofList value)
      | [] => none)
  | '-' :: first :: rest => .short (first :: rest)
  | _ => .plain text

/-- What has been read but not yet accepted. -/
inductive Pending where
  | config (value : Option String)
  | surface (text : String)
deriving DecidableEq, Repr

/-- What has been read at one place. -/
structure Gathered where
  config : Option String
  json : Bool
  surface : Option SurfaceKind
  pending : Option Pending
  plainOnly : Bool

namespace Gathered

def nothing : Gathered := ⟨none, false, none, none, false⟩

abbrev Accepted := Except UsageFault Gathered

def acceptConfig (g : Gathered) (value : Option String) : Accepted :=
  match value with
  | none => .error .valueMissing
  | some path =>
    if g.config.isSome then .error (.repeated UsageFault.configName)
    else if path = "" then .error .valueMissing
    else .ok { g with config := some path }

def settle (g : Gathered) : Accepted :=
  match g.pending with
  | none => .ok g
  | some (.config value) => { g with pending := none }.acceptConfig value
  | some (.surface text) =>
    match SurfaceKind.parse text with
    | .ok kind => .ok { g with pending := none, surface := some kind }
    | .error fault => .error (.invalidSurface text fault)

/-- Whether an option waits for its value. -/
def awaits (g : Gathered) : Bool := g.pending = some (.config none)

/-- The config option, whose value may be attached to it. -/
def takeConfig (g : Gathered) (attached : Option String) : Accepted := do
  let g ← g.settle
  match attached with
  | some path => g.acceptConfig (some path)
  | none => return { g with pending := some (.config none) }

def takeJson (g : Gathered) : Accepted := do
  let g ← g.settle
  if g.json then .error (.repeated "--json") else return { g with json := true }

/-- Ends the reading at a place, provided that what was pending is fine. -/
def stopWith (g : Gathered) (place : Place) (stop : Stop) : Except Stop α :=
  match g.settle with
  | .ok _ => .error stop
  | .error fault => .error (.refused place fault)

def located (place : Place) (result : Accepted) : Except Stop Gathered :=
  result.mapError (.refused place)

/-- An option that takes no value. -/
def flag (place : Place) (option : String) (value : Option String) (take : Except Stop Gathered) :
    Except Stop Gathered :=
  match value with
  | some text => .error (.refused place (.unexpectedValue text option))
  | none => take

def long (g : Gathered) (place : Place) (name : String) (value : Option String) :
    Except Stop Gathered :=
  if name = "config" then located place (g.takeConfig value)
  else if name = "help" then flag place "--help" value (g.stopWith place (.help place))
  else if name = "version" ∧ place = .top then
    flag place "--version" value (g.stopWith place .version)
  else if name = "json" ∧ place = .keys then flag place "--json" value (located place g.takeJson)
  else .error (.refused place (.unexpectedArgument ("--" ++ name)))

/-- The value behind the letter of an option; an equals sign in front of it is dropped. -/
def attachedValue : List Char → Option String
  | [] => none
  | '=' :: rest => some (String.ofList rest)
  | rest => some (String.ofList rest)

def short (g : Gathered) (place : Place) (letters : List Char) : Except Stop Gathered :=
  match letters with
  | [] => .ok g
  | 'c' :: rest => located place (g.takeConfig (attachedValue rest))
  | 'h' :: _ => g.stopWith place (.help place)
  | letter :: _ =>
    if letter = 'V' ∧ place = .top then g.stopWith place .version
    else .error (.refused place (.unexpectedArgument ("-" ++ letter.toString)))

/-- An argument that is no option and no value of one. -/
def positional (g : Gathered) (place : Place) (text : String) : Except Stop Gathered :=
  match place with
  | .top => .error (.refused place (if g.plainOnly ∧ (Place.command? text).isSome then
      .unexpectedArgument text else .unknownCommand text))
  | .surface =>
    if g.surface.isSome ∨ g.pending matches some (.surface _) then
      .error (.refused place (.unexpectedArgument text))
    else located place (g.settle.map ({ · with pending := some (.surface text) }))
  | _ => .error (.refused place (.unexpectedArgument text))

def argument (g : Gathered) (place : Place) (text : String) : Except Stop Gathered :=
  if g.plainOnly then g.positional place text
  else match Token.ofText text with
    | .doubleDash => .ok { g with plainOnly := true }
    | .long name value => g.long place name value
    | .short letters => g.short place letters
    | .plain text =>
      if g.awaits then .ok { g with pending := some (.config (some text)) }
      else g.positional place text

/-- Whether an argument can choose a command. -/
def choice? (g : Gathered) (text : String) : Option Place :=
  if g.plainOnly ∨ g.awaits then none else Place.command? text

def request (g : Gathered) : Place → Except UsageFault Request
  | .keys => .ok (.listKeys g.json)
  | .surface =>
    match g.surface with
    | some kind => .ok (.showSurface kind)
    | none => .error .surfaceMissing
  | _ => .ok .check

end Gathered

namespace Invocation

/-- The arguments after the help command lead from page to page. -/
def helpFor (place : Place) : List String → Stop
  | [] => .help place
  | text :: rest =>
    match (if place = .top then Place.command? text else none) with
    | some command => helpFor command rest
    | none => .refused place (.unknownCommand text)

/-- The arguments behind the command. -/
def readCommand (place : Place) (texts : List String) : Except Stop (Option String × Request) := do
  let g ← texts.foldlM (fun g text => g.argument place text) Gathered.nothing
  let g ← Gathered.located place g.settle
  return (g.config, ← (g.request place).mapError (.refused place))

/-- Ends the top of the command line without a command. -/
def withoutCommand (g : Gathered) : Stop :=
  match g.settle with
  | .error fault => .refused .top fault
  | .ok g => .refused .top (if g.config.isSome then .commandMissing else .nothingGiven)

def readFrom (g : Gathered) : List String → Except Stop Invocation
  | [] => .error (withoutCommand g)
  | text :: rest =>
    match g.choice? text with
    | some .help => .error (helpFor .top rest)
    | some place => do
      let (config, request) ← readCommand place rest
      let g ← Gathered.located .top g.settle
      return ⟨config.orElse fun _ => g.config, request⟩
    | none => do readFrom (← g.argument .top text) rest

def read (texts : List String) : Except Stop Invocation := readFrom .nothing texts

end Invocation

end Registrar
