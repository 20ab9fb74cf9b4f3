import Registrar.Command
import Registrar.CommandLine.Arguments
import Registrar.Config.Loader
import Registrar.Logging.Journal

/-!
# The program

One run from the command line to the exit code: the configuration is loaded, logging is set up, the
application is composed, and the command is carried out. What loading reports comes too early for
the journal, so it is reported once more afterwards. The first fault ends the run and is told with
all faults behind it.
-/

namespace Registrar

/-- What is left of a run. -/
structure Run where
  code : UInt8
  output : String
  /-- What is said about a failure. -/
  complaint : String
  journal : Option Journal
  /-- The events that the journal took. -/
  events : List Event
  surroundings : Surroundings

namespace Run

/-- Lines after the first are indented further. -/
def indentedBy (first later text : String) : String :=
  first ++ String.ofList (text.toList.flatMap fun c => if c = '\n' then c :: later.toList else [c])

/-- Causes get numbers if there are several. -/
def causes : List String → String
  | [] => ""
  | [cause] => "\n\nCaused by:\n" ++ indentedBy "    " "    " cause
  | several => "\n\nCaused by:\n" ++ "\n".intercalate (several.zipIdx.map fun (cause, i) =>
      indentedBy (Text.rightAligned 5 (toString i) ++ ": ") "       " cause)

def report (fault : Fault) : String := "Error: " ++ fault.message ++ causes fault.sources ++ "\n"

def stopped (s : Surroundings) : Stop → Run
  | .help place => ⟨0, place.helpPage, "", none, [], s⟩
  | .version => ⟨0, Place.versionLine, "", none, [], s⟩
  | .refused place fault => ⟨2, "", fault.report place, none, [], s⟩

def failed (fault : Fault) (journal : Option Journal) (events : List Event) (s : Surroundings) : Run :=
  ⟨1, "", report fault, journal, events, s⟩

end Run

namespace Application

def perform (a : Application) (request : Request) (out : Sink) : Except Fault Sink :=
  match request with
  | .listKeys json => a.listKeys json out
  | .check => a.check out
  | .showSurface kind => a.showSurface kind out

end Application

namespace Invocation

def loader (i : Invocation) : Loader :=
  match i.config with
  | some path => Loader.new.withPath path
  | none => .new

/-- The part of a run that has a journal. -/
def performWith (i : Invocation) (config : Config) (journal : Journal) (s : Surroundings) : Run :=
  let found := (i.loader.resolve s).toList.map (Loader.loadedEvent s)
  let (composed, application) := Application.new config
  let events := journal.admitted (.loggingInitialized journal.level :: found ++ composed)
  match application.bind (·.perform i.request .unbounded) with
  | .ok out => ⟨0, out.written, "", some journal, events, s⟩
  | .error fault => .failed fault (some journal) events s

def perform (i : Invocation) (s : Surroundings) : Run :=
  match (i.loader.load s).2 with
  | .error fault => .failed fault none [] s
  | .ok config =>
    match Journal.setUp false config.logging s with
    | (s, .error fault) => .failed fault none [] s
    | (s, .ok journal) => i.performWith config journal s

end Invocation

/-- Runs the program with the arguments of a command line. -/
def run (arguments : List String) (s : Surroundings) : Run :=
  match Invocation.read arguments with
  | .ok i => i.perform s
  | .error stop => .stopped s stop

end Registrar
