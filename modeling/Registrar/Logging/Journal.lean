import Registrar.Config.Basic
import Registrar.Logging.DailyFile
import Registrar.Logging.Filter

/-!
# Journals

Where the events of a program go once logging has been set up: through a filter to the console and,
if the options name one, to a log file. A variable with a filter goes before the configured level,
which has to be a level all the same. A process has one journal only.
-/

namespace Registrar

structure Journal where
  filter : Filter
  level : Severity
  jsonFormat : Bool
  /-- The path of the log file. -/
  file : Option String

namespace Journal

def filterVariable : String := "MAPKEY_LOG"

def chooseFilter (given : Option String) (level : Severity) : Filter :=
  (given.bind Filter.read).getD (.ofLevel level)

def admitted (j : Journal) (events : List Event) : List Event :=
  events.filter fun e => j.filter.admits e.metadata

/-- Opens the log file that the options ask for. Old files are deleted before anything can fail. -/
def openFile (path : String) (limit : Nat) (s : Surroundings) : Surroundings × Except Fault String :=
  let file := DailyFile.beside path
  let pruned := file.prune (max limit 1) s.folder s.disk
  match file.create s.today s.folder pruned with
  | .ok disk => ({ s with disk }, .ok (file.pathOn s.today))
  | .error fault => ({ s with disk := pruned },
      .error (.inConfiguration ("Failed to open log directory " ++ file.folder) fault))

def openFile? (options : LoggingOptions) (s : Surroundings) :
    Surroundings × Except Fault (Option String) :=
  match options.fileOutput with
  | none => (s, .ok none)
  | some path =>
    match openFile path options.maxFiles.toNat s with
    | (s, .ok file) => (s, .ok (some file))
    | (s, .error fault) => (s, .error fault)

/-- There is a journal in the process already. -/
def occupied : Fault :=
  .inConfiguration "Failed to install tracing subscriber"
    (.foreign "a global default trace dispatcher has already been set" none)

/-- Sets up logging. A log file stays open on the disk even if another journal is in the way. -/
def setUp (taken : Bool) (options : LoggingOptions) (s : Surroundings) :
    Surroundings × Except Fault Journal :=
  match Severity.parse options.level with
  | .error fault => (s, .error fault)
  | .ok level =>
    match openFile? options s with
    | (s, .error fault) => (s, .error fault)
    | (s, .ok file) =>
      if taken then (s, .error occupied)
      else (s, .ok ⟨chooseFilter (s.valueOf? filterVariable) level, level, options.jsonFormat, file⟩)

end Journal

end Registrar
