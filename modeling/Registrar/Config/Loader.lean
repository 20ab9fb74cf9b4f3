import Registrar.Config.Environment
import Registrar.Config.Extraction
import Registrar.Disk.Basic
import Registrar.Document.Reader
import Registrar.Document.Writer
import Registrar.Event

/-!
# Loading and saving configurations

A configuration comes from its defaults, from a document and from the environment, of which the
later wins. The document is the one that was asked for or else the first that exists among four
places; whether it was found is reported. A source that cannot be read, or a value that does not
fit, is a fault; and so is a configuration that is not accepted.
-/

namespace Registrar

structure Loader where
  path : Option String
  variableStart : String
deriving DecidableEq, Repr

namespace Loader

def new : Loader := ⟨none, "MAPKEY"⟩

def withPath (l : Loader) (path : String) : Loader := { l with path := some path }

def withVariableStart (l : Loader) (text : String) : Loader := { l with variableStart := text }

def fileName : String := "mapkey.toml"
def folderName : String := "mapkey"

/-- What the account says counts only if the variable is missing or empty. -/
def home? (s : Surroundings) : Option String :=
  ((s.valueOf? "HOME").filter (· ≠ "")).orElse fun _ => s.accountHome

def configHome? (s : Surroundings) : Option String :=
  ((s.valueOf? "XDG_CONFIG_HOME").filter (Path.isAbsolute ·)).orElse fun _ =>
    (home? s).map (Path.join · ".config")

/-- Where a document is looked for, in this order. -/
def places (s : Surroundings) : List String :=
  [some (Path.join s.folderPath fileName),
    some (Path.joinAll s.folderPath [folderName, fileName]),
    (configHome? s).map (Path.joinAll · [folderName, fileName]),
    (home? s).map (Path.joinAll · ["." ++ folderName, fileName])].reduceOption

/-- The document that is read: the one asked for, there or not, or the first that exists. -/
def resolve (l : Loader) (s : Surroundings) : Option String :=
  l.path.orElse fun _ => (places s).find? s.exists?

/-- All paths at which the document may lie. -/
def candidates (l : Loader) (s : Surroundings) : List String :=
  match l.path with
  | some path => s.readingPaths path
  | none => places s

def loadedEvent (s : Surroundings) (path : String) : Event :=
  if s.exists? path then .configurationLoaded path else .configurationMissing path

def malformed : Fault := .foreign "TOML parse error" none

/-- What the document holds, with the path that faults in it name. A folder holds nothing. -/
def readDocument (s : Surroundings) (path : String) : Except Fault (Value.Members × String) :=
  if s.exists? path then
    match s.fileFor? path with
    | none => .ok ([], "")
    | some (whole, content) =>
      match Document.read content with
      | some members => .ok (members, Path.seenFrom s.folderPath whole)
      | none => .error malformed
  else .ok ([], "")

/-- How a mismatch names the place of its value. -/
def placeText (documentPath start : String) (m : Mismatch) : String :=
  match m.origin with
  | .environment =>
    " for key " ++ Text.quote (".".intercalate (m.path.map String.toUpper)) ++ " in `" ++
      start.toUpper ++ "` environment variable(s)"
  | _ =>
    " for key " ++ Text.quote (".".intercalate ("default" :: m.path)) ++ " in " ++ documentPath ++
      " TOML file"

def mismatchFault (documentPath start : String) (m : Mismatch) : Fault :=
  .foreign (m.problem.text ++ placeText documentPath start m) none

def extracting (fault : Fault) : Fault := .inConfiguration "Failed to extract configuration" fault

/-- All sources together, before the configuration is checked. -/
def gather (l : Loader) (s : Surroundings) : Except Fault Config := do
  let (document, documentPath) ← (match l.resolve s with
    | some path => readDocument s path
    | none => .ok ([], "")).mapError extracting
  let start := l.variableStart ++ "_"
  let members := Value.mergeMembers document (Environment.read start s.environment)
  (Config.extract members).mapError fun m => extracting (mismatchFault documentPath start m)

def load (l : Loader) (s : Surroundings) : List Event × Except Fault Config :=
  ((l.resolve s).toList.map (loadedEvent s), do
    let c ← l.gather s
    c.check
    return c)

/-- Writes the document of a configuration. -/
def save (c : Config) (path : String) (s : Surroundings) : Except Fault Surroundings :=
  match s.disk.write s.folder path (Document.write c) with
  | .ok disk => .ok { s with disk }
  | .error fault => .error (.onDisk "Failed to write config file" fault.toFault)

end Loader

end Registrar
