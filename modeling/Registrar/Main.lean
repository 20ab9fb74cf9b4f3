import Registrar.Logging.Clock
import Registrar.Logging.Line
import Registrar.Program

/-!
# The outer layer

Gathers the surroundings that a run looks at, and carries out what is left of it: lines on both
outputs, and changes to the files of the log.
-/

namespace Registrar.Outside

/-- Content of a file, or a folder, if there is one of them at the path. -/
def look (path : String) : IO (Option DiskNode) := do
  try
    let place ← IO.FS.realPath path
    if ← place.isDir then return some .folder
    return some (.file (← IO.FS.readFile place))
  catch _ => return none

def plant (s : Surroundings) (path : String) : IO Surroundings := do
  let location := Disk.plainLocation s.folder path
  match ← look path with
  | some .folder => return { s with disk := s.disk.plantFolders location }
  | some (.file content) => return { s with disk := s.disk.plantFile location content }
  | none => return s

/-- Names of the files in a folder, the oldest first. -/
def filesByAge (folder : String) : IO (List String) := do
  try
    let entries ← (← IO.FS.realPath folder).readDir
    let aged ← entries.toList.mapM fun e => do
      let data ← e.path.metadata
      return (data.modified, e.fileName, data.type matches .file)
    let sorted := (aged.filter (·.2.2)).mergeSort fun a b => (compare a.1 b.1).isLE
    return sorted.map (·.2.1)
  catch _ => return []

def plantFolder (s : Surroundings) (folder : String) : IO Surroundings := do
  let s ← plant s folder
  let location := Disk.plainLocation s.folder folder
  let names ← filesByAge folder
  return { s with disk := names.foldl (fun d name => d.plantFile (location ++ [name]) "") s.disk }

/-- Variables whose names and values are well-formed texts. -/
def environment : IO (List (String × String)) := do
  let bytes ← IO.FS.readBinFile "/proc/self/environ"
  return (Text.splitAt 0 bytes.toList).filterMap fun part => do
    let text ← String.fromUTF8? (ByteArray.mk part.toArray)
    let name := text.toList.takeWhile (· ≠ '=')
    if name.length = text.length then none
    else return (String.ofList name, String.ofList (text.toList.drop (name.length + 1)))

/-- The moment at which the process started, as seconds and nanoseconds. -/
def now : IO (Nat × Nat) := do
  let data ← (← IO.FS.realPath "/proc/self/environ").metadata
  return (data.modified.sec.toNat, data.modified.nsec.toNat)

/-- The home folder of the first account in the table that belongs to the user of the process. -/
def accountHome : IO (Option String) := do
  try
    let status ← IO.FS.lines "/proc/self/status"
    let accounts ← IO.FS.lines "/etc/passwd"
    let user := status.toList.findSome? fun line =>
      if line.startsWith "Uid:" then (line.splitOn "\t")[1]? else none
    let account := (accounts.toList.map (·.splitOn ":")).find? fun fields =>
      user.isSome && fields[2]? = user
    return (account.bind (·[5]?)).filter (· ≠ "")
  catch _ => return none

def surroundings (seconds : Nat) : IO Surroundings := do
  let folder := ((← IO.currentDir).toString.splitOn "/").filter (· ≠ "")
  return ⟨Disk.empty.plantFolders folder, folder, ← environment, Clock.dateText seconds,
    ← accountHome⟩

/-- The surroundings together with all that the run of an invocation looks at. -/
def prepared (i : Invocation) (s : Surroundings) : IO Surroundings := do
  let s ← (i.loader.candidates s).foldlM plant s
  match (i.loader.load s).2 with
  | .ok config =>
    match config.logging.fileOutput with
    | some path => plantFolder s (DailyFile.beside path).folder
    | none => return s
  | .error _ => return s

/-- Brings the files of the log up to date. -/
def writeLog (path : String) (lines : String) (before after : Surroundings) : IO Unit := do
  let folder := (Path.parent? path).getD "/"
  let location := Disk.plainLocation before.folder folder
  for name in before.disk.filesIn location do
    if name ∉ after.disk.filesIn location then IO.FS.removeFile (Path.join folder name)
  IO.FS.createDirAll folder
  let handle ← IO.FS.Handle.mk path .append
  handle.putStr lines

/-- The console gets the lines of the log file, without the thread and the place in the source that
belong to its own lines. -/
def conclude (stamp : String) (before : Surroundings) (r : Run) : IO UInt32 := do
  match r.journal with
  | some j =>
    let lines := String.join (r.events.map fun e => e.line j.jsonFormat stamp ++ "\n")
    match j.file with
    | some path => writeLog path lines before r.surroundings
    | none => pure ()
    IO.eprint lines
  | none => pure ()
  IO.print r.output
  IO.eprint r.complaint
  return r.code.toUInt32

end Registrar.Outside

open Registrar in
def main (arguments : List String) : IO UInt32 := do
  let (seconds, nanoseconds) ← Outside.now
  let s ← Outside.surroundings seconds
  let s ← match Invocation.read arguments with
    | .ok i => Outside.prepared i s
    | .error _ => pure s
  Outside.conclude (Clock.stamp seconds nanoseconds) s (run arguments s)
