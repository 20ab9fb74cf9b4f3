import Registrar.Disk.Basic

/-!
# Daily log files

A log is kept in one file per day, all in one folder and with one start of their names. The oldest
files of the log are deleted when the file of a day is opened, so that with the new one no more than
a given number are left. The folder is made only if the file cannot be opened without that.
-/

namespace Registrar

structure DailyFile where
  folder : String
  start : String
deriving DecidableEq, Repr

namespace DailyFile

def ending : String := "log"

/-- The log next to a path, named for its last component without the ending. -/
def beside (path : String) : DailyFile :=
  ⟨((Path.parent? path).filter (· ≠ "")).getD ".", (Path.fileStem? path).getD "mapkey"⟩

def nameOn (f : DailyFile) (date : String) : String := f.start ++ "." ++ date ++ "." ++ ending

def pathOn (f : DailyFile) (date : String) : String := Path.join f.folder (f.nameOn date)

/-- Whether a file in the folder counts as part of the log. -/
def owns (f : DailyFile) (name : String) : Bool :=
  f.start.toList.isPrefixOf name.toList && ending.toList.isSuffixOf name.toList

/-- How many of `count` files have to go before a new one is added. -/
def surplus (limit count : Nat) : Nat := count - (limit - 1)

/-- The files of the log that are deleted when at most `limit` may be left, of names in the order
of their age. -/
def outdated (f : DailyFile) (limit : Nat) (names : List String) : List String :=
  let own := names.filter f.owns
  own.take (surplus limit own.length)

def prune (f : DailyFile) (limit : Nat) (folder : Location) (d : Disk) : Disk :=
  match d.locate folder f.folder with
  | .ok there =>
    (f.outdated limit (d.filesIn there.location)).foldl
      (fun d name => d.delete (there.location ++ [name])) d
  | .error _ => d

/-- A fault of the disk while the file was opened. -/
def failed (what : String) (fault : DiskFault) : Fault :=
  .foreign (what ++ ": " ++ fault.text) (some fault.toFault)

def create (f : DailyFile) (date : String) (folder : Location) (d : Disk) : Except Fault Disk :=
  match d.touch folder (f.pathOn date) with
  | .ok d => .ok d
  | .error _ => do
    let d ← (d.makeFolders folder f.folder).mapError (failed "failed to create log directory")
    (d.touch folder (f.pathOn date)).mapError (failed "failed to create initial log file")

end DailyFile

end Registrar
