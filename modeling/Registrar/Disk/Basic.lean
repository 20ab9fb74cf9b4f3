import Registrar.Disk.Path
import Registrar.Fault

/-!
# Disks

A disk is a tree of folders and files. A path leads to a location step by step: every segment but
the last has to be an existing folder, and two dots lead back to the folder above. What the last
segment names may be missing.
-/

namespace Registrar

inductive DiskNode where
  | file (content : String)
  | folder
deriving DecidableEq, Repr

/-- The names on the way from the root. -/
abbrev Location := List String

structure Disk where
  nodes : List (Location × DiskNode)

inductive DiskFault where
  | missing | alreadyThere | notFolder | isFolder | nameTooLong | zeroByte
deriving DecidableEq, Repr

def DiskFault.text : DiskFault → String
  | missing => "No such file or directory (os error 2)"
  | alreadyThere => "File exists (os error 17)"
  | notFolder => "Not a directory (os error 20)"
  | isFolder => "Is a directory (os error 21)"
  | nameTooLong => "File name too long (os error 36)"
  | zeroByte => "file name contained an unexpected NUL byte"

def DiskFault.toFault (f : DiskFault) : Fault := .foreign f.text none

/-- Where a path leads. After a slash at its end, only a folder will do. -/
structure Destination where
  location : Location
  folderOnly : Bool
deriving DecidableEq, Repr

namespace Disk

def empty : Disk := ⟨[]⟩

def node? (d : Disk) (l : Location) : Option DiskNode :=
  if l = [] then some .folder else d.nodes.lookup l

def isFolderAt (d : Disk) (l : Location) : Bool := d.node? l = some .folder

def put (d : Disk) (l : Location) (n : DiskNode) : Disk :=
  ⟨if (d.nodes.lookup l).isSome then d.nodes.map fun e => if e.1 = l then (l, n) else e
    else d.nodes ++ [(l, n)]⟩

def delete (d : Disk) (l : Location) : Disk := ⟨d.nodes.filter (·.1 ≠ l)⟩

/-- Steps through the segments of a path, from an existing folder. -/
def walk (d : Disk) : Location → List String → Except DiskFault Destination
  | here, [] => .ok ⟨here, true⟩
  | here, segment :: rest =>
    if segment = "" ∨ segment = "." then d.walk here rest
    else if segment = ".." then d.walk here.dropLast rest
    else if 255 < segment.utf8ByteSize then .error .nameTooLong
    else
      let there := here ++ [segment]
      match rest with
      | [] => .ok ⟨there, false⟩
      | _ =>
        match d.node? there with
        | some .folder => d.walk there rest
        | some (.file _) => .error .notFolder
        | none => if rest.all (· = "") then .ok ⟨there, true⟩ else .error .missing

def locate (d : Disk) (folder : Location) (path : String) : Except DiskFault Destination :=
  if path.toList.contains '\x00' then .error .zeroByte
  else if path = "" then .error .missing
  else d.walk (if Path.isAbsolute path then [] else folder) (Path.segments path)

def look (d : Disk) (folder : Location) (path : String) : Except DiskFault DiskNode := do
  let there ← d.locate folder path
  match d.node? there.location with
  | some node => .ok node
  | none => .error .missing

def exists? (d : Disk) (folder : Location) (path : String) : Bool := (d.look folder path).isOk

def isFolder (d : Disk) (folder : Location) (path : String) : Bool :=
  match d.look folder path with
  | .ok .folder => true
  | _ => false

def content? (d : Disk) (folder : Location) (path : String) : Option String :=
  match d.look folder path with
  | .ok (.file content) => some content
  | _ => none

/-- The location of a file that can be written at a path. -/
def writable (d : Disk) (folder : Location) (path : String) : Except DiskFault Location := do
  let there ← d.locate folder path
  if there.folderOnly ∨ d.isFolderAt there.location then .error .isFolder
  else .ok there.location

/-- Replaces or makes a file. -/
def write (d : Disk) (folder : Location) (path content : String) : Except DiskFault Disk :=
  (d.writable folder path).map fun l => d.put l (.file content)

/-- Makes a file unless it is there. -/
def touch (d : Disk) (folder : Location) (path : String) : Except DiskFault Disk :=
  (d.writable folder path).map fun l =>
    if (d.node? l).isSome then d else d.put l (.file "")

def makeFolder (d : Disk) (folder : Location) (path : String) : Except DiskFault Disk := do
  let there ← d.locate folder path
  if (d.node? there.location).isSome then .error .alreadyThere
  else .ok (d.put there.location .folder)

/-- Makes a folder, or fails unless there is a folder at the path already. -/
def ensureFolder (d : Disk) (folder : Location) (path : String) : Except DiskFault Disk :=
  match d.makeFolder folder path with
  | .ok d => .ok d
  | .error fault => if d.isFolder folder path then .ok d else .error fault

/-- As `makeFolders`, if at most `fuel` folders are missing. -/
def makeFoldersWithin (d : Disk) (folder : Location) : Nat → String → Except DiskFault Disk
  | 0, _ => .error .missing
  | fuel + 1, path =>
    if path = "" then .ok d
    else match d.ensureFolder folder path with
      | .error .missing =>
        match Path.parent? path with
        | none => .error .missing
        | some above => do (← d.makeFoldersWithin folder fuel above).ensureFolder folder path
      | result => result

/-- Makes a folder with all folders above it. -/
def makeFolders (d : Disk) (folder : Location) (path : String) : Except DiskFault Disk :=
  d.makeFoldersWithin folder ((Path.segments path).length + 1) path

def filesIn (d : Disk) (l : Location) : List String :=
  d.nodes.filterMap fun e =>
    match e.2 with
    | .file _ => if e.1.dropLast = l then e.1.getLast? else none
    | .folder => none

/-- Paths from a location of all files somewhere below it. -/
def filesBelow (d : Disk) (l : Location) : List (String × String) :=
  d.nodes.filterMap fun e =>
    match e.2 with
    | .file content =>
      if l.length < e.1.length ∧ l.isPrefixOf e.1 then
        some ("/".intercalate (e.1.drop l.length), content)
      else none
    | .folder => none

/-- The folders on the way to a location, and itself. -/
def wayTo (l : Location) : List Location := (List.range (l.length + 1)).map l.take

/-- All folders on the way to a location. -/
def plantFolders (d : Disk) (l : Location) : Disk :=
  (wayTo l).foldl (fun d above => if (d.node? above).isSome then d else d.put above .folder) d

def plantFile (d : Disk) (l : Location) (content : String) : Disk :=
  (d.plantFolders l.dropLast).put l (.file content)

/-- The location that a path names in its text alone. -/
def plainLocation (folder : Location) (path : String) : Location :=
  (Path.segments path).foldl
    (fun here segment =>
      if Path.isIdle segment then here else if segment = ".." then here.dropLast else here ++ [segment])
    (if Path.isAbsolute path then [] else folder)

end Disk

/-- What a program finds around it: a disk, the folder it works in, variables, the date, and the home
folder that the account of its user has, if it has one. -/
structure Surroundings where
  disk : Disk
  folder : Location
  environment : List (String × String)
  today : String
  accountHome : Option String := none

namespace Surroundings

def folderPath (s : Surroundings) : String := "/" ++ "/".intercalate s.folder

def valueOf? (s : Surroundings) (name : String) : Option String := s.environment.lookup name

def exists? (s : Surroundings) (path : String) : Bool := s.disk.exists? s.folder path

/-- Where a path may lead when it is read: an absolute one as it stands, any other one from the
working folder or from a folder above it, the nearest first. -/
def readingPaths (s : Surroundings) (path : String) : List String :=
  if Path.isAbsolute path then [path]
  else (Disk.wayTo s.folder).reverse.map fun folder => Path.join ("/" ++ "/".intercalate folder) path

/-- The file that a path means when it is read, with its whole path. -/
def fileFor? (s : Surroundings) (path : String) : Option (String × String) :=
  (s.readingPaths path).findSome? fun whole => (s.disk.content? [] whole).map (whole, ·)

end Surroundings

end Registrar
