import Registrar.Text.Split

/-!
# Paths

A path is a text with slashes between its segments; one that starts with a slash is absolute.
Empty segments count for nothing and neither do single dots, but for one at the start of a relative
path.
-/

namespace Registrar.Path

def segments (path : String) : List String := (Text.splitAt '/' path.toList).map String.ofList

def isAbsolute (path : String) : Bool := path.toList.head? = some '/'

def isIdle (segment : String) : Bool := segment = "" || segment = "."

/-- The segments that count. The root counts as a segment of its own. -/
def components (path : String) : List String :=
  match segments path with
  | [] => []
  | first :: rest =>
    let later := rest.filter (!isIdle ·)
    if isAbsolute path then "/" :: later
    else if first = "" then later
    else first :: later

def join (base path : String) : String :=
  if isAbsolute path ∨ base = "" then path
  else if base.toList.getLast? = some '/' then base ++ path
  else base ++ "/" ++ path

def joinAll (base : String) (parts : List String) : String := parts.foldl join base

/-- Drops idle segments from the end of a path, given in reverse, but not its first segment. -/
def dropIdle : List String → List String
  | [] => []
  | [first] => [first]
  | segment :: rest => if isIdle segment then dropIdle rest else segment :: rest

def ofReversed (absolute : Bool) (reversed : List String) : String :=
  match reversed with
  | [""] => if absolute then "/" else ""
  | _ => "/".intercalate reversed.reverse

/-- The path without its last component, as it is written. -/
def parent? (path : String) : Option String :=
  match dropIdle (segments path).reverse with
  | [] => none
  | [""] => none
  | [_] => if isAbsolute path then none else some ""
  | _ :: rest => some (ofReversed (isAbsolute path) (dropIdle rest))

/-- The last component, if it is a name. -/
def fileName? (path : String) : Option String :=
  match (components path).getLast? with
  | some name => if name ∈ ["/", ".", ".."] then none else some name
  | none => none

/-- A name up to its last dot; a dot at its start does not count. -/
def stemOf (name : List Char) : List Char :=
  let reversed := name.reverse
  match reversed.dropWhile (· ≠ '.') with
  | [] => name
  | _ :: before => if before.isEmpty then name else before.reverse

def fileStem? (path : String) : Option String :=
  (fileName? path).map fun name => String.ofList (stemOf name.toList)

/-- Leaves out what two paths begin with. -/
def dropCommon : List String → List String → List String × List String
  | a :: as, b :: bs => if a = b then dropCommon as bs else (a :: as, b :: bs)
  | as, bs => (as, bs)

def ofComponents (parts : List String) : String := joinAll "" parts

/-- An absolute path as seen from a folder, if it is shorter so. -/
def seenFrom (folder path : String) : String :=
  let whole := components path
  let (rest, above) := dropCommon whole (components folder)
  let relative := above.map (fun _ => "..") ++ rest
  if relative.length < whole.length then ofComponents relative else path

end Registrar.Path
