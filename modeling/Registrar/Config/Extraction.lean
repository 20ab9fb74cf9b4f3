import Registrar.Config.Basic
import Registrar.Config.Value

/-!
# From values to a configuration

The members of a dictionary are read in the order of their names, and the first that does not fit
ends the reading. Members without a meaning are passed over, and what is not there keeps its
default. A list may stand for a group of options; its items are then the options in the order in
which the group declares them.
-/

namespace Registrar

inductive Problem where
  | invalidType (found expected : String)
  | invalidValue (found expected : String)
  | unknownVariant (found : String) (expected : List String)
deriving DecidableEq, Repr

def Problem.text : Problem → String
  | invalidType found expected => "invalid type: found " ++ found ++ ", expected " ++ expected
  | invalidValue found expected => "invalid value " ++ found ++ ", expected " ++ expected
  | unknownVariant found expected =>
    "unknown variant: found `" ++ found ++ "`, expected `" ++
      " or ".intercalate (expected.map fun name => "`" ++ name ++ "`") ++ "`"

/-- A value that does not fit, where it stands, and the source that gave it. -/
structure Mismatch where
  problem : Problem
  path : List String
  origin : Origin
deriving DecidableEq, Repr

abbrev Extracted := Except Mismatch

namespace Extraction

/-- Adds a step in front of the path of a mismatch. -/
def inside (step : String) (result : Extracted α) : Extracted α :=
  result.mapError fun m => { m with path := step :: m.path }

def mistyped (v : Value) (expected : String) : Extracted α :=
  .error ⟨.invalidType v.found expected, [], v.origin⟩

def readText (v : Value) : Extracted String :=
  match v with
  | .scalar _ (.text s) => .ok s
  | .scalar _ (.letter c) => .ok c.toString
  | _ => mistyped v "a string"

def readTruth (v : Value) : Extracted Bool :=
  match v with
  | .scalar _ (.truth b) => .ok b
  | _ => mistyped v "a boolean"

def readCount (v : Value) : Extracted UInt64 :=
  match v with
  | .scalar _ (.unsigned n) => .ok (.ofNat n)
  | .scalar o (.signed i) =>
    if 0 ≤ i then .ok (.ofNat i.toNat) else .error ⟨.invalidValue v.found "usize", [], o⟩
  | _ => mistyped v "usize"

def readPath (v : Value) : Extracted (Option String) :=
  match v with
  | .scalar _ .nothing => .ok none
  | .scalar _ (.text s) => .ok (some s)
  | .scalar _ (.letter c) => .ok (some c.toString)
  | _ => mistyped v "path string"

def policyNamed (o : Origin) (name : String) : Extracted Policy :=
  match Policy.ofName? name with
  | some policy => .ok policy
  | none => .error ⟨.unknownVariant name (Policy.all.map Policy.name), [], o⟩

/-- A policy is given by its name, which may also be the name of a member without a value. -/
def readPolicy (v : Value) : Extracted Policy :=
  match v with
  | .scalar o (.text name) => policyNamed o name
  | .dict _ [] => mistyped v "enum"
  | .dict o ((name, inner) :: _) => inside name do
    let policy ← policyNamed o name
    match inner with
    | .scalar _ .nothing => .ok policy
    | _ => mistyped inner "unit"
  | _ => mistyped v "enum DuplicatePolicy"

/-- A group of options, each of which is read into `α` by its name. -/
structure Group (α : Type) where
  expected : String
  names : List String
  set : String → Value → α → Extracted α

namespace Group

variable {α : Type}

def setMembers (g : Group α) (options : α) : Value.Members → Extracted α
  | [] => .ok options
  | (name, v) :: rest => do g.setMembers (← inside name (g.set name v options)) rest

def setItems (g : Group α) (options : α) : Nat → List String → List Value → Extracted α
  | i, name :: names, v :: rest => do
    g.setItems (← inside (toString i) (g.set name v options)) (i + 1) names rest
  | _, _, _ => .ok options

def read (g : Group α) (options : α) (v : Value) : Extracted α :=
  match v with
  | .dict _ members => g.setMembers options members
  | .list _ items => g.setItems options 0 g.names items
  | _ => mistyped v g.expected

end Group

def registryGroup : Group RegistryOptions where
  expected := "struct RegistryConfig"
  names := ["duplicate_policy", "require_complete"]
  set
    | "duplicate_policy", v, options => do return { options with duplicatePolicy := ← readPolicy v }
    | "require_complete", v, options => do return { options with requireComplete := ← readTruth v }
    | _, _, options => .ok options

def loggingGroup : Group LoggingOptions where
  expected := "struct LoggingConfig"
  names := ["level", "json_format", "file_output", "max_files"]
  set
    | "level", v, options => do return { options with level := ← readText v }
    | "json_format", v, options => do return { options with jsonFormat := ← readTruth v }
    | "file_output", v, options => do return { options with fileOutput := ← readPath v }
    | "max_files", v, options => do return { options with maxFiles := ← readCount v }
    | _, _, options => .ok options

/-- A dictionary with members of one sort. -/
def readDict (read : Value → Extracted α) (v : Value) : Extracted (Dict α) :=
  match v with
  | .dict _ members =>
    members.foldlM (fun d (name, inner) => do return d.insert name (← inside name (read inner))) .empty
  | _ => mistyped v "a map"

def configGroup : Group Config where
  expected := "struct AppConfig"
  names := ["registry", "logging", "settings"]
  set
    | "registry", v, c => do return { c with registry := ← registryGroup.read c.registry v }
    | "logging", v, c => do return { c with logging := ← loggingGroup.read c.logging v }
    | "settings", v, c => do return { c with settings := ← readDict (readDict readText) v }
    | _, _, c => .ok c

end Extraction

/-- The configuration that a dictionary of merged values gives. -/
def Config.extract (members : Value.Members) : Extracted Config :=
  Extraction.configGroup.setMembers .defaults members

end Registrar
