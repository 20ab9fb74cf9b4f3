import Registrar.Decimal.Double
import Registrar.Text.Quoted

/-!
# Configuration values

What a source of configuration holds: scalars, lists, and dictionaries whose members ascend by
name. Each value remembers the source it came from. In a merge the later source wins, except that
two dictionaries are merged member by member.
-/

namespace Registrar

inductive Origin where
  | defaults | document | environment
deriving DecidableEq, Repr

inductive Scalar where
  | nothing
  | text (s : String)
  | letter (c : Char)
  | truth (b : Bool)
  | signed (i : Int)
  | unsigned (n : Nat)
  | real (d : Double)
deriving DecidableEq, Repr

inductive Value where
  | scalar (origin : Origin) (s : Scalar)
  | list (origin : Origin) (items : List Value)
  | dict (origin : Origin) (members : List (String × Value))

namespace Value

abbrev Members := List (String × Value)

def origin : Value → Origin
  | scalar o _ | list o _ | dict o _ => o

/-- Writes a member in its place among ascending names. -/
def insertMember (name : String) (value : Value) : Members → Members
  | [] => [(name, value)]
  | (x, y) :: rest =>
    if name < x then (name, value) :: (x, y) :: rest
    else if x < name then (x, y) :: insertMember name value rest
    else (name, value) :: rest

def member? (members : Members) (name : String) : Option Value := members.lookup name

mutual

def merge (earlier later : Value) : Value :=
  match later with
  | dict o members =>
    match earlier with
    | dict _ base => dict o (mergeMembers base members)
    | _ => dict o members
  | other => other

def mergeMembers (base : Members) : Members → Members
  | [] => base
  | (name, value) :: rest =>
    let merged := match member? base name with
      | some earlier => merge earlier value
      | none => value
    mergeMembers (insertMember name merged base) rest

end

/-- One value at the end of a path of dictionaries. -/
def nest (o : Origin) : List String → Value → Value
  | [], value => value
  | name :: path, value => dict o [(name, nest o path value)]

/-- How a value is spoken of where another kind of value was expected. -/
def found : Value → String
  | scalar _ .nothing => "unit"
  | scalar _ (.text s) => "string " ++ Text.quote s
  | scalar _ (.letter c) => "string " ++ Text.quote c.toString
  | scalar _ (.truth b) => if b then "bool true" else "bool false"
  | scalar _ (.signed i) => "signed int `" ++ toString i ++ "`"
  | scalar _ (.unsigned n) => "unsigned int `" ++ toString n ++ "`"
  | scalar _ (.real d) => "float `" ++ d.text ++ "`"
  | list _ _ => "sequence"
  | dict _ _ => "map"

end Value

end Registrar
