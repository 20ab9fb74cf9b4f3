import Registrar.Key

/-!
# Types as keys

A type that serves as a key has an identity, by which it is told apart from all other types, and a
full name, which is for people and may be that of another type as well. In the name `::` ends each
step of a module path and `<` opens the generic arguments. The short name drops the path in front of
the head of the name and keeps the arguments as they are.
-/

namespace Registrar

structure TypeName where
  full : String
deriving DecidableEq, Repr

namespace TypeName

/-- How many characters the longest beginning has that ends in `::`, if there is one. -/
def pathLength : List Char → Option Nat
  | [] => none
  | c :: rest =>
    match pathLength rest with
    | some n => some (n + 1)
    | none => if c = ':' ∧ rest.head? = some ':' then some 2 else none

def headOf (name : List Char) : List Char := name.takeWhile (· ≠ '<')

def shorten (name : List Char) : List Char := name.drop ((pathLength (headOf name)).getD 0)

def short (t : TypeName) : String := String.ofList (shorten t.full.toList)

end TypeName

/-- Both parts come from one type, so keys of the same identity have the same name. -/
structure TypeKey extends TypeName where
  identity : Nat
deriving DecidableEq, Repr

namespace TypeKey

/-- Types come in the order of their names; the identity decides between types of one name. -/
instance : Ord TypeKey :=
  ⟨fun a b => (compare a.full b.full).then (compare a.identity b.identity)⟩

instance : Key TypeKey where
  label t := t.full
  name t := t.short
  inspect t := "TypeKey(" ++ Text.quote t.full ++ ")"
  objection _ := none

end TypeKey

/-- The types of the values of a family that shares one interface. -/
class HasType (V : Type) where
  typeOf : V → TypeKey

end Registrar
