import Registrar.Fault
import Registrar.Key

/-!
# Bindings

A binding ties a key to the provider of its instances. It may carry a description and a list of
aliases, further keys that it serves as long as they have no binding of their own.
-/

namespace Registrar

structure Binding (K P : Type) where
  key : K
  provider : P
  describedAs : Option String
  aliases : List K

namespace Binding

variable {K P : Type}

def new (key : K) (provider : P) : Binding K P := ⟨key, provider, none, []⟩

def withDescription (b : Binding K P) (text : String) : Binding K P :=
  { b with describedAs := some text }

def withAliases (b : Binding K P) (more : List K) : Binding K P :=
  { b with aliases := b.aliases ++ more }

def description (b : Binding K P) : String := b.describedAs.getD "(no description)"

variable [Key K]

def inspect (b : Binding K P) : String :=
  let description := match b.describedAs with
    | some text => "Some(" ++ Text.quote text ++ ")"
    | none => "None"
  "Binding \x7b key: " ++ Key.inspect b.key ++ ", description: " ++ description ++ ", aliases: " ++
    Key.inspectList b.aliases ++ ", .. \x7d"

variable [DecidableEq K]

/-- The first thing that is wrong with the aliases of `key`, in their order. -/
def aliasObjection (key : K) : List K → Option String
  | [] => none
  | a :: rest =>
    match Key.objection a with
    | some reason =>
      some ("invalid alias '" ++ Key.name a ++ "' of '" ++ Key.name key ++ "': " ++ reason)
    | none =>
      if a = key then some ("binding '" ++ Key.name key ++ "' lists itself as an alias")
      else aliasObjection key rest

/-- What is wrong with a binding in itself, the key before the aliases. -/
def objection (b : Binding K P) : Option String :=
  match Key.objection b.key with
  | some reason => some ("invalid key '" ++ Key.name b.key ++ "': " ++ reason)
  | none => aliasObjection b.key b.aliases

def check (b : Binding K P) : Except Fault Unit :=
  match b.objection with
  | some reason => .error (.invalidArgument reason)
  | none => .ok ()

end Binding

end Registrar
