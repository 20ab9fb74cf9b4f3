import Registrar.Key.TypeName
import Registrar.Registry.Builder
import Registrar.Text.Order

/-!
# Registries

A registry is what a builder leaves behind: the bindings, and an index from each alias to the keys
of the bindings that list it, once per time they list it. A key is served by its own binding, or
else by the single entry that the index has for it.
-/

namespace Registrar

structure Registry (K P : Type) where
  bindings : Table K (Binding K P)
  aliases : Table K (List K)

namespace Registry

variable {K P : Type}

def size (r : Registry K P) : Nat := r.bindings.size

def isEmpty (r : Registry K P) : Bool := r.bindings.isEmpty

def keys (r : Registry K P) : List K := r.bindings.keys

variable [DecidableEq K]

/-- Files `owner` under one more alias. -/
def fileAlias (owner : K) (index : Table K (List K)) (a : K) : Table K (List K) :=
  index.insert a ((index.find? a).getD [] ++ [owner])

def fileAliases (index : Table K (List K)) (b : Binding K P) : Table K (List K) :=
  b.aliases.foldl (fileAlias b.key) index

def ofBindings (bindings : Table K (Binding K P)) : Registry K P :=
  ⟨bindings, bindings.values.foldl fileAliases .empty⟩

variable [Key K]

def sortedLabels (r : Registry K P) : List String := Text.sort (Key.labels r.keys)

def sortedBindings (r : Registry K P) : List (Binding K P) :=
  Text.sortBy (fun b => Key.label b.key) r.bindings.values

def unknown (r : Registry K P) (key : K) : Fault := .unknownKey (Key.label key) r.sortedLabels

def binding (r : Registry K P) (key : K) : Except Fault (Binding K P) :=
  match r.bindings.find? key with
  | some b => .ok b
  | none =>
    match (r.aliases.find? key).getD [] with
    | [] => .error (r.unknown key)
    | [owner] =>
      match r.bindings.find? owner with
      | some b => .ok b
      | none => .error (r.unknown key)
    | owners => .error (.ambiguousKey (Key.label key) (Text.sort (Key.labels owners)))

def resolve (r : Registry K P) (key : K) : Except Fault P := (r.binding key).map (·.provider)

/-- An instance from the provider of the binding that serves `key`. A provider's own failure is
told under the label of that binding. -/
def create (provide : P → Except Fault V) (r : Registry K P) (key : K) : Except Fault V := do
  let b ← r.binding key
  (provide b.provider).mapError (.provider (Key.label b.key))

def contains (r : Registry K P) (key : K) : Bool := r.bindings.contains key

def serves (r : Registry K P) (key : K) : Bool := (r.binding key).isOk

def describe (r : Registry K P) (key : K) : Option String :=
  match r.binding key with
  | .ok b => some b.description
  | .error _ => none

def unserved (r : Registry K P) (expected : List K) : List K :=
  (expected.filter (!r.serves ·)).eraseDups

def ensureCovers (r : Registry K P) (expected : List K) : Except Fault Unit :=
  match r.unserved expected with
  | [] => .ok ()
  | missing => .error (.incompleteRegistry (Text.sort (Key.labels missing)))

def inspect (r : Registry K P) : String :=
  "KeyedRegistry \x7b keys: " ++ Text.quoteList r.sortedLabels ++ ", aliases: " ++
    toString r.aliases.size ++ " \x7d"

end Registry

/-- Ends the building of a registry. -/
def Builder.build [DecidableEq K] (b : Builder K P) : Registry K P × Event :=
  (.ofBindings b.bindings, .registryBuilt b.size b.policy)

def Registry.ensureComplete [DecidableEq K] [ClosedKey K] (r : Registry K P) : Except Fault Unit :=
  r.ensureCovers ClosedKey.variants

/-- The value itself, provided that it has the type that was asked for under `key`. -/
def narrow [HasType V] [Key K] (key : K) (type : TypeKey) (value : V) : Except Fault V :=
  if HasType.typeOf value = type then .ok value
  else .error (.typeMismatch (Key.label key) type.full)

end Registrar
