import Registrar.Event
import Registrar.Registry.Entry
import Registrar.Table

/-!
# Builders

The one stage in which bindings are added. An addition that fails leaves the builder as it was and
reports nothing; one that succeeds reports exactly one event. The first failing entry of a list
ends its registration, and the entries before it stay.
-/

namespace Registrar

structure Builder (K P : Type) where
  policy : Policy
  bindings : Table K (Binding K P)

namespace Builder

variable {K P F : Type}

def new : Builder K P := ⟨.reject, .empty⟩

def withPolicy (b : Builder K P) (policy : Policy) : Builder K P := { b with policy }

def size (b : Builder K P) : Nat := b.bindings.size

def isEmpty (b : Builder K P) : Bool := b.bindings.isEmpty

variable [DecidableEq K] [Key K]

def contains (b : Builder K P) (key : K) : Bool := b.bindings.contains key

def add (b : Builder K P) (binding : Binding K P) : Except Fault (Builder K P × Event) := do
  binding.check
  let added := { b with bindings := b.bindings.insert binding.key binding }
  match b.bindings.find? binding.key with
  | none => .ok (added, .bindingRegistered (Key.name binding.key))
  | some previous =>
    match b.policy with
    | .reject => .error (.duplicateKey (Key.label binding.key))
    | .replace => .ok (added, .bindingReplaced (Key.name binding.key) previous.description)

/-- Adds bindings up to the first that fails. -/
def addAll (b : Builder K P) : List (Binding K P) → Builder K P × List Event × Option Fault
  | [] => (b, [], none)
  | binding :: rest =>
    match b.add binding with
    | .error fault => (b, [], some fault)
    | .ok (b, event) =>
      let (b, events, fault) := b.addAll rest
      (b, event :: events, fault)

def addEntries (b : Builder K P) (make : Furnished F → P) (settings : SettingsTable)
    (entries : List (Entry K F)) : Builder K P × List Event × Option Fault :=
  b.addAll (entries.map (·.toBinding make settings))

/-- Registers a whole list of entries, which is counted if none of them fails. -/
def registerEntries (b : Builder K P) (make : Furnished F → P) (settings : SettingsTable)
    (entries : List (Entry K F)) : Builder K P × List Event × Except Fault Nat :=
  match b.addEntries make settings entries with
  | (b, events, some fault) => (b, events, .error fault)
  | (b, events, none) => (b, events, .ok entries.length)

end Builder

end Registrar
