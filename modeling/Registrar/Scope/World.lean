import Registrar.Registry.Basic
import Registrar.Scope.Errand

/-!
# Scopes

A scope keeps one instance per key of its registry. All scopes of a program live in one world,
with the history of what happened to instances, newest first; the events of the log are read off
the history.

A request that finds nothing in the cache calls a provider, whose errand may make further
requests. `depth` bounds how deeply requests nest through providers: a request that would nest
deeper has no outcome. Two calls of one provider with the same number do not occur, so the number
of calls a provider has had is read off the history too.
-/

namespace Registrar

/-- What happens to instances, scope by scope. The calls of a provider are numbered from one on; the
purpose of a call is the request that it serves, if a scope needs the instance for itself. -/
inductive Happening (H K P V : Type) where
  | opened (scope : H) (name : String)
  | asked (scope : H) (key : K)
  | called (maker : P) (number : Nat)
  | produced (number : Nat) (purpose : Option (H × K)) (made : Instance P V)
  | shared (maker : P) (number : Nat) (purpose : Option (H × K)) (other : Instance P V)
  | stored (scope : H) (name : String) (key : K) (made : Instance P V)
  | confirmed (scope : H) (name : String) (key : K) (made : Instance P V)
  | discarded (scope : H) (name : String) (key : K) (made : Instance P V)
  | answered (scope : H) (key : K) (reply : Reply P V)
  | removed (scope : H) (key : K) (held : Instance P V)
  | cleared (scope : H) (name : String) (held : List (Instance P V))
  | drained (scope : H) (held : List (Instance P V))
  | notified (held : Instance P V)
  | disposed (scope : H) (name : String) (held : List (Instance P V))
  | abandoned (scope : H) (held : List (Instance P V))
  | reported (event : Event)

def Happening.event? [Key K] : Happening H K P V → Option Event
  | stored _ name key _ | confirmed _ name key _ => some (.instanceCreated name (Key.name key))
  | discarded _ name key _ => some (.duplicateDiscarded name (Key.name key))
  | cleared _ name held => some (.scopeCleared name held.length)
  | disposed _ name held => some (.scopeDisposed name held.length)
  | reported event => some event
  | _ => none

structure Scope (K P V : Type) where
  name : String
  registry : Registry K P
  cache : Table K (Instance P V)

structure World (H K P V : Type) where
  scopes : Table H (Scope K P V)
  produced : Nat
  history : List (Happening H K P V)

namespace World

variable {H K P V α : Type}

def empty : World H K P V := ⟨.empty, 0, []⟩

def record (w : World H K P V) (h : Happening H K P V) : World H K P V :=
  { w with history := h :: w.history }

/-- The events of the history, oldest first. -/
def log [Key K] (w : World H K P V) : List Event := w.history.reverse.filterMap (·.event?)

def callsOf [DecidableEq P] (w : World H K P V) (maker : P) : Nat :=
  w.history.countP fun h => match h with
    | .called p _ => p = maker
    | _ => false

def noticesOf (w : World H K P V) (held : Instance P V) : Nat :=
  w.history.countP fun h => match h with
    | .notified other => other.serial = held.serial
    | _ => false

/-- Whom a request is passed on to. -/
abbrev Responder (H K P V : Type) :=
  H → K → World H K P V → Option (Option (Reply P V) × World H K P V)

/-- Every request of an errand goes to `respond`, one after the other. -/
def carryOut (respond : Responder H K P V) :
    Errand H K (Reply P V) α → World H K P V → Option (α × World H K P V)
  | .done result, w => some (result, w)
  | .report event next, w => carryOut respond next (w.record (.reported event))
  | .request scope key next, w =>
    match respond scope key w with
    | none => none
    | some (reply, w) => carryOut respond (next reply) w

def findScope [DecidableEq H] (w : World H K P V) (scope : H) : Option (Scope K P V) :=
  w.scopes.find? scope

variable [DecidableEq H] [DecidableEq K] [DecidableEq P]

def setCache (w : World H K P V) (scope : H) (s : Scope K P V) (cache : Table K (Instance P V)) :
    World H K P V :=
  { w with scopes := w.scopes.insert scope { s with cache } }

/-- Opens a scope, in place of an earlier one under the same handle. -/
def openScope (scope : H) (name : Option String) (registry : Registry K P) (w : World H K P V) :
    World H K P V :=
  let name := name.getD "default"
  let w := match w.findScope scope with
    | some old => w.record (.abandoned scope old.cache.values)
    | none => w
  { w with scopes := w.scopes.insert scope ⟨name, registry, .empty⟩ }.record (.opened scope name)

/-- One call of a provider. -/
def call (conduct : Conduct H K P V) (respond : Responder H K P V) (purpose : Option (H × K))
    (maker : P) (w : World H K P V) : Option (Reply P V × World H K P V) :=
  let number := w.callsOf maker + 1
  match carryOut respond (conduct.produce maker number) (w.record (.called maker number)) with
  | none => none
  | some (.error fault, w) => some (.error fault, w)
  | some (.ok (.known other), w) => some (.ok other, w.record (.shared maker number purpose other))
  | some (.ok (.fresh value), w) =>
    let made : Instance P V := ⟨w.produced + 1, maker, value⟩
    some (.ok made, { w with produced := w.produced + 1 }.record (.produced number purpose made))

def createFrom [Key K] (conduct : Conduct H K P V) (respond : Responder H K P V)
    (purpose : Option (H × K)) (registry : Registry K P) (key : K) (w : World H K P V) :
    Option (Reply P V × World H K P V) :=
  match registry.binding key with
  | .error fault => some (.error fault, w)
  | .ok b => (call conduct respond purpose b.provider w).map fun (reply, w) =>
      (reply.mapError (.provider (Key.label b.key)), w)

/-- Keeps an instance, unless one has been stored under the key in the meantime; that one is handed
out then. -/
def store (scope : H) (key : K) (made : Instance P V) (w : World H K P V) :
    Instance P V × World H K P V :=
  match w.findScope scope with
  | none => (made, w)
  | some s =>
    match s.cache.find? key with
    | some earlier =>
      if earlier.serial = made.serial then (earlier, w.record (.confirmed scope s.name key made))
      else (earlier, w.record (.discarded scope s.name key made))
    | none =>
      (made, (w.setCache scope s (s.cache.insert key made)).record (.stored scope s.name key made))

/-- What an open scope replies to a request. -/
def fetch [Key K] (conduct : Conduct H K P V) (respond : Responder H K P V) (scope : H) (key : K)
    (s : Scope K P V) (w : World H K P V) : Option (Reply P V × World H K P V) :=
  match s.cache.find? key with
  | some held => some (.ok held, w)
  | none =>
    match createFrom conduct respond (some (scope, key)) s.registry key w with
    | none => none
    | some (.error fault, w) => some (.error fault, w)
    | some (.ok made, w) =>
      let (kept, w) := w.store scope key made
      some (.ok kept, w)

/-- A request, given who answers the requests that providers make in turn. -/
def getVia [Key K] (conduct : Conduct H K P V) (respond : Responder H K P V) :
    Responder H K P V := fun scope key w =>
  match w.findScope scope with
  | none => some (none, w)
  | some s =>
    (fetch conduct respond scope key s (w.record (.asked scope key))).map fun (reply, w) =>
      (some reply, w.record (.answered scope key reply))

/-- Requests that nest through at most `depth` providers. -/
def get [Key K] (conduct : Conduct H K P V) : Nat → Responder H K P V
  | 0 => getVia conduct fun _ _ _ => none
  | depth + 1 => getVia conduct (get conduct depth)

def create [Key K] (conduct : Conduct H K P V) (depth : Nat) (registry : Registry K P) (key : K)
    (w : World H K P V) : Option (Reply P V × World H K P V) :=
  createFrom conduct (get conduct depth) none registry key w

def remove (scope : H) (key : K) (w : World H K P V) : Option (Option (Instance P V)) × World H K P V :=
  match w.findScope scope with
  | none => (none, w)
  | some s =>
    match s.cache.find? key with
    | none => (some none, w)
    | some held =>
      (some (some held), (w.setCache scope s (s.cache.erase key)).record (.removed scope key held))

/-- Drops all instances of a scope without telling them. -/
def clear (scope : H) (w : World H K P V) : Option (List (Instance P V)) × World H K P V :=
  match w.findScope scope with
  | none => (none, w)
  | some s =>
    let held := s.cache.values
    (some held, (w.setCache scope s .empty).record (.cleared scope s.name held))

/-- Tells instances one after the other that they have been let go. -/
def notifyAll (conduct : Conduct H K P V) (respond : Responder H K P V) :
    List (Instance P V) → World H K P V → Option (World H K P V)
  | [], w => some w
  | held :: rest, w =>
    let number := w.noticesOf held + 1
    match carryOut respond (conduct.release held number) (w.record (.notified held)) with
    | none => none
    | some (_, w) => notifyAll conduct respond rest w

/-- Takes all instances out of a scope and tells them only then, in the given order, so that they may
use the scope again. -/
def disposeIn [Key K] (conduct : Conduct H K P V) (depth : Nat) (scope : H) (s : Scope K P V)
    (order : List (Instance P V)) (w : World H K P V) :
    Option (List (Instance P V) × World H K P V) :=
  let drained := (w.setCache scope s .empty).record (.drained scope order)
  (notifyAll conduct (get conduct depth) order drained).map fun w =>
    (order, w.record (.disposed scope s.name order))

/-- A disposal in the order in which the instances were stored. The cache of a scope has no order of
its own, so this is one of many; what is said of all of them is said of `disposeIn`. -/
def dispose [Key K] (conduct : Conduct H K P V) (depth : Nat) (scope : H) (w : World H K P V) :
    Option (Option (List (Instance P V)) × World H K P V) :=
  match w.findScope scope with
  | none => some (none, w)
  | some s =>
    (w.disposeIn conduct depth scope s s.cache.values).map fun (held, w) => (some held, w)

end World

/-- An instance whose value has the type that was asked for. -/
def narrowReply [HasType V] [Key K] (key : K) (type : TypeKey) : Reply P V → Reply P V
  | .error fault => .error fault
  | .ok held => (narrow key type held.value).map fun _ => held

def Scope.inspect [DecidableEq K] [Key K] (s : Scope K P V) : String :=
  "InstanceScope \x7b name: " ++ Text.quote s.name ++ ", cached: " ++ toString s.cache.size ++
    ", registry: " ++ s.registry.inspect ++ " \x7d"

end Registrar
