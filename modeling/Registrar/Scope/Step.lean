import Registrar.Scope.World

/-!
# Runs of scopes

A run is a list of steps on a world. A step of a run has an outcome whenever the requests that
providers and instances make come to an end within `depth`. What a disposal takes out of a scope is
in no order. When a list of steps is carried out, each disposal keeps to the order in which the
instances were stored; in `Runs` and `Reachable` it tells them in any order.
-/

namespace Registrar

inductive World.Step (H K P : Type) where
  | openScope (scope : H) (name : Option String) (registry : Registry K P)
  | call (maker : P)
  | create (registry : Registry K P) (key : K)
  | createAs (registry : Registry K P) (key : K) (type : TypeKey)
  | get (scope : H) (key : K)
  | getAs (scope : H) (key : K) (type : TypeKey)
  | remove (scope : H) (key : K)
  | clear (scope : H)
  | dispose (scope : H)

inductive World.Outcome (P V : Type) where
  | done
  | noScope
  | reply (reply : Reply P V)
  | removed (held : Option (Instance P V))
  | emptied (held : List (Instance P V))

namespace World

variable {H K P V : Type} [DecidableEq H] [DecidableEq K] [DecidableEq P] [Key K] [HasType V]

def Outcome.ofReply : Option (Reply P V) → Outcome P V
  | some r => .reply r
  | none => .noScope

def Outcome.ofRemoved : Option (Option (Instance P V)) → Outcome P V
  | some held => .removed held
  | none => .noScope

def Outcome.ofEmptied : Option (List (Instance P V)) → Outcome P V
  | some held => .emptied held
  | none => .noScope

def step (conduct : Conduct H K P V) (depth : Nat) (w : World H K P V) :
    Step H K P → Option (Outcome P V × World H K P V)
  | .openScope scope name registry => some (.done, w.openScope scope name registry)
  | .call maker => (call conduct (get conduct depth) none maker w).map fun (r, w) => (.reply r, w)
  | .create registry key => (create conduct depth registry key w).map fun (r, w) => (.reply r, w)
  | .createAs registry key type =>
    (create conduct depth registry key w).map fun (r, w) => (.reply (narrowReply key type r), w)
  | .get scope key => (get conduct depth scope key w).map fun (r, w) => (.ofReply r, w)
  | .getAs scope key type => (get conduct depth scope key w).map fun (r, w) =>
      (.ofReply (r.map (narrowReply key type)), w)
  | .remove scope key => let (held, w) := w.remove scope key; some (.ofRemoved held, w)
  | .clear scope => let (held, w) := w.clear scope; some (.ofEmptied held, w)
  | .dispose scope => (dispose conduct depth scope w).map fun (held, w) => (.ofEmptied held, w)

def run (conduct : Conduct H K P V) (depth : Nat) :
    List (Step H K P) → World H K P V → Option (List (Outcome P V) × World H K P V)
  | [], w => some ([], w)
  | s :: rest, w =>
    match w.step conduct depth s with
    | none => none
    | some (outcome, w) =>
      (run conduct depth rest w).map fun (outcomes, w) => (outcome :: outcomes, w)

/-- The steps from one world to another, each with what it came to, newest first. Disposals on the
way order what they tell as they like. -/
inductive Runs (conduct : Conduct H K P V) (w₀ : World H K P V) :
    List (Step H K P × Outcome P V) → World H K P V → Prop
  | refl : Runs conduct w₀ [] w₀
  | step {trace : List (Step H K P × Outcome P V)} {w w' : World H K P V} {depth : Nat}
      {s : Step H K P} {outcome : Outcome P V} :
      Runs conduct w₀ trace w → w.step conduct depth s = some (outcome, w') →
        Runs conduct w₀ ((s, outcome) :: trace) w'
  | disposeIn {trace : List (Step H K P × Outcome P V)} {w w' : World H K P V} {depth : Nat}
      {scope : H} {s : Scope K P V} {order held : List (Instance P V)} :
      Runs conduct w₀ trace w → w.findScope scope = some s → order.Perm s.cache.values →
        w.disposeIn conduct depth scope s order = some (held, w') →
          Runs conduct w₀ ((.dispose scope, .emptied held) :: trace) w'

/-- The worlds that come about, however each disposal on the way orders what it tells. -/
inductive Reachable (conduct : Conduct H K P V) : World H K P V → Prop
  | empty : Reachable conduct empty
  | step {w w' : World H K P V} {depth : Nat} {s : Step H K P} {outcome : Outcome P V} :
      Reachable conduct w → w.step conduct depth s = some (outcome, w') → Reachable conduct w'
  | disposeIn {w w' : World H K P V} {depth : Nat} {scope : H} {s : Scope K P V}
      {order held : List (Instance P V)} :
      Reachable conduct w → w.findScope scope = some s → order.Perm s.cache.values →
        w.disposeIn conduct depth scope s order = some (held, w') → Reachable conduct w'

/-- The events that a step added to the log. -/
def newEvents (before after : World H K P V) : List Event := after.log.drop before.log.length

end World

end Registrar
