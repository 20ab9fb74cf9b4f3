import Registrar.Registry.Basic

/-!
# Runs of builders

A run is a list of steps on a builder. What a step offers is added up to the first binding that
fails; the bindings before it stay, and the policy in force is the one that was set last.
-/

namespace Registrar

inductive Builder.Step (K P : Type) where
  | withPolicy (policy : Policy)
  | register (key : K) (provider : P)
  /-- Registers a provider that serves further keys besides its own. -/
  | registerServing (key : K) (aliases : List K) (provider : P)
  | add (binding : Binding K P)
  | addAll (bindings : List (Binding K P))

namespace Builder

variable {K P : Type}

def Step.offers : Step K P → List (Binding K P)
  | .withPolicy _ => []
  | .register key provider => [.new key provider]
  | .registerServing key aliases provider => [(Binding.new key provider).withAliases aliases]
  | .add binding => [binding]
  | .addAll bindings => bindings

variable [DecidableEq K] [Key K]

def step (b : Builder K P) : Step K P → Builder K P × List Event × Option Fault
  | .withPolicy policy => (b.withPolicy policy, [], none)
  | s => b.addAll s.offers

def run (b : Builder K P) : List (Step K P) → Builder K P × List Event
  | [] => (b, [])
  | s :: rest =>
    let (b, events, _) := b.step s
    let (b, more) := b.run rest
    (b, events ++ more)

end Builder

/-- The registry that a run on a new builder leaves behind. -/
def Registry.ofSteps {K P : Type} [DecidableEq K] [Key K] (steps : List (Builder.Step K P)) :
    Registry K P :=
  (Builder.new.run steps).1.build.1

end Registrar
