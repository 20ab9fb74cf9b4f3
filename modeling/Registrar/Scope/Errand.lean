import Registrar.Event

/-!
# Errands

What a provider does before it answers, and what an instance does when it is let go: it may ask
scopes for instances, looking at each reply before it goes on, it may report events, and in the
end it has a result. A request to a scope that is not there is replied to with nothing.
-/

namespace Registrar

/-- `H` names scopes, `R` is what a scope replies, `α` the result. -/
inductive Errand (H K R α : Type) where
  | done (result : α)
  | request (scope : H) (key : K) (next : Option R → Errand H K R α)
  | report (event : Event) (next : Errand H K R α)

/-- An instance is told apart by its serial number and knows its provider. -/
structure Instance (P V : Type) where
  serial : Nat
  maker : P
  value : V
deriving DecidableEq

abbrev Reply (P V : Type) := Except Fault (Instance P V)

/-- What a call that succeeds comes to: an instance of its own, or one that is there already. -/
inductive Yield (P V : Type) where
  | fresh (value : V)
  | known (other : Instance P V)

/-- How every provider and every instance behaves. A provider is told how often it has been called
so far, this call included, and an instance how often it has been let go. -/
structure Conduct (H K P V : Type) where
  produce : P → Nat → Errand H K (Reply P V) (Except Fault (Yield P V))
  release : Instance P V → Nat → Errand H K (Reply P V) Unit

end Registrar
