import Registrar.Proofs.Scope.Runs

/-!
# What a run is seen to do

Removals, clearings and disposals return the instances that they take out. So what the history tells
about them can be read off the outcomes of the steps as well.
-/

namespace Registrar

open History

variable {H K P V : Type}

theorem Happening.fated_of_not_taking {h : Happening H K P V} {fate : Fate} (still : ¬h.Taking)
    (kept : fate ≠ .discarded) : h.fated fate = [] := by
  cases fate with
  | discarded => exact absurd rfl kept
  | _ => cases h <;> first | rfl | exact absurd trivial still

theorem History.flatMap_fated_append {newer older : List (Happening H K P V)} {fate : Fate}
    (still : ∀ h ∈ newer, ¬h.Taking) (kept : fate ≠ .discarded) :
    (newer ++ older).flatMap (·.fated fate) = older.flatMap (·.fated fate) := by
  have none : newer.flatMap (·.fated fate) = [] := by
    rw [List.flatMap_eq_nil_iff]
    intro h mem
    exact Happening.fated_of_not_taking (still h mem) kept
  rw [List.flatMap_append, none, List.nil_append]

namespace World

/-- The instances that a step is seen to take out, given its outcome. -/
def Step.fated (fate : Fate) (s : Step H K P) (outcome : Outcome P V) : List (Instance P V) :=
  match fate, s, outcome with
  | .handedBack, .remove _ _, .removed held => held.toList
  | .cleared, .clear _, .emptied held => held
  | .disposed, .dispose _, .emptied held => held
  | _, _, _ => []

variable [DecidableEq H] {conduct : Conduct H K P V} {w w' : World H K P V} {fate : Fate}

theorem Extends.flatMap_fated (extended : w.Extends w') (kept : fate ≠ .discarded) :
    w'.history.flatMap (·.fated fate) = w.history.flatMap (·.fated fate) := by
  obtain ⟨newer, e, passing⟩ := extended.history
  rw [e]
  exact flatMap_fated_append (fun h mem => (passing h mem).not_taking) kept

/-- A fate that can be seen from outside. -/
def Seen (fate : Fate) : Prop := fate ≠ .discarded ∧ fate ≠ .dropped

theorem flatMap_fated_openScope (seen : Seen fate) (scope : H) (name : Option String)
    (registry : Registry K P) : (w.openScope scope name registry).history.flatMap (·.fated fate) =
      w.history.flatMap (·.fated fate) := by
  obtain ⟨-, held⟩ := seen
  unfold openScope
  cases w.findScope scope with
  | none => cases fate <;> rfl
  | some old => cases fate <;> first | exact absurd rfl held | rfl

theorem flatMap_fated_clear (w : World H K P V) (scope : H) :
    (w.clear scope).2.history.flatMap (·.fated fate) =
      Step.fated fate (.clear scope : Step H K P) (.ofEmptied (w.clear scope).1) ++
        w.history.flatMap (·.fated fate) := by
  unfold clear
  cases w.findScope scope with
  | none => cases fate <;> rfl
  | some s => cases fate <;> rfl

variable [DecidableEq K]

theorem flatMap_fated_remove (w : World H K P V) (scope : H) (key : K) :
    (w.remove scope key).2.history.flatMap (·.fated fate) =
      Step.fated fate (.remove scope key : Step H K P) (.ofRemoved (w.remove scope key).1) ++
        w.history.flatMap (·.fated fate) := by
  unfold remove
  cases w.findScope scope with
  | none => cases fate <;> rfl
  | some s =>
    dsimp only
    cases s.cache.find? key with
    | none => cases fate <;> rfl
    | some held => cases fate <;> rfl

variable [DecidableEq P] [Key K]

theorem flatMap_fated_disposeIn {depth : Nat} {scope : H} {s : Scope K P V}
    {order held : List (Instance P V)} (rest : AtRest conduct w) (kept : fate ≠ .discarded)
    (found : w.findScope scope = some s) (all : order.Perm s.cache.values)
    (disposed : w.disposeIn conduct depth scope s order = some (held, w')) :
    w'.history.flatMap (·.fated fate) =
      Step.fated fate (.dispose scope : Step H K P) (.emptied held) ++
        w.history.flatMap (·.fated fate) := by
  obtain ⟨w₁, told, e⟩ := Option.map_eq_some_iff.1 disposed
  cases e
  obtain ⟨-, -, -, newer, grown, telling⟩ :=
    (rest.drain found all).notifyAll (get_faithful conduct depth) (List.append_nil _).symm told
  have told : w₁.history.flatMap (·.fated fate) =
      ((w.setCache scope s .empty).record (.drained scope order)).history.flatMap
        (·.fated fate) := by
    rw [grown]
    exact flatMap_fated_append telling.still kept
  change Happening.fated fate (.disposed scope s.name order) ++
    w₁.history.flatMap (·.fated fate) = _
  rw [told]
  cases fate <;> first | exact absurd rfl kept | rfl

variable [HasType V]

theorem flatMap_fated_step {depth : Nat} {s : Step H K P} {outcome : Outcome P V}
    (rest : AtRest conduct w) (seen : Seen fate)
    (stepped : w.step conduct depth s = some (outcome, w')) :
    w'.history.flatMap (·.fated fate) =
      s.fated fate outcome ++ w.history.flatMap (·.fated fate) := by
  cases s with
  | openScope scope name registry =>
    cases stepped
    rw [flatMap_fated_openScope seen]
    cases fate <;> rfl
  | remove scope key =>
    cases stepped
    exact flatMap_fated_remove w scope key
  | clear scope =>
    cases stepped
    exact flatMap_fated_clear w scope
  | dispose scope =>
    obtain ⟨⟨held, w₁⟩, ended, e⟩ := Option.map_eq_some_iff.1 stepped
    cases e
    obtain ⟨-, rfl, rfl⟩ | ⟨s, told, found, rfl, disposed⟩ := dispose_cases ended
    · cases fate <;> rfl
    · exact flatMap_fated_disposeIn rest seen.1 found (.refl _) disposed
  | _ =>
    obtain ⟨-, extended⟩ := rest.toInOrder.asks stepped trivial
    rw [extended.flatMap_fated seen.1]
    cases fate <;> rfl

/-- What the history tells of a fate is what the steps have returned. -/
theorem Runs.flatMap_fated {w₀ : World H K P V} {trace : List (Step H K P × Outcome P V)}
    (begins : Reachable conduct w₀) (seen : Seen fate) (runs : Runs conduct w₀ trace w) :
    w.history.flatMap (·.fated fate) =
      trace.flatMap (fun s => s.1.fated fate s.2) ++ w₀.history.flatMap (·.fated fate) := by
  induction runs with
  | refl => rfl
  | step runs stepped ih =>
    have rest := (runs.reachable begins).atRest
    rw [flatMap_fated_step rest seen stepped, ih, List.flatMap_cons, List.append_assoc]
  | disposeIn runs found all disposed ih =>
    have rest := (runs.reachable begins).atRest
    rw [flatMap_fated_disposeIn rest seen.1 found all disposed, ih, List.flatMap_cons,
      List.append_assoc]

end World

end Registrar
