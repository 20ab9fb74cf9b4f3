import Mathlib.Data.Finset.Dedup
import Mathlib.Data.Finset.Card
import Registrar.Proofs.Registry.Past

/-!
# Lookups after any run of a builder

Which additions succeed, and what the finished registry answers about keys that have a binding of
their own, both told from the past of the run.
-/

namespace Registrar

namespace Builder

variable {K P : Type} [DecidableEq K] [Key K]

/-- Under the policy that refuses, the keys of a past are distinct. -/
theorem admitted_keys_nodup {builder : Builder K P} {past : List (Binding K P)}
    (h : builder.Remembers past) (refusing : builder.policy = .reject)
    (distinct : (past.map (·.key)).Nodup) (bindings : List (Binding K P)) :
    ((past ++ builder.admitted bindings).map (·.key)).Nodup := by
  induction bindings generalizing builder past with
  | nil => simpa [admitted] using distinct
  | cons b rest ih =>
    rw [admitted]
    cases added : builder.add b with
    | error fault => simpa using distinct
    | ok result =>
      obtain ⟨next, event⟩ := result
      have following := h.of_add added
      obtain ⟨-, free, rfl⟩ := of_add_eq_ok added
      have absent : ∀ a ∈ past, a.key ≠ b.key := by
        rw [← latest_eq_none_iff, ← h.find?]
        exact free.resolve_right (by simp [refusing])
      have longer : ((past ++ [b]).map (·.key)).Nodup := by
        rw [List.map_append, List.nodup_append]
        refine ⟨distinct, by simp, ?_⟩
        intro x hx y hy
        obtain ⟨a, ha, rfl⟩ := List.mem_map.1 hx
        rw [List.map_singleton, List.mem_singleton] at hy
        rw [hy]
        exact absent a ha
      simpa [List.append_assoc] using ih following refusing longer

theorem accepted_keys_nodup {builder : Builder K P} {past : List (Binding K P)}
    (h : builder.Remembers past) (refusing : builder.policy = .reject)
    (distinct : (past.map (·.key)).Nodup) {steps : List (Step K P)}
    (unchanged : ∀ s ∈ steps, s ≠ .withPolicy .replace) :
    ((past ++ builder.accepted steps).map (·.key)).Nodup := by
  induction steps generalizing builder past with
  | nil => simpa [accepted] using distinct
  | cons s rest ih =>
    rw [List.forall_mem_cons] at unchanged
    have refusingNext : (builder.step s).1.policy = .reject := by
      cases s with
      | withPolicy policy =>
        cases policy with
        | reject => rfl
        | replace => exact absurd rfl unchanged.1
      | _ => exact (addAll_policy _ _).trans refusing
    have longer := admitted_keys_nodup h refusing distinct s.offers
    simpa [accepted, List.append_assoc] using ih (h.step s) refusingNext longer unchanged.2

end Builder

namespace Registry

variable {K P : Type} [DecidableEq K]

theorem size_eq_card (r : Registry K P) : r.size = r.keys.toFinset.card := by
  have nodup : r.keys.Nodup := r.bindings.nodup
  rw [List.toFinset_card_of_nodup nodup, keys, Table.keys, List.length_map]
  rfl

variable [Key K]

theorem bindings_find? (steps : List (Builder.Step K P)) (k : K) :
    (ofSteps steps).bindings.find? k = Builder.latest (Builder.new.accepted steps) k :=
  (Builder.remembers_run steps).find? k

theorem binding_of_latest {steps : List (Builder.Step K P)} {k : K} {b : Binding K P}
    (h : Builder.latest (Builder.new.accepted steps) k = some b) :
    (ofSteps steps).binding k = .ok b := by
  rw [binding, bindings_find?, h]

theorem mem_keys_iff {steps : List (Builder.Step K P)} {k : K} :
    k ∈ (ofSteps steps).keys ↔ ∃ b ∈ Builder.new.accepted steps, b.key = k := by
  rw [keys, Table.mem_keys_iff, bindings_find?]
  cases h : Builder.latest (Builder.new.accepted steps) k with
  | none =>
    rw [Builder.latest_eq_none_iff] at h
    simpa using h
  | some b =>
    have m := Builder.mem_of_latest h
    simp only [Option.some.injEq, exists_eq', true_iff]
    exact ⟨b, m⟩

theorem keys_toFinset (steps : List (Builder.Step K P)) :
    (ofSteps steps).keys.toFinset = ((Builder.new.accepted steps).map (·.key)).toFinset := by
  ext k
  rw [List.mem_toFinset, List.mem_toFinset, mem_keys_iff, List.mem_map]

/-- After any run of a new builder: an addition succeeds exactly if the binding is valid and its
key is free or may be replaced, and a failed one says which of these is missing and changes
nothing; the finished registry knows exactly the keys that were added, and serves under each the
latest binding, which is the first where replacing was never allowed. -/
theorem additions_and_lookups (steps : List (Builder.Step K P)) :
    let builder := (Builder.new.run steps).1
    let past := Builder.new.accepted steps
    let registry := ofSteps steps
    (∀ b : Binding K P,
      ((∃ result, builder.add b = .ok result) ↔
        b.Valid ∧ ((∀ earlier ∈ past, earlier.key ≠ b.key) ∨
          Builder.policyAfter .reject steps = .replace)) ∧
      (¬ b.Valid → ∃ reason, builder.add b = .error (.invalidArgument reason)) ∧
      (b.Valid → ∀ fault, builder.add b = .error fault →
        fault = .duplicateKey (Key.label b.key)) ∧
      (∀ fault, builder.add b = .error fault → ∀ s : Builder.Step K P, s.offers = [b] →
        builder.step s = (builder, [], some fault))) ∧
    (∀ k, registry.contains k = true ↔ ∃ b ∈ past, b.key = k) ∧
    (∀ k b, (past.filter (·.key = k)).getLast? = some b →
      registry.resolve k = .ok b.provider ∧ registry.describe k = some b.description) ∧
    ((∀ s ∈ steps, s ≠ .withPolicy .replace) → ∀ k b, past.find? (·.key = k) = some b →
      registry.resolve k = .ok b.provider ∧ registry.describe k = some b.description) ∧
    registry.keys.toFinset = (past.map (·.key)).toFinset ∧
    registry.size = (past.map (·.key)).toFinset.card := by
  intro builder past registry
  have served : ∀ k b, Builder.latest past k = some b →
      registry.resolve k = .ok b.provider ∧ registry.describe k = some b.description := by
    intro k b h
    have bound := binding_of_latest h
    exact ⟨by rw [resolve, bound]; rfl, by rw [describe, bound]⟩
  have remembers : builder.Remembers past := Builder.remembers_run steps
  have policy : builder.policy = Builder.policyAfter .reject steps :=
    Builder.run_policy Builder.new steps
  refine ⟨fun b => ⟨?_, builder.add_of_not_valid, fun valid fault => Builder.fault_of_add valid,
    fun fault failed s offers => ?_⟩, ?_, served, ?_, keys_toFinset steps, ?_⟩
  · rw [Builder.exists_add_eq_ok_iff, remembers.find?, Builder.latest_eq_none_iff, policy]
  · rw [Builder.step_of_offers offers, Builder.addAll, failed]
  · intro k
    rw [contains, Table.contains_iff]
    exact mem_keys_iff
  · intro unchanged k b first
    have distinct : (past.map (·.key)).Nodup := by
      simpa using Builder.accepted_keys_nodup Builder.remembers_new rfl (by simp) unchanged
    exact served k b (Builder.latest_of_find? distinct first)
  · rw [size_eq_card, keys_toFinset]

end Registry
end Registrar
