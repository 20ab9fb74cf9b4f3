import Mathlib.Data.Finset.Dedup
import Mathlib.Data.Finset.Card
import Registrar.Proofs.Table
import Registrar.Registry.Step

/-!
# The past of a builder

A builder is judged by its past: the bindings that were accepted, oldest first. Under each key it
holds the latest accepted binding of that key, so whatever is looked up in the finished registry is
answered from the past alone.
-/

namespace Registrar

namespace Binding

variable {K P : Type} [DecidableEq K] [Key K]

/-- A binding that can be added to an empty builder. -/
def Valid (b : Binding K P) : Prop :=
  Key.objection b.key = none ∧ ∀ a ∈ b.aliases, Key.objection a = none ∧ a ≠ b.key

theorem aliasObjection_eq_none_iff {key : K} {aliases : List K} :
    aliasObjection key aliases = none ↔ ∀ a ∈ aliases, Key.objection a = none ∧ a ≠ key := by
  induction aliases with
  | nil => simp [aliasObjection]
  | cons a rest ih =>
    rw [List.forall_mem_cons, ← ih, aliasObjection]
    cases Key.objection a with
    | some reason => simp
    | none =>
      by_cases h : a = key
      · simp [h]
      · simp [h]

theorem check_eq_ok_iff {b : Binding K P} : b.check = .ok () ↔ b.Valid := by
  rw [check, Valid, ← aliasObjection_eq_none_iff, objection]
  cases Key.objection b.key with
  | some reason => simp
  | none => cases aliasObjection b.key b.aliases <;> simp

theorem check_of_not_valid {b : Binding K P} (h : ¬ b.Valid) :
    ∃ reason, b.check = .error (.invalidArgument reason) := by
  rw [← check_eq_ok_iff, check] at h
  rw [check]
  cases hb : b.objection with
  | some reason => exact ⟨reason, rfl⟩
  | none => exact absurd (by rw [hb]) h

end Binding

namespace Builder

variable {K P : Type} [DecidableEq K]

/-- The latest binding of a past under a key. -/
def latest (past : List (Binding K P)) (k : K) : Option (Binding K P) :=
  (past.filter (·.key = k)).getLast?

theorem latest_append_singleton (past : List (Binding K P)) (b : Binding K P) (k : K) :
    latest (past ++ [b]) k = if k = b.key then some b else latest past k := by
  by_cases h : k = b.key
  · simp [latest, List.filter_append, h]
  · have h' : ¬ b.key = k := fun e => h e.symm
    simp [latest, List.filter_append, h, h']

theorem mem_of_latest {past : List (Binding K P)} {k : K} {b : Binding K P}
    (h : latest past k = some b) : b ∈ past ∧ b.key = k := by
  have m := List.mem_of_getLast? h
  simpa using m

theorem latest_eq_none_iff {past : List (Binding K P)} {k : K} :
    latest past k = none ↔ ∀ b ∈ past, b.key ≠ k := by
  simp [latest]

/-- Where keys are distinct, the first binding under a key is also the latest. -/
theorem latest_of_find? {past : List (Binding K P)} (distinct : (past.map (·.key)).Nodup) {k : K}
    {b : Binding K P} (h : past.find? (·.key = k) = some b) : latest past k = some b := by
  induction past with
  | nil => cases h
  | cons a rest ih =>
    rw [List.map_cons, List.nodup_cons] at distinct
    by_cases ha : a.key = k
    · have absent : rest.filter (·.key = k) = [] := by
        rw [List.filter_eq_nil_iff]
        intro c hc
        have ne : c.key ≠ k := fun e => distinct.1 (List.mem_map.2 ⟨c, hc, e.trans ha.symm⟩)
        simpa using ne
      simp only [List.find?_cons, ha, decide_true, Option.some.injEq] at h
      rw [latest, List.filter_cons_of_pos (by simpa using ha), absent, h]
      rfl
    · simp only [List.find?_cons, ha, decide_false] at h
      rw [latest, List.filter_cons_of_neg (by simpa using ha)]
      exact ih distinct.2 h

variable [Key K]

theorem add_of_not_valid (builder : Builder K P) {b : Binding K P} (h : ¬ b.Valid) :
    ∃ reason, builder.add b = .error (.invalidArgument reason) := by
  obtain ⟨reason, check⟩ := Binding.check_of_not_valid h
  exact ⟨reason, by rw [add, check]; rfl⟩

theorem add_of_absent {builder : Builder K P} {b : Binding K P} (valid : b.Valid)
    (absent : builder.bindings.find? b.key = none) :
    builder.add b = .ok ({ builder with bindings := builder.bindings.insert b.key b },
      .bindingRegistered (Key.name b.key)) := by
  rw [add, Binding.check_eq_ok_iff.2 valid, absent]
  rfl

theorem add_of_present {builder : Builder K P} {b previous : Binding K P} (valid : b.Valid)
    (present : builder.bindings.find? b.key = some previous) :
    builder.add b =
      match builder.policy with
      | .reject => .error (.duplicateKey (Key.label b.key))
      | .replace => .ok ({ builder with bindings := builder.bindings.insert b.key b },
          .bindingReplaced (Key.name b.key) previous.description) := by
  rw [add, Binding.check_eq_ok_iff.2 valid, present]
  rfl

theorem of_add_eq_ok {builder next : Builder K P} {b : Binding K P} {event : Event}
    (h : builder.add b = .ok (next, event)) :
    b.Valid ∧ (builder.bindings.find? b.key = none ∨ builder.policy = .replace) ∧
      next = { builder with bindings := builder.bindings.insert b.key b } := by
  by_cases valid : b.Valid
  · cases found : builder.bindings.find? b.key with
    | none =>
      rw [add_of_absent valid found] at h
      cases h
      exact ⟨valid, .inl rfl, rfl⟩
    | some previous =>
      rw [add_of_present valid found] at h
      cases policy : builder.policy with
      | reject => simp [policy] at h
      | replace =>
        simp only [policy, Except.ok.injEq, Prod.mk.injEq] at h
        exact ⟨valid, .inr rfl, h.1.symm⟩
  · obtain ⟨reason, failed⟩ := builder.add_of_not_valid valid
    rw [failed] at h
    cases h

theorem exists_add_eq_ok_iff {builder : Builder K P} {b : Binding K P} :
    (∃ result, builder.add b = .ok result) ↔
      b.Valid ∧ (builder.bindings.find? b.key = none ∨ builder.policy = .replace) := by
  constructor
  · rintro ⟨⟨next, event⟩, h⟩
    obtain ⟨valid, free, -⟩ := of_add_eq_ok h
    exact ⟨valid, free⟩
  · rintro ⟨valid, free⟩
    cases found : builder.bindings.find? b.key with
    | none => exact ⟨_, add_of_absent valid found⟩
    | some previous =>
      have policy : builder.policy = .replace := by simpa [found] using free
      rw [add_of_present valid found, policy]
      exact ⟨_, rfl⟩

theorem fault_of_add {builder : Builder K P} {b : Binding K P} {fault : Fault} (valid : b.Valid)
    (h : builder.add b = .error fault) : fault = .duplicateKey (Key.label b.key) := by
  cases found : builder.bindings.find? b.key with
  | none =>
    rw [add_of_absent valid found] at h
    cases h
  | some previous =>
    rw [add_of_present valid found] at h
    cases policy : builder.policy with
    | reject =>
      simp only [policy, Except.error.injEq] at h
      exact h.symm
    | replace => simp [policy] at h

/-- The bindings of a list that are added before the first that fails. -/
def admitted (builder : Builder K P) : List (Binding K P) → List (Binding K P)
  | [] => []
  | b :: rest =>
    match builder.add b with
    | .error _ => []
    | .ok (next, _) => b :: next.admitted rest

/-- All bindings that a run adds. -/
def accepted (builder : Builder K P) : List (Step K P) → List (Binding K P)
  | [] => []
  | s :: rest => builder.admitted s.offers ++ (builder.step s).1.accepted rest

/-- The policy in force after a run that starts under `policy`. -/
def policyAfter (policy : Policy) : List (Step K P) → Policy
  | [] => policy
  | .withPolicy later :: rest => policyAfter later rest
  | _ :: rest => policyAfter policy rest

/-- What a past says about the builder that has it. -/
structure Remembers (builder : Builder K P) (past : List (Binding K P)) : Prop where
  valid : ∀ b ∈ past, b.Valid
  find? : ∀ k, builder.bindings.find? k = latest past k

theorem remembers_new : (new : Builder K P).Remembers [] := ⟨by simp, fun _ => rfl⟩

theorem Remembers.withPolicy {builder : Builder K P} {past : List (Binding K P)}
    (h : builder.Remembers past) (policy : Policy) : (builder.withPolicy policy).Remembers past :=
  ⟨h.valid, h.find?⟩

theorem Remembers.of_add {builder next : Builder K P} {past : List (Binding K P)}
    {b : Binding K P} {event : Event} (h : builder.Remembers past)
    (added : builder.add b = .ok (next, event)) : next.Remembers (past ++ [b]) := by
  obtain ⟨valid, -, rfl⟩ := of_add_eq_ok added
  constructor
  · intro a ha
    rcases List.mem_append.1 ha with ha | ha
    · exact h.valid a ha
    · rw [List.mem_singleton.1 ha]
      exact valid
  · intro k
    rw [latest_append_singleton, Table.find?_insert, h.find?]

theorem addAll_policy (builder : Builder K P) (bindings : List (Binding K P)) :
    (builder.addAll bindings).1.policy = builder.policy := by
  induction bindings generalizing builder with
  | nil => rfl
  | cons b rest ih =>
    rw [addAll]
    cases h : builder.add b with
    | error fault => rfl
    | ok result =>
      obtain ⟨next, event⟩ := result
      obtain ⟨-, -, rfl⟩ := of_add_eq_ok h
      exact ih _

theorem Remembers.addAll {builder : Builder K P} {past : List (Binding K P)}
    (h : builder.Remembers past) (bindings : List (Binding K P)) :
    (builder.addAll bindings).1.Remembers (past ++ builder.admitted bindings) := by
  induction bindings generalizing builder past with
  | nil => simpa [Builder.addAll, admitted] using h
  | cons b rest ih =>
    rw [Builder.addAll, admitted]
    cases added : builder.add b with
    | error fault => simpa using h
    | ok result =>
      have following := ih (h.of_add added)
      simpa [List.append_assoc] using following

theorem step_of_offers {s : Step K P} {b : Binding K P} (h : s.offers = [b])
    (builder : Builder K P) : builder.step s = builder.addAll [b] := by
  cases s with
  | withPolicy policy => cases h
  | _ => rw [step, h]; simp

theorem Remembers.step {builder : Builder K P} {past : List (Binding K P)}
    (h : builder.Remembers past) (s : Step K P) :
    (builder.step s).1.Remembers (past ++ builder.admitted s.offers) := by
  cases s with
  | withPolicy policy => simpa [Builder.step, Step.offers, admitted] using h.withPolicy policy
  | _ => exact h.addAll _

theorem Remembers.run {builder : Builder K P} {past : List (Binding K P)}
    (h : builder.Remembers past) (steps : List (Step K P)) :
    (builder.run steps).1.Remembers (past ++ builder.accepted steps) := by
  induction steps generalizing builder past with
  | nil => simpa [Builder.run, accepted] using h
  | cons s rest ih =>
    have following := ih (h.step s)
    simpa [Builder.run, accepted, List.append_assoc] using following

theorem remembers_run (steps : List (Step K P)) :
    (new.run steps).1.Remembers (new.accepted steps) := by
  simpa using remembers_new.run steps

theorem run_policy (builder : Builder K P) (steps : List (Step K P)) :
    (builder.run steps).1.policy = policyAfter builder.policy steps := by
  induction steps generalizing builder with
  | nil => rfl
  | cons s rest ih =>
    rw [run]
    cases s with
    | withPolicy policy => exact ih _
    | _ =>
      refine (ih _).trans ?_
      rw [step, addAll_policy]
      · rfl
      · simp

end Builder
end Registrar
