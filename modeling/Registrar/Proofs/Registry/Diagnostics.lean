import Registrar.Proofs.Registry.Reordering
import Registrar.Proofs.Registry.Representation
import Registrar.Proofs.Scope.Course

/-!
# What a registry says is there

The keys of a registry are listed by their labels in two ways, from the map that holds the bindings
and from the bindings themselves. Replacing a binding changes what the map holds and leaves its key
in place. As every binding is kept under its own key, the two lists are the same, and it is this list
that a lookup shows when it finds a key to be unknown.
-/

namespace Registrar

variable {H K P V : Type}

/-- The step looks a key up in the registry, at once or through a scope over it. -/
inductive World.Step.LooksUp [DecidableEq H] (w : World H K P V) (r : Registry K P) (k : K) :
    World.Step H K P → Prop
  | create : LooksUp w r k (.create r k)
  | createAs (type : TypeKey) : LooksUp w r k (.createAs r k type)
  | get {scope : H} {s : Scope K P V} (found : w.findScope scope = some s) (same : s.registry = r) :
    LooksUp w r k (.get scope k)
  | getAs {scope : H} {s : Scope K P V} (found : w.findScope scope = some s) (same : s.registry = r)
    (type : TypeKey) : LooksUp w r k (.getAs scope k type)

namespace Registry

variable [Key K]

/-- A fault that calls a key unknown names the key that was asked for and lists all that are there. -/
def Tells (r : Registry K P) (k : K) (fault : Fault) : Prop :=
  ∀ name available, fault = .unknownKey name available →
    name = Key.label k ∧ available = r.sortedLabels

variable {r : Registry K P} {k : K} {fault : Fault}

theorem tells_provider (name : String) (source : Fault) : r.Tells k (.provider name source) := by
  rintro _ _ ⟨⟩

/-- Looking at the type of an instance adds mismatches alone. -/
theorem tells_of_narrowReply [HasType V] {type : TypeKey} {reply : Reply P V}
    (plain : ∀ fault, reply = .error fault → r.Tells k fault)
    (narrowed : narrowReply k type reply = .error fault) : r.Tells k fault := by
  cases reply with
  | error other =>
    cases narrowed
    exact plain fault rfl
  | ok x =>
    rw [narrowReply, narrow] at narrowed
    split at narrowed
    · cases narrowed
    · cases narrowed
      rintro _ _ ⟨⟩

variable [DecidableEq K]

/-- Every lookup that fails does so telling: in the registry itself, by creating an instance, by a
request to a scope over the registry, whoever makes it, and by any step of a run. -/
structure Informs (r : Registry K P) : Prop where
  binding : ∀ k fault, r.binding k = .error fault → r.Tells k fault
  resolve : ∀ k fault, r.resolve k = .error fault → r.Tells k fault
  create : ∀ {V : Type} (provide : P → Except Fault V) (k : K) (fault : Fault),
    r.create provide k = .error fault → r.Tells k fault
  requests : ∀ {H V : Type} [DecidableEq H] [DecidableEq P] (conduct : Conduct H K P V)
    (depth : Nat) (w w' : World H K P V) (scope : H) (s : Scope K P V) (k : K) (fault : Fault),
    w.findScope scope = some s → s.registry = r →
      World.get conduct depth scope k w = some (some (.error fault), w') → r.Tells k fault
  steps : ∀ {H V : Type} [DecidableEq H] [DecidableEq P] [HasType V] (conduct : Conduct H K P V)
    (depth : Nat) (w w' : World H K P V) (step : World.Step H K P) (k : K) (fault : Fault),
    step.LooksUp w r k → w.step conduct depth step = some (.reply (.error fault), w') →
      r.Tells k fault

theorem tells_of_binding (failed : r.binding k = .error fault) : r.Tells k fault := by
  obtain ⟨b, -, served⟩ | unknown | ⟨candidates, ambiguous⟩ := r.binding_cases k
  · rw [served] at failed
    cases failed
  · rw [unknown] at failed
    cases failed
    rintro _ _ ⟨⟩
    exact ⟨rfl, rfl⟩
  · rw [ambiguous] at failed
    cases failed
    rintro _ _ ⟨⟩

theorem tells_of_create {provide : P → Except Fault V} (failed : r.create provide k = .error fault) :
    r.Tells k fault := by
  cases found : r.binding k with
  | error fault =>
    rw [create, found] at failed
    cases failed
    exact tells_of_binding found
  | ok b =>
    obtain ⟨source, -, rfl⟩ := (create_eq_error_iff found).1 failed
    exact tells_provider _ source

section Worlds

variable [DecidableEq H] [DecidableEq P] {conduct : Conduct H K P V} {depth : Nat}
variable {w w' : World H K P V}

theorem tells_of_world_create
    (failed : World.create conduct depth r k w = some (.error fault, w')) : r.Tells k fault := by
  cases found : r.binding k with
  | error fault =>
    rw [World.create, World.createFrom, found] at failed
    cases failed
    exact tells_of_binding found
  | ok b =>
    obtain ⟨source, -, rfl⟩ := of_create_eq_error found failed
    exact tells_provider _ source

theorem tells_of_get {scope : H} {s : Scope K P V} (found : w.findScope scope = some s)
    (failed : World.get conduct depth scope k w = some (some (.error fault), w')) :
    s.registry.Tells k fault := by
  rw [World.get_eq] at failed
  obtain ⟨reply, w₁, e, -, course⟩ := World.of_getVia found failed
  cases e
  cases course with
  | unserved absent unbound => exact tells_of_binding unbound
  | failed absent bound ran => exact tells_provider _ _

variable [HasType V]

theorem tells_of_step {step : World.Step H K P} (looks : step.LooksUp w r k)
    (failed : w.step conduct depth step = some (.reply (.error fault), w')) : r.Tells k fault := by
  cases looks with
  | create =>
    obtain ⟨⟨reply, w₁⟩, created, e⟩ := Option.map_eq_some_iff.1 failed
    cases e
    exact tells_of_world_create created
  | createAs type =>
    obtain ⟨⟨reply, w₁⟩, created, e⟩ := Option.map_eq_some_iff.1 failed
    obtain ⟨narrowed, -⟩ := Prod.mk.inj e
    refine tells_of_narrowReply ?_ (World.Outcome.reply.inj narrowed)
    rintro other rfl
    exact tells_of_world_create created
  | get found same =>
    subst same
    obtain ⟨⟨_ | reply, w₁⟩, answered, e⟩ := Option.map_eq_some_iff.1 failed
    · cases e
    · cases e
      exact tells_of_get found answered
  | getAs found same type =>
    subst same
    obtain ⟨⟨_ | reply, w₁⟩, answered, e⟩ := Option.map_eq_some_iff.1 failed
    · cases e
    · obtain ⟨narrowed, -⟩ := Prod.mk.inj e
      refine tells_of_narrowReply ?_ (World.Outcome.reply.inj narrowed)
      rintro other rfl
      exact tells_of_get found answered

end Worlds

theorem informs (r : Registry K P) : r.Informs where
  binding _ _ := tells_of_binding
  resolve k fault failed := by
    cases found : r.binding k with
    | error other =>
      rw [resolve, found] at failed
      cases failed
      exact tells_of_binding found
    | ok b =>
      rw [resolve, found] at failed
      cases failed
  create _ _ _ := tells_of_create
  requests _ _ _ _ _ _ _ _ found same failed := same ▸ tells_of_get found failed
  steps _ _ _ _ _ _ _ := tells_of_step

omit [DecidableEq K] [Key K] in
theorem keys_eq_map (own : ∀ e ∈ r.bindings.entries, e.2.key = e.1) :
    r.keys = r.bindings.values.map (·.key) := by
  rw [keys, Table.keys, Table.values, List.map_map]
  exact List.map_congr_left fun e kept => (own e kept).symm

omit [DecidableEq K] in
theorem sortedLabels_eq_map (own : ∀ e ∈ r.bindings.entries, e.2.key = e.1) :
    r.sortedLabels = r.sortedBindings.map fun b => Key.label b.key := by
  rw [sortedLabels, sortedBindings, Text.map_sortBy, keys_eq_map own, Key.labels, List.map_map]
  rfl

/-- The registry of a run keeps every binding under its own key, in whatever order. -/
theorem Rearranges.own {steps : List (Builder.Step K P)} (arranged : r.Rearranges (ofSteps steps)) :
    ∀ e ∈ r.bindings.entries, e.2.key = e.1 := by
  intro e kept
  have found := Table.mem_entries_iff.1 (arranged.bindings.mem_iff.1 kept)
  exact (consistent_ofSteps steps).own e.1 e.2 found

/-- The labels of the keys of a registry, in the order of their bytes, are those of its sorted
bindings one by one, whatever bindings were replaced while it was built and in whatever order its
maps are gone through. There are as many of them as there are bindings. A lookup that finds its key
to be unknown shows this list. -/
theorem diagnostics_agree {steps : List (Builder.Step K P)} {r : Registry K P}
    (arranged : r.Rearranges (ofSteps steps)) :
    r.sortedLabels.Pairwise (fun a b => Text.bytes a ≤ Text.bytes b) ∧
    r.sortedLabels.Perm (Key.labels r.keys) ∧
    r.sortedBindings.Perm r.bindings.values ∧
    r.sortedLabels = r.sortedBindings.map (fun b => Key.label b.key) ∧
    r.sortedLabels.length = r.size ∧
    r.sortedLabels = (ofSteps steps).sortedLabels ∧
    r.Informs := by
  refine ⟨?_, Text.sort_perm _, Text.sortBy_perm _ _, sortedLabels_eq_map arranged.own, ?_,
    arranged.sortedLabels_eq, r.informs⟩
  · simp only [Text.bytes_le_iff]
    exact Text.sort_ascending _
  · have labels := (Text.sort_perm (Key.labels r.keys)).length_eq
    rwa [Key.labels, List.length_map, keys, Table.keys, List.length_map] at labels

/-- A binding is replaced, by one with another provider and another alias. -/
def overwriting : List (Builder.Step String Nat) :=
  [.withPolicy .replace, .add ⟨"q", 0, none, ["a"]⟩, .add ⟨"p", 1, none, []⟩,
    .add ⟨"q", 2, none, ["b"]⟩]

/-- The same bindings, gone through the other way round. -/
def turned : Registry String Nat :=
  .ofBindings ⟨[("p", ⟨"p", 1, none, []⟩), ("q", ⟨"q", 2, none, ["b"]⟩)], by decide⟩

theorem diagnostics_of_turned : turned.Rearranges (ofSteps overwriting) ∧
    (ofSteps overwriting).keys = ["q", "p"] ∧ turned.keys = ["p", "q"] ∧
    (ofSteps overwriting).sortedLabels = ["p", "q"] ∧
    turned.sortedBindings.map (·.key) = ["p", "q"] ∧
    turned.binding "a" = .error (.unknownKey "a" (ofSteps overwriting).sortedLabels) := by
  have entries : (ofSteps overwriting).bindings.entries =
      [("q", ⟨"q", 2, none, ["b"]⟩), ("p", ⟨"p", 1, none, []⟩)] := by cbv
  have arranged : turned.Rearranges (ofSteps overwriting) :=
    ⟨by rw [entries]; exact .swap _ _ _, turned.bindings, by rw [entries]; exact .swap _ _ _, .refl _⟩
  obtain ⟨-, -, -, same, -, listed, informs⟩ := diagnostics_agree arranged
  have labels : turned.sortedLabels = ["p", "q"] := by cbv
  refine ⟨arranged, by cbv, by cbv, listed.symm.trans labels, same.symm.trans labels, ?_⟩
  have failed : turned.binding "a" = .error (.unknownKey "a" ["p", "q"]) := by cbv
  obtain ⟨-, available⟩ := informs.binding "a" _ failed _ _ rfl
  rw [failed, ← listed, ← available]

end Registry
end Registrar
