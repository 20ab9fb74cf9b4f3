import Registrar.Proofs.Scope.Course
import Registrar.Proofs.Scope.Requests
import Registrar.Proofs.Scope.Served

/-!
# Nested requests

The requests that the provider of a request makes, and in turn the requests of their providers, are
a tree whose branches are as deep as requests nest. This file lists the tree, request by request with
the worlds before and after, and says that whatever a request adds to the caches was stored by one
request of its tree, for its own place.
-/

namespace Registrar

open History

variable {H K P V α : Type}

/-- A request that got an answer. As many levels of requests as `depth` may nest in it. -/
structure Exchange (H K P V : Type) where
  depth : Nat
  scope : H
  key : K
  before : World H K P V
  answer : Option (Reply P V)
  after : World H K P V

namespace Exchange

def place (e : Exchange H K P V) : H × K := (e.scope, e.key)

/-- The request stored its own instance, right before it was replied to. -/
def Stored (e : Exchange H K P V) (x : Instance P V) : Prop :=
  e.answer = some (.ok x) ∧ ∃ name older, e.after.history =
    .answered e.scope e.key (.ok x) :: .stored e.scope name e.key x :: older

end Exchange

namespace World

/-- The requests of an errand that goes to `respond`, one after the other. -/
def exchanges (respond : Responder H K P V) (depth : Nat) :
    Errand H K (Reply P V) α → World H K P V → List (Exchange H K P V)
  | .done _, _ => []
  | .report event next, w => exchanges respond depth next (w.record (.reported event))
  | .request scope key next, w =>
    match respond scope key w with
    | none => []
    | some (answer, w') =>
      ⟨depth, scope, key, w, answer, w'⟩ :: exchanges respond depth (next answer) w'

section Exchanges

variable {respond : Responder H K P V} {w w' : World H K P V} {depth : Nat}

/-- What an errand keeps if each of its requests keeps it holds before each of them. -/
theorem exchanges_induction {Q : World H K P V → Prop}
    (reported : ∀ w event, Q w → Q (w.record (.reported event)))
    (answered : ∀ scope key w answer w', Q w → respond scope key w = some (answer, w') → Q w')
    {errand : Errand H K (Reply P V) α} (begins : Q w) :
    ∀ e ∈ exchanges respond depth errand w,
      Q e.before ∧ e.depth = depth ∧ respond e.scope e.key e.before = some (e.answer, e.after) := by
  induction errand generalizing w with
  | done result => simp [exchanges]
  | report event next ih => exact ih (reported w event begins)
  | request scope key next ih =>
    intro e mem
    rw [exchanges] at mem
    split at mem
    · cases mem
    · next answer w₁ reply =>
      rcases List.mem_cons.1 mem with rfl | mem
      · exact ⟨begins, rfl, reply⟩
      · exact ih answer (answered _ _ _ _ _ begins reply) e mem

theorem exchanges_answered {errand : Errand H K (Reply P V) α} {e : Exchange H K P V}
    (mem : e ∈ exchanges respond depth errand w) :
    e.depth = depth ∧ respond e.scope e.key e.before = some (e.answer, e.after) := by
  obtain ⟨-, answered⟩ := exchanges_induction (Q := fun _ => True)
    (fun _ _ _ => trivial) (fun _ _ _ _ _ _ _ => trivial) trivial e mem
  exact answered

theorem scopes_carryOut_of_alone {errand : Errand H K (Reply P V) α} {result : α}
    (ran : carryOut respond errand w = some (result, w'))
    (alone : exchanges respond depth errand w = []) : w'.scopes = w.scopes := by
  induction errand generalizing w with
  | done value =>
    cases ran
    rfl
  | report event next ih => exact ih (w := w.record (.reported event)) ran alone
  | request scope key next ih =>
    rw [carryOut] at ran
    rw [exchanges] at alone
    split at ran
    · cases ran
    · next reply => simp [reply] at alone

variable [DecidableEq H] [DecidableEq K] {place : H × K} {x : Instance P V}

/-- What an errand adds to the caches one of its requests adds. -/
theorem exchanges_added (growing : Growing respond) {errand : Errand H K (Reply P V) α} {result : α}
    (ran : carryOut respond errand w = some (result, w')) (vacant : w.held? place = none)
    (holds : w'.held? place = some x) :
    ∃ e ∈ exchanges respond depth errand w,
      e.before.held? place = none ∧ e.after.held? place = some x := by
  induction errand generalizing w with
  | done value =>
    cases ran
    rw [vacant] at holds
    cases holds
  | report event next ih => exact ih ran vacant
  | request scope key next ih =>
    rw [carryOut] at ran
    rw [exchanges]
    cases answered : respond scope key w with
    | none =>
      rw [answered] at ran
      cases ran
    | some reply =>
      obtain ⟨answer, w₁⟩ := reply
      rw [answered] at ran
      cases held : w₁.held? place with
      | some y =>
        have later := (growing.carryOut ran).held? held
        rw [holds] at later
        exact ⟨_, List.mem_cons_self, vacant, held.trans later.symm⟩
      | none =>
        obtain ⟨e, mem, added⟩ := ih answer ran held
        exact ⟨e, List.mem_cons_of_mem _ mem, added⟩

end Exchanges

variable [DecidableEq H] [DecidableEq K] [DecidableEq P] [Key K]

/-- The requests that are made before a request is replied to, each followed by those that are made
before it is replied to itself. -/
def nested (conduct : Conduct H K P V) : Nat → H → K → World H K P V → List (Exchange H K P V)
  | 0, _, _, _ => []
  | depth + 1, scope, key, w =>
    match w.findScope scope with
    | none => []
    | some s =>
      match s.cache.find? key, s.registry.binding key with
      | none, .ok b =>
        (exchanges (get conduct depth) depth
          (conduct.produce b.provider (w.callsOf b.provider + 1))
          (w.calling scope key b.provider)).flatMap fun e =>
            e :: nested conduct depth e.scope e.key e.before
      | _, _ => []

/-- A request and all that is nested in it. -/
def tree (conduct : Conduct H K P V) (e : Exchange H K P V) : List (Exchange H K P V) :=
  e :: nested conduct e.depth e.scope e.key e.before

variable {conduct : Conduct H K P V} {w w' : World H K P V}
variable {scope : H} {key : K} {s : Scope K P V} {depth : Nat}

theorem nested_of_called {b : Binding K P} (found : w.findScope scope = some s)
    (absent : s.cache.find? key = none) (bound : s.registry.binding key = .ok b) (depth : Nat) :
    nested conduct (depth + 1) scope key w =
      (exchanges (get conduct depth) depth (conduct.produce b.provider (w.callsOf b.provider + 1))
        (w.calling scope key b.provider)).flatMap (tree conduct) := by
  rw [nested, found]
  simp only [absent, bound]
  apply List.flatMap_congr
  intro e mem
  rw [tree, (exchanges_answered mem).1]

/-- What holds before a request holds before all requests nested in it, if errands keep it. -/
theorem nested_induction {Q : World H K P V → Prop}
    (reported : ∀ w event, Q w → Q (w.record (.reported event)))
    (called : ∀ scope s key maker w, w.findScope scope = some s → s.cache.find? key = none →
      Q w → Q (w.calling scope key maker))
    (answered : ∀ depth scope key w answer w', Q w →
      get conduct depth scope key w = some (answer, w') → Q w')
    (begins : Q w) : ∀ e ∈ nested conduct depth scope key w,
      Q e.before ∧ get conduct e.depth e.scope e.key e.before = some (e.answer, e.after) := by
  induction depth generalizing w scope key with
  | zero => simp [nested]
  | succ depth ih =>
    intro e mem
    rw [nested] at mem
    split at mem
    · cases mem
    · next s found =>
      split at mem
      · next b absent bound =>
        obtain ⟨own, here, inside⟩ := List.mem_flatMap.1 mem
        obtain ⟨holds, level, reply⟩ := exchanges_induction reported (answered depth)
          (called scope s key b.provider w found absent begins) own here
        rcases List.mem_cons.1 inside with rfl | inside
        · exact ⟨holds, level ▸ reply⟩
        · exact ih holds e inside
      · cases mem

theorem nested_inOrder (ordered : InOrder conduct w) :
    ∀ e ∈ nested conduct depth scope key w,
      InOrder conduct e.before ∧
        get conduct e.depth e.scope e.key e.before = some (e.answer, e.after) := by
  apply nested_induction ?_ ?_ ?_ ordered
  · intro w event ordered
    exact ordered.record ⟨id, id⟩ id trivial (by simp)
  · intro scope s key maker w found absent ordered
    have asked : InOrder conduct (w.record (.asked scope key)) := by
      refine ordered.record ⟨id, id⟩ id trivial ?_
      intro scope key e
      cases e
      exact ordered.toSound.vacant found absent
    exact asked.record ⟨id, id⟩ id trivial (by simp)
  · intro depth scope key w answer w' ordered answered
    exact (get_faithful conduct depth ordered answered).1

theorem nested_served (served : w.Served) :
    ∀ e ∈ nested conduct depth scope key w, e.before.Served := by
  intro e mem
  refine (nested_induction (Q := Served) ?_ ?_ ?_ served e mem).1
  · intro w event served
    exact (Follows.of_scopes rfl).served served
  · intro scope s key maker w _ _ served
    exact (Follows.of_scopes rfl).served served
  · intro depth scope key w answer w' served answered
    exact (get_careful conduct depth answered).served served

/-- What is in the caches at the end of a request and was not there before is what the request has
stored itself, or one of its provider's requests has added it. -/
theorem Course.added {respond : Responder H K P V} (growing : Growing respond) (depth : Nat)
    {reply : Reply P V} {place : H × K} {x : Instance P V} (found : w.findScope scope = some s)
    (course : Course conduct respond scope key s w reply w') (vacant : w.held? place = none)
    (holds : w'.held? place = some x) :
    (place = (scope, key) ∧ reply = .ok x ∧
        ∃ name older, w'.history = .stored scope name key x :: older) ∨
      ∃ b, s.cache.find? key = none ∧ s.registry.binding key = .ok b ∧
        ∃ e ∈ exchanges respond depth (conduct.produce b.provider (w.callsOf b.provider + 1))
          (w.calling scope key b.provider),
          e.before.held? place = none ∧ e.after.held? place = some x := by
  cases course with
  | found cached =>
    rw [held?_record, vacant] at holds
    cases holds
  | unserved absent unbound =>
    rw [held?_record, vacant] at holds
    cases holds
  | @failed b fault w' absent bound ran =>
    exact .inr ⟨b, absent, bound, exchanges_added growing ran vacant holds⟩
  | @made b y made kept w₁ w₂ w' absent bound ran brought stored =>
    have same : w₂.scopes = w₁.scopes := scopes_of_bring brought
    cases held : w₁.held? place with
    | some z =>
      have later := (grows_store stored).held? ((held?_of_scopes same place).trans held)
      rw [holds] at later
      exact .inr ⟨b, absent, bound, exchanges_added growing ran vacant
        (held.trans later.symm)⟩
    | none =>
      -- the errand has left the place vacant, so it is the request's own
      have begun : w.Grows (w.calling scope key b.provider) :=
        (Grows.record w (.asked scope key)).trans (Grows.record _ _)
      obtain ⟨cache, found', -⟩ := (begun.trans (growing.carryOut ran)).kept scope s found
      rw [← findScope_of_scopes same] at found'
      have before : w₂.held? place = none := (held?_of_scopes same place).trans held
      rw [held?_store found' stored] at holds
      split at holds
      · next own =>
        cases holds
        obtain ⟨-, rfl, rfl⟩ | ⟨cached, -⟩ | ⟨cached, -⟩ := store_cases found' stored
        · exact .inl ⟨own, rfl, _, _, rfl⟩
        all_goals
          rw [own, held?_of_found found', cached] at before
          cases before
      · rw [before] at holds
        cases holds

/-- A request adds what its tree stores. -/
theorem tree_added {answer : Option (Reply P V)} {place : H × K} {x : Instance P V}
    (answered : get conduct depth scope key w = some (answer, w'))
    (vacant : w.held? place = none) (holds : w'.held? place = some x) :
    ∃ e ∈ tree conduct ⟨depth, scope, key, w, answer, w'⟩, e.place = place ∧ e.Stored x := by
  induction depth using Nat.strongRecOn generalizing scope key w answer w' with
  | ind depth ih =>
  cases found : w.findScope scope with
  | none =>
    rw [get_of_closed found] at answered
    cases answered
    rw [vacant] at holds
    cases holds
  | some s =>
    rw [get_eq] at answered
    obtain ⟨reply, w₁, rfl, rfl, course⟩ := of_getVia found answered
    rw [held?_record] at holds
    obtain ⟨rfl, rfl, name, older, history⟩ | ⟨b, absent, bound, e, mem, before, after⟩ :=
      course.added (below_growing conduct depth) (depth - 1) found vacant holds
    · exact ⟨_, List.mem_cons_self, rfl, rfl, name, older, congrArg _ history⟩
    · obtain ⟨level, reply⟩ := exchanges_answered mem
      cases depth with
      | zero => cases reply
      | succ depth =>
        obtain ⟨own, inside, stored⟩ := ih depth (Nat.lt_succ_self depth) reply before after
        refine ⟨own, List.mem_cons_of_mem _ ?_, stored⟩
        rw [nested_of_called found absent bound]
        rw [Nat.add_sub_cancel] at level
        subst level
        exact List.mem_flatMap.2 ⟨e, mem, inside⟩

/-- Without nested requests, a request that fails leaves all scopes as they are. -/
theorem scopes_of_failed {fault : Fault}
    (answered : get conduct depth scope key w = some (some (.error fault), w'))
    (alone : nested conduct depth scope key w = []) : w'.scopes = w.scopes := by
  cases found : w.findScope scope with
  | none =>
    rw [get_of_closed found] at answered
    cases answered
  | some s =>
    rw [get_eq] at answered
    obtain ⟨reply, w₁, e, rfl, course⟩ := of_getVia found answered
    cases e
    cases course with
    | unserved absent unbound => rfl
    | @failed b cause w₁ absent bound ran =>
      have none : exchanges (below conduct depth) (depth - 1)
          (conduct.produce b.provider (w.callsOf b.provider + 1))
          (w.calling scope key b.provider) = [] := by
        cases depth with
        | zero =>
          rw [List.eq_nil_iff_forall_not_mem]
          intro e mem
          cases (exchanges_answered mem).2
        | succ depth =>
          rw [nested_of_called found absent bound, List.flatMap_eq_nil_iff] at alone
          rw [List.eq_nil_iff_forall_not_mem]
          intro e mem
          cases alone e mem
      have same := scopes_carryOut_of_alone ran none
      exact same

/-- The requests that are made in a step from `w`, those that nest in others included. Providers are
called directly or for a registry, and instances are told one after the other. -/
inductive Asked (conduct : Conduct H K P V) (w : World H K P V) : Exchange H K P V → Prop
  | get {depth : Nat} {scope : H} {key : K} {answer : Option (Reply P V)} {w' : World H K P V}
      {e : Exchange H K P V} (answered : get conduct depth scope key w = some (answer, w'))
      (inside : e ∈ tree conduct ⟨depth, scope, key, w, answer, w'⟩) : Asked conduct w e
  | call {depth : Nat} {maker : P} {own e : Exchange H K P V}
      (made : own ∈ exchanges (World.get conduct depth) depth
        (conduct.produce maker (w.callsOf maker + 1))
        (w.record (.called maker (w.callsOf maker + 1))))
      (inside : e ∈ tree conduct own) : Asked conduct w e
  | notice {depth : Nat} {scope : H} {s : Scope K P V} {told others : List (Instance P V)}
      {x : Instance P V} {w₁ : World H K P V} {own e : Exchange H K P V}
      (found : w.findScope scope = some s) (all : (told ++ x :: others).Perm s.cache.values)
      (ran : notifyAll conduct (World.get conduct depth) told
        ((w.setCache scope s .empty).record (.drained scope (told ++ x :: others))) = some w₁)
      (made : own ∈ exchanges (World.get conduct depth) depth
        (conduct.release x (w₁.noticesOf x + 1)) (w₁.record (.notified x)))
      (inside : e ∈ tree conduct own) : Asked conduct w e

/-- Every request of a run is made in a world in order that holds what its registries serve. -/
theorem Asked.sound {e : Exchange H K P V} (rest : AtRest conduct w) (served : w.Served)
    (asked : Asked conduct w e) : InOrder conduct e.before ∧ e.before.Served ∧
      World.get conduct e.depth e.scope e.key e.before = some (e.answer, e.after) := by
  have reported (w : World H K P V) (event : Event) (sound : InOrder conduct w ∧ w.Served) :
      InOrder conduct (w.record (.reported event)) ∧ (w.record (.reported event)).Served :=
    ⟨sound.1.record ⟨id, id⟩ id trivial (by simp), (Follows.of_scopes rfl).served sound.2⟩
  have answered (depth : Nat) (scope : H) (key : K) (w : World H K P V)
      (answer : Option (Reply P V)) (w' : World H K P V) (sound : InOrder conduct w ∧ w.Served)
      (answered : World.get conduct depth scope key w = some (answer, w')) :
      InOrder conduct w' ∧ w'.Served :=
    ⟨(get_faithful conduct depth sound.1 answered).1,
      (get_careful conduct depth answered).served sound.2⟩
  have within {e own : Exchange H K P V} (inside : e ∈ tree conduct own)
      (sound : InOrder conduct own.before ∧ own.before.Served)
      (reply : World.get conduct own.depth own.scope own.key own.before =
        some (own.answer, own.after)) : InOrder conduct e.before ∧ e.before.Served ∧
          World.get conduct e.depth e.scope e.key e.before = some (e.answer, e.after) := by
    rcases List.mem_cons.1 inside with rfl | inside
    · exact ⟨sound.1, sound.2, reply⟩
    · obtain ⟨ordered, reply⟩ := nested_inOrder sound.1 e inside
      exact ⟨ordered, nested_served sound.2 e inside, reply⟩
  cases asked with
  | get reply inside => exact within inside ⟨rest.toInOrder, served⟩ reply
  | @call depth maker own e mem inside =>
    have begins : InOrder conduct (w.record (.called maker (w.callsOf maker + 1))) :=
      rest.toInOrder.record ⟨id, id⟩ id trivial (by simp)
    obtain ⟨sound, level, reply⟩ := exchanges_induction reported (answered depth)
      ⟨begins, (Follows.of_scopes rfl).served served⟩ own mem
    exact within inside sound (level ▸ reply)
  | @notice depth scope s told others x w₁ own e found all ran mem inside =>
    have order : awaiting ((w.setCache scope s .empty).record
        (.drained scope (told ++ x :: others))).history = told ++ x :: others := rfl
    obtain ⟨ordered, waiting, -⟩ :=
      (rest.drain found all).notifyAll (get_faithful conduct depth) order ran
    have begins : InOrder conduct (w₁.record (.notified x)) :=
      ordered.record ⟨id, id⟩ id (by simp [Fits, waiting]) (by simp)
    have emptied : (w.setCache scope s .empty).Served := served.setCache found (by simp)
    have drained : ((w.setCache scope s .empty).record
        (.drained scope (told ++ x :: others))).Served := (Follows.of_scopes rfl).served emptied
    have holds : w₁.Served := drained.notifyAll (get_careful conduct depth) ran
    obtain ⟨sound, level, reply⟩ := exchanges_induction reported (answered depth)
      ⟨begins, (Follows.of_scopes rfl).served holds⟩ own mem
    exact within inside sound (level ▸ reply)

end World
end Registrar
