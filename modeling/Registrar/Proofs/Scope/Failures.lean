import Registrar.Proofs.Scope.Conservation
import Registrar.Proofs.Scope.Retries

/-!
# Failing requests

A request only adds to the caches, and each entry it adds was stored by itself or by a request
nested in it. A request that fails stores nothing for itself and leaves nothing behind that the next
one could see, so a provider that fails is simply called again.
-/

namespace Registrar

open History

variable {H K P V : Type} [DecidableEq H] [DecidableEq K] [DecidableEq P] [Key K]

namespace World

/-- What a request does to the caches. -/
structure OnlyAdds (conduct : Conduct H K P V) (e : Exchange H K P V) : Prop where
  kept : ∀ place x, e.before.held? place = some x → e.after.held? place = some x
  added : ∀ place x, e.before.held? place = none → e.after.held? place = some x →
    e.place = place ∧ e.Stored x ∨
      ∃ own ∈ nested conduct e.depth e.scope e.key e.before, own.place = place ∧ own.Stored x
  /-- A request that fails adds nothing itself. -/
  failed : ∀ fault, e.answer = some (.error fault) →
    ∀ place x, e.before.held? place = none → e.after.held? place = some x →
      ∃ own ∈ nested conduct e.depth e.scope e.key e.before, own.place = place ∧ own.Stored x
  alone : ∀ fault, e.answer = some (.error fault) →
    nested conduct e.depth e.scope e.key e.before = [] → e.after.scopes = e.before.scopes

/-- How a request to an open scope fails. -/
structure Fails (conduct : Conduct H K P V) (e : Exchange H K P V) (s : Scope K P V) : Prop where
  /-- A key that is not served fails as the registry does, and nothing else happens. -/
  unserved : ∀ fault, s.registry.binding e.key = .error fault →
    e.before.create conduct e.depth s.registry e.key = some (.error fault, e.before) ∧
      e.answer = some (.error fault) ∧ e.after = (e.before.record (.asked e.scope e.key)).record
        (.answered e.scope e.key (.error fault))
  failing : ∀ b cause w₁, s.cache.find? e.key = none → s.registry.binding e.key = .ok b →
    carryOut (below conduct e.depth) (conduct.produce b.provider (e.before.callsOf b.provider + 1))
        (e.before.calling e.scope e.key b.provider) = some (.error cause, w₁) →
      e.answer = some (.error (.provider (Key.label b.key) cause))
  /-- There is no other way to fail. -/
  cause : ∀ fault, e.answer = some (.error fault) → s.registry.binding e.key = .error fault ∨
    ∃ b cause w₁, s.cache.find? e.key = none ∧ s.registry.binding e.key = .ok b ∧
      carryOut (below conduct e.depth)
        (conduct.produce b.provider (e.before.callsOf b.provider + 1))
        (e.before.calling e.scope e.key b.provider) = some (.error cause, w₁) ∧
      fault = .provider (Key.label b.key) cause
  /-- The next request calls the provider again, unless a nested request has stored something. -/
  forgotten : ∀ fault b, e.answer = some (.error fault) → s.registry.binding e.key = .ok b →
    (∃ own ∈ nested conduct e.depth e.scope e.key e.before,
      own.place = e.place ∧ ∃ x, own.Stored x) ∨
    ∀ depth answer w', get conduct depth e.scope e.key e.after = some (answer, w') →
      ∃ during, w'.history = during ++ .called b.provider (e.after.callsOf b.provider + 1) ::
        .asked e.scope e.key :: e.after.history

variable {conduct : Conduct H K P V} {w w' : World H K P V} {e : Exchange H K P V}
variable {scope : H} {key : K} {s : Scope K P V} {depth : Nat}

theorem onlyAdds_of_get
    (answered : get conduct e.depth e.scope e.key e.before = some (e.answer, e.after)) :
    OnlyAdds conduct e := by
  have added (place : H × K) (x : Instance P V) (vacant : e.before.held? place = none)
      (holds : e.after.held? place = some x) : e.place = place ∧ e.Stored x ∨
        ∃ own ∈ nested conduct e.depth e.scope e.key e.before,
          own.place = place ∧ own.Stored x := by
    obtain ⟨own, mem, here, stored⟩ := tree_added answered vacant holds
    rcases List.mem_cons.1 mem with rfl | mem
    · exact .inl ⟨here, stored⟩
    · exact .inr ⟨own, mem, here, stored⟩
  refine ⟨?_, added, ?_, ?_⟩
  · intro place x
    exact (get_growing conduct e.depth answered).held?
  · intro fault failed place x vacant holds
    obtain ⟨-, kept, -⟩ | nested := added place x vacant holds
    · rw [failed] at kept
      cases kept
    · exact nested
  · intro fault failed alone
    rw [failed] at answered
    exact scopes_of_failed answered alone

/-- A request whose place is vacant calls the provider of its key. -/
theorem called_of_vacant {b : Binding K P} {answer : Option (Reply P V)}
    (found : w.findScope scope = some s) (absent : s.cache.find? key = none)
    (bound : s.registry.binding key = .ok b)
    (answered : get conduct depth scope key w = some (answer, w')) :
    ∃ during, w'.history =
      during ++ .called b.provider (w.callsOf b.provider + 1) :: .asked scope key :: w.history := by
  rw [get_eq] at answered
  obtain ⟨reply, w₁, -, rfl, course⟩ := of_getVia found answered
  have growing := below_growing conduct depth
  have later : (w.calling scope key b.provider).history <:+ w₁.history := by
    cases course with
    | found cached =>
      rw [absent] at cached
      cases cached
    | unserved _ unbound =>
      rw [bound] at unbound
      cases unbound
    | failed _ bound' ran =>
      rw [bound] at bound'
      cases bound'
      exact (growing.carryOut ran).history
    | made _ bound' ran brought stored =>
      rw [bound] at bound'
      cases bound'
      exact ((growing.carryOut ran).history.trans (history_of_bring brought)).trans
        (grows_store stored).history
  obtain ⟨during, grown⟩ := later
  exact ⟨.answered scope key reply :: during, congrArg _ grown.symm⟩

theorem fails_of_get (served : e.before.Served) (found : e.before.findScope e.scope = some s)
    (answered : get conduct e.depth e.scope e.key e.before = some (e.answer, e.after)) :
    Fails conduct e s := by
  have adds := onlyAdds_of_get answered
  have grows := get_growing conduct e.depth answered
  have via := answered
  rw [get_eq] at via
  obtain ⟨reply, w₁, replied, after, course⟩ := of_getVia found via
  refine ⟨?_, ?_, ?_, ?_⟩
  · intro fault unbound
    have absent : s.cache.find? e.key = none := by
      rw [Option.eq_none_iff_forall_not_mem]
      intro x cached
      have serves := served e.scope s found e.key x cached
      rw [Registry.serves_eq_false_iff.2 ⟨fault, unbound⟩] at serves
      cases serves
    have unserved : Course conduct (below conduct e.depth) e.scope e.key s e.before
        (.error fault) _ := .unserved absent unbound
    obtain ⟨same, done⟩ := Prod.mk.inj (Option.some.inj (via.symm.trans (unserved.getVia found)))
    refine ⟨?_, same, done⟩
    simp [create, createFrom, unbound]
  · intro b cause w₂ absent bound ran
    have failed : Course conduct (below conduct e.depth) e.scope e.key s e.before _ _ :=
      .failed absent bound ran
    exact (Prod.mk.inj (Option.some.inj (via.symm.trans (failed.getVia found)))).1
  · intro fault failed
    rw [replied] at failed
    cases failed
    cases course with
    | unserved absent unbound => exact .inl unbound
    | @failed b cause w₁ absent bound ran => exact .inr ⟨b, cause, w₁, absent, bound, ran, rfl⟩
  · intro fault b failed bound
    obtain ⟨cache, found', kept⟩ := grows.kept e.scope s found
    cases absent : cache.find? e.key with
    | none =>
      right
      intro depth answer w' again
      exact called_of_vacant found' absent bound again
    | some x =>
      left
      have before : e.before.held? e.place = none := by
        have vacant : s.cache.find? e.key = none := by
          rw [replied] at failed
          cases failed
          cases course with
          | unserved absent unbound => exact absent
          | failed absent bound ran => exact absent
        exact (held?_of_found found e.key).trans vacant
      have holds : e.after.held? e.place = some x := (held?_of_found found' e.key).trans absent
      obtain ⟨own, mem, here, stored⟩ := adds.failed fault failed e.place x before holds
      exact ⟨own, mem, here, x, stored⟩

variable [HasType V]

/-- Requests only add to the caches, and their failures leave the caches intact. This goes for every
request of a step from a reachable world, wherever it is made. Nothing in any cache is replaced or
taken out, and what is added was stored by the request for its own place or by one nested in it for
its own; a request that fails adds nothing itself, and without nested ones it changes no scope. A
key that is not served fails as the registry does and calls no provider, a provider that fails does
so under the label of its binding, and the next request calls it again unless a nested one has
stored an instance. So if a provider without requests fails its first calls, and is called for one
place only from which nothing is taken, the requests for the place fail as often, and go on with
one instance. -/
theorem failures_leave_caches_intact (reachable : Reachable conduct w) :
    (∀ e, Asked conduct w e → OnlyAdds conduct e ∧
      ∀ s, e.before.findScope e.scope = some s → Fails conduct e s) ∧
    ∀ (t : Series H K P V) (s : Scope K P V), w.findScope t.scope = some s →
      s.registry.binding t.key = .ok t.binding → s.cache.find? t.key = none →
      conduct.FailsFirst t.binding.provider t.failures t.fault →
      w.callsOf t.binding.provider = 0 → t.older = w.history →
      ∀ trace w' newer, Runs conduct w trace w' → w'.history = newer ++ w.history →
        t.Undisturbed newer →
          t.Retried (replies t.place newer) ∧ ∀ depth, ∃ reply w'',
            get conduct depth t.scope t.key w' = some (some reply, w'') ∧
              t.Retried (reply :: replies t.place newer) := by
  constructor
  · intro e asked
    obtain ⟨-, served, answered⟩ := asked.sound reachable.atRest reachable.served
    refine ⟨onlyAdds_of_get answered, ?_⟩
    intro s found
    exact fails_of_get served found answered
  · intro t s found bound absent fails uncalled older trace w' newer runs grown undisturbed
    have begins : t.Underway [] w := by
      refine ⟨older.symm, by simp, ⟨s, found, bound⟩, ?_⟩
      rw [Series.place, held?_of_found found, absent, uncalled]
      exact .failing (Nat.zero_le _)
    have quiet : t.Quiet w' := by
      intro newer' grown'
      rw [grown, older] at grown'
      rwa [← List.append_cancel_right grown']
    obtain ⟨newer', under⟩ := Series.On.runs fails reachable runs quiet ⟨[], begins⟩
    have same := under.history
    rw [grown, older] at same
    cases List.append_cancel_right same
    exact ⟨under.progress.retried, under.next_reply fails⟩

/-- Its only provider fails twice. -/
def stubborn : Catalogue Nat String := [.recipe ⟨⟨"a", ⟨⟨"A"⟩, 0⟩⟩, none, 2, none, none⟩]

theorem stubborn_failsFirst : stubborn.conduct.FailsFirst ⟨0, none⟩ 2
    fun number => .invalidArgument ("attempt " ++ toString number) := by
  have produce (number : Nat) : stubborn.conduct.produce ⟨0, none⟩ number =
      .done ((Recipe.answer ⟨⟨"a", ⟨⟨"A"⟩, 0⟩⟩, none, 2, (none : Option (Nat × String)), none⟩
        number).map .fresh) := by
    change Recipe.after _ _ = _
    split <;> rfl
  refine ⟨?_, ?_, ?_⟩
  · intro number
    rw [produce]
    trivial
  · intro number _ few
    rw [produce, Recipe.answer, if_pos few]
    rfl
  · rw [produce]
    exact ⟨_, rfl⟩

def stubbornOpened : World Nat String Supplier Item :=
  empty.openScope 0 none (.ofSteps [.add ⟨"a", ⟨0, none⟩, none, []⟩])

def stubbornGets : List (Step Nat String Supplier) := [.get 0 "a", .get 0 "a", .get 0 "a"]

/-- What happens when the key is asked for three times. -/
def stubbornNewer : List (Happening Nat String Supplier Item) :=
  let x : Instance Supplier Item := ⟨1, ⟨0, none⟩, ⟨"a", ⟨⟨"A"⟩, 0⟩⟩⟩
  let failed (text : String) : Reply Supplier Item :=
    .error (.provider "a" (.invalidArgument text))
  [.answered 0 "a" (.ok x), .stored 0 "default" "a" x, .produced 3 (some (0, "a")) x,
    .called ⟨0, none⟩ 3, .asked 0 "a", .answered 0 "a" (failed "attempt 2"),
    .called ⟨0, none⟩ 2, .asked 0 "a", .answered 0 "a" (failed "attempt 1"),
    .called ⟨0, none⟩ 1, .asked 0 "a"]

def stubbornSeries : Series Nat String Supplier Item :=
  ⟨0, "a", ⟨"a", ⟨0, none⟩, none, []⟩, 2,
    fun number => .invalidArgument ("attempt " ++ toString number), stubbornOpened.history⟩

theorem stubborn_history :
    (run stubborn.conduct 1 stubbornGets stubbornOpened).map (·.2.history) =
      some (stubbornNewer ++ stubbornOpened.history) := by
  cbv

theorem stubborn_undisturbed : stubbornSeries.Undisturbed stubbornNewer := by
  refine ⟨?_, ?_, ?_⟩
  · intro later number earlier e
    have mem : .called ⟨0, none⟩ number :: earlier ∈ stubbornNewer.tails :=
      (List.mem_tails _ _).2 ⟨later, e.symm⟩
    simp [stubbornNewer] at mem
    rcases mem with ⟨-, rfl⟩ | ⟨-, rfl⟩ | ⟨-, rfl⟩ <;> rfl
  · simp [stubbornNewer]
  · intro later h earlier e taken
    have untaken : ∀ h ∈ stubbornNewer, h.takes stubbornSeries.place = false := by
      simp [stubbornNewer, Happening.takes]
    rw [untaken h (by simp [e])] at taken
    cases taken

/-- The third request gets an instance, and so does the next one. -/
theorem stubborn_retried : Reachable stubborn.conduct stubbornOpened ∧ ∃ outcomes w,
    run stubborn.conduct 1 stubbornGets stubbornOpened = some (outcomes, w) ∧
      ∀ depth, ∃ w', get stubborn.conduct depth 0 "a" w =
        some (some (.ok ⟨1, ⟨0, none⟩, ⟨"a", ⟨⟨"A"⟩, 0⟩⟩⟩), w') := by
  have opened : empty.step stubborn.conduct 0 (.openScope 0 none
      (.ofSteps [.add ⟨"a", ⟨0, none⟩, none, []⟩])) = some (.done, stubbornOpened) := rfl
  have reachable : Reachable stubborn.conduct stubbornOpened := Reachable.empty.step opened
  obtain ⟨⟨outcomes, w⟩, ran, history⟩ := Option.map_eq_some_iff.1 stubborn_history
  have runs : Runs stubborn.conduct stubbornOpened (stubbornGets.zip outcomes).reverse w := by
    have begins : Runs stubborn.conduct stubbornOpened [] stubbornOpened := .refl
    simpa using begins.run ran
  obtain ⟨-, retry⟩ := failures_leave_caches_intact reachable
  obtain ⟨-, next⟩ := retry stubbornSeries _ rfl rfl rfl stubborn_failsFirst rfl rfl _ w
    stubbornNewer runs history stubborn_undisturbed
  refine ⟨reachable, outcomes, w, ran, ?_⟩
  intro depth
  obtain ⟨reply, w', answered, retried⟩ := next depth
  cases Series.Retried.again retried
  exact ⟨w', answered⟩

end World
end Registrar
