import Registrar.Proofs.Scope.Nested

/-!
# What scopes report

A scope reports what it stores and what it discards, one instance at a time, and how many instances
a clearing or a disposal has dropped. So its size can be told from its events and from the removals
that returned an instance. While a disposal is under way it owes its report.
-/

namespace Registrar

open History

variable {H K P V : Type}

namespace Event

def isCreation : Event → Bool
  | instanceCreated _ _ => true
  | _ => false

/-- How many instances a scope has dropped at once. -/
def dropped : Event → Nat
  | scopeCleared _ count | scopeDisposed _ count => count
  | _ => 0

end Event

namespace Happening

/-- The scope that reports it. -/
def reporter? : Happening H K P V → Option H
  | stored scope _ _ _ | confirmed scope _ _ _ | discarded scope _ _ _ | cleared scope _ _
  | disposed scope _ _ => some scope
  | _ => none

variable [DecidableEq H]

def opens (scope : H) : Happening H K P V → Bool
  | opened other _ => other = scope
  | _ => false

/-- The event, if it is one of a given scope. -/
def report? [Key K] (scope : H) (h : Happening H K P V) : Option Event :=
  if h.reporter? = some scope then h.event? else none

end Happening

namespace History

variable [DecidableEq H]

/-- What has happened since a scope was opened last. -/
def since (scope : H) (history : List (Happening H K P V)) : List (Happening H K P V) :=
  history.takeWhile fun h => !h.opens scope

/-- The events of a scope since it was opened last, newest first. -/
def reports [Key K] (scope : H) (history : List (Happening H K P V)) : List Event :=
  (since scope history).filterMap (·.report? scope)

end History

/-- The events of a scope since it was opened last, oldest first. -/
def World.emitted [DecidableEq H] [Key K] (w : World H K P V) (scope : H) : List Event :=
  (reports scope w.history).reverse

/-- How many removals from a scope have returned an instance since it was opened last, given the
steps of a run, newest first. -/
def World.handedBack [DecidableEq H] (scope : H) : List (Step H K P × Outcome P V) → Nat
  | [] => 0
  | (.openScope opened _ _, _) :: earlier => if opened = scope then 0 else handedBack scope earlier
  | (.remove other _, .removed (some _)) :: earlier =>
    handedBack scope earlier + if other = scope then 1 else 0
  | _ :: earlier => handedBack scope earlier

namespace History

variable [DecidableEq H] [DecidableEq K]
variable {scope other : H} {back back' debt debt' : Nat} {h : Happening H K P V}
variable {newer older : List (Happening H K P V)}

/-- How much a scope holds after a history. -/
def holding (scope : H) (history : List (Happening H K P V)) : Nat :=
  (stock history).countP fun slot => slot.1.1 = scope

theorem holding_of_not_taking (still : ¬h.Taking) (scope : H) :
    holding scope (h :: older) =
      (h.puts.countP fun slot => slot.1.1 = scope) + holding scope older := by
  simp [holding, stock, Happening.takes_eq_false still]

/-- Instances are taken from one scope only. -/
theorem holding_of_taking (leaves : ∀ place, h.takes place = true → place.1 = other)
    (puts : h.puts = []) (allowed : Allowed older h) (scope : H) :
    holding scope (h :: older) + (if other = scope then h.leaving.length else 0) =
      holding scope older := by
  have taken : (((stock older).filter fun slot => h.takes slot.1).countP fun slot =>
      slot.1.1 = scope) = if other = scope then h.leaving.length else 0 := by
    split
    · next same =>
      rw [allowed.leaving.length_eq, List.length_map, List.countP_eq_length]
      intro slot mem
      simpa [← same] using leaves _ (List.mem_filter.1 mem).2
    · next differs =>
      rw [List.countP_eq_zero]
      intro slot mem
      simpa [leaves _ (List.mem_filter.1 mem).2] using differs
  have all := (List.filter_append_perm (fun slot => h.takes slot.1) (stock older)).countP_eq
    fun slot => slot.1.1 = scope
  rw [List.countP_append, taken] at all
  rw [holding, stock, puts, List.nil_append, Nat.add_comm]
  exact all

variable [Key K]

omit [DecidableEq K] in
theorem reports_cons (same : h.opens scope = false) :
    reports scope (h :: older) = (h.report? scope).toList ++ reports scope older := by
  rw [reports, since, List.takeWhile_cons, if_pos (by simp [same])]
  cases e : h.report? scope <;> simp [e, reports, since]

/-- Of the instances that a scope has stored, `back` were handed back, and a disposal that is under
way owes the report of `debt`. -/
def Balanced (scope : H) (back debt : Nat) (history : List (Happening H K P V)) : Prop :=
  holding scope history + back + ((reports scope history).map Event.dropped).sum + debt =
    (reports scope history).countP Event.isCreation

/-- A scope is opened empty. -/
theorem Balanced.opened (vacant : holding scope older = 0) (name : String) :
    Balanced scope 0 0 (.opened scope name :: older) := by
  have none : reports scope (.opened scope name :: older) = [] := by
    simp [reports, since, Happening.opens]
  rw [Balanced, none, holding_of_not_taking id, vacant]
  rfl

/-- What may happen while a provider or an instance is at work, if calls make new instances only. -/
theorem Balanced.cons (balanced : Balanced scope back debt older)
    (quiet : h.Passing ∨ ∃ x, h = .notified x)
    (new : ∀ other name key x, h ≠ .confirmed other name key x) :
    Balanced scope back debt (h :: older) := by
  have still : ¬h.Taking := by
    obtain passing | ⟨x, rfl⟩ := quiet
    · exact passing.not_taking
    · exact id
  have same : h.opens scope = false := by
    cases h with
    | opened other name => simp [Happening.Passing] at quiet
    | _ => rfl
  unfold Balanced at balanced ⊢
  rw [holding_of_not_taking still, reports_cons same]
  cases h with
  | confirmed other name key x => exact absurd rfl (new other name key x)
  | stored other name key x =>
    by_cases here : other = scope
    · simp [Happening.report?, Happening.reporter?, Happening.event?, Happening.puts, here,
        Event.isCreation, Event.dropped, List.countP_cons]
      omega
    · simpa [Happening.report?, Happening.reporter?, Happening.puts, here] using balanced
  | discarded other name key x =>
    by_cases here : other = scope
    · simpa [Happening.report?, Happening.reporter?, Happening.event?, Happening.puts, here,
        Event.isCreation, Event.dropped] using balanced
    · simpa [Happening.report?, Happening.reporter?, Happening.puts, here] using balanced
  | disposed other name held => simp [Happening.Passing] at quiet
  | cleared other name held => exact absurd trivial still
  | _ => simpa [Happening.report?, Happening.reporter?, Happening.puts] using balanced

theorem Balanced.append (balanced : Balanced scope back debt older)
    (quiet : ∀ h ∈ newer, h.Passing ∨ ∃ x, h = .notified x)
    (new : ∀ other name key x, .confirmed other name key x ∉ newer) :
    Balanced scope back debt (newer ++ older) := by
  induction newer with
  | nil => exact balanced
  | cons h rest ih =>
    rw [List.forall_mem_cons] at quiet
    have unconfirmed : ∀ other name key x, h ≠ .confirmed other name key x := by
      rintro other name key x rfl
      exact new other name key x List.mem_cons_self
    have others := ih quiet.2 fun other name key x mem =>
      new other name key x (List.mem_cons_of_mem _ mem)
    exact others.cons quiet.1 unconfirmed

/-- What leaves a scope is handed back, or reported, or owed. -/
theorem Balanced.settle (balanced : Balanced scope back debt older) (other : H)
    (leaves : ∀ place, h.takes place = true → place.1 = other) (puts : h.puts = [])
    (allowed : Allowed older h) (same : h.opens scope = false)
    (uncreated : (h.report? scope).toList.countP Event.isCreation = 0)
    (settled : back' + ((h.report? scope).toList.map Event.dropped).sum + debt' =
      back + debt + if other = scope then h.leaving.length else 0) :
    Balanced scope back' debt' (h :: older) := by
  have left := holding_of_taking leaves puts allowed scope
  unfold Balanced at balanced ⊢
  rw [reports_cons same, List.map_append, List.sum_append, List.countP_append, uncreated]
  omega

end History

namespace World

variable [DecidableEq H] [DecidableEq K] {conduct : Conduct H K P V} {w w' : World H K P V}
variable {scope other : H} {s : Scope K P V} {back : Nat}

theorem size_eq_holding (ordered : InOrder conduct w) (found : w.findScope scope = some s) :
    s.cache.size = holding scope w.history := by
  have here := (slotsAt_perm found).length_eq
  rw [← List.countP_eq_length_filter, ordered.slots.countP_eq] at here
  rwa [Scope.slotsAt, List.length_map] at here

variable [Key K]

theorem balanced_openScope (rest : AtRest conduct w) (balanced : Balanced scope back 0 w.history)
    (other : H) (name : Option String) (registry : Registry K P) :
    Balanced scope (if other = scope then 0 else back) 0
      (w.openScope other name registry).history := by
  have later : AtRest conduct (w.openScope other name registry) :=
    rest.openScope other name registry
  have found : ∃ older, (w.openScope other name registry).history =
      .opened other (name.getD "default") :: older ∧ (older = w.history ∨
        ∃ held, older = .abandoned other held :: w.history) := by
    unfold openScope
    cases w.findScope other with
    | none => exact ⟨_, rfl, .inl rfl⟩
    | some old => exact ⟨_, rfl, .inr ⟨_, rfl⟩⟩
  obtain ⟨older, history, before⟩ := found
  have lawful := later.lawful
  rw [history] at lawful ⊢
  split
  · next same =>
    subst same
    have empty : (w.openScope other name registry).findScope other =
        some ⟨name.getD "default", registry, .empty⟩ := by
      simp [openScope, record, findScope]
    have size := size_eq_holding later.toInOrder empty
    rw [history, holding_of_not_taking id] at size
    have vacant : holding other older = 0 := by
      simpa [Happening.puts, Table.size] using size.symm
    exact .opened vacant _
  · next differs =>
    have dropped : Balanced scope back 0 older := by
      obtain rfl | ⟨held, rfl⟩ := before
      · exact balanced
      · exact balanced.settle other (by simp [Happening.takes]) rfl lawful.tail.head rfl
          rfl (by simp [Happening.report?, Happening.reporter?, differs])
    exact dropped.settle other (by simp [Happening.takes]) rfl lawful.head
      (by simp [Happening.opens, differs]) rfl
      (by simp [Happening.report?, Happening.reporter?, differs])

theorem balanced_remove {trace : List (Step H K P × Outcome P V)} (rest : AtRest conduct w)
    (balanced : Balanced scope (handedBack scope trace) 0 w.history) (other : H) (key : K) :
    Balanced scope
      (handedBack scope ((.remove other key, .ofRemoved (w.remove other key).1) :: trace)) 0
      (w.remove other key).2.history := by
  have lawful := (rest.remove other key).lawful
  cases found : w.findScope other with
  | none =>
    simp only [remove, found]
    exact balanced
  | some s =>
    cases cached : s.cache.find? key with
    | none =>
      simp only [remove, found, cached]
      exact balanced
    | some held =>
      simp only [remove, found, cached] at lawful ⊢
      refine balanced.settle other ?_ rfl lawful.head rfl rfl ?_
      · simp only [Happening.takes, decide_eq_true_eq]
        rintro place rfl
        rfl
      · simp [Happening.report?, Happening.reporter?, Happening.leaving, handedBack,
          Outcome.ofRemoved]

theorem balanced_clear (rest : AtRest conduct w) (balanced : Balanced scope back 0 w.history)
    (other : H) : Balanced scope back 0 (w.clear other).2.history := by
  have lawful := (rest.clear other).lawful
  cases found : w.findScope other with
  | none =>
    simp only [clear, found]
    exact balanced
  | some s =>
    simp only [clear, found] at lawful ⊢
    refine balanced.settle other (by simp [Happening.takes]) rfl lawful.head rfl ?_ ?_
    all_goals
      by_cases same : other = scope <;>
        simp [Happening.report?, Happening.reporter?, Happening.event?, Happening.leaving, same,
          Event.isCreation, Event.dropped]

variable [DecidableEq P] {depth : Nat} {order held : List (Instance P V)}

theorem balanced_disposeIn (fresh : conduct.AlwaysFresh) (rest : AtRest conduct w)
    (balanced : Balanced scope back 0 w.history) (found : w.findScope other = some s)
    (all : order.Perm s.cache.values)
    (disposed : w.disposeIn conduct depth other s order = some (held, w')) :
    Balanced scope back 0 w'.history := by
  have later : AtRest conduct w' := rest.disposeIn found all disposed
  have new := not_confirmed later.lawful (later.fresh fresh)
  obtain ⟨w₁, told, e⟩ := Option.map_eq_some_iff.1 disposed
  cases e
  obtain ⟨kept, -, -, newer, grown, telling⟩ :=
    (rest.drain found all).notifyAll (get_faithful conduct depth) (List.append_nil _).symm told
  have grown : w₁.history = newer ++ .drained other order :: w.history := grown
  have lawful := later.lawful
  simp only [record, grown] at lawful new ⊢
  -- what is taken out is owed until the disposal is done
  have drained : Balanced scope back (if other = scope then order.length else 0)
      (.drained other order :: w.history) := by
    refine balanced.settle other (by simp [Happening.takes]) rfl
      lawful.tail.of_append.head rfl rfl ?_
    simp [Happening.report?, Happening.reporter?, Happening.leaving]
  have told : Balanced scope back (if other = scope then order.length else 0)
      (newer ++ .drained other order :: w.history) := by
    apply drained.append telling.quiet
    intro scope name key x mem
    exact new scope name key x (List.mem_cons_of_mem _ (List.mem_append_left _ mem))
  refine told.settle other (by simp [Happening.takes]) rfl lawful.head rfl ?_ ?_
  all_goals
    by_cases same : other = scope <;>
      simp [Happening.report?, Happening.reporter?, Happening.event?, Happening.leaving, same,
        Event.isCreation, Event.dropped]

variable [HasType V] {trace : List (Step H K P × Outcome P V)}

theorem Runs.balanced (fresh : conduct.AlwaysFresh) (runs : Runs conduct empty trace w)
    (scope : H) : Balanced scope (handedBack scope trace) 0 w.history := by
  induction runs with
  | refl => rfl
  | @step trace w w' depth s outcome runs stepped ih =>
    have rest : AtRest conduct w := (runs.reachable .empty).atRest
    cases s with
    | openScope other name registry =>
      cases stepped
      exact balanced_openScope rest ih other name registry
    | remove other key =>
      cases stepped
      exact balanced_remove rest ih other key
    | clear other =>
      cases stepped
      exact balanced_clear rest ih other
    | dispose other =>
      obtain ⟨⟨held, w₁⟩, ended, e⟩ := Option.map_eq_some_iff.1 stepped
      cases e
      obtain ⟨-, rfl, rfl⟩ | ⟨s, told, found, rfl, disposed⟩ := dispose_cases ended
      · exact ih
      · exact balanced_disposeIn fresh rest ih found (.refl _) disposed
    | _ =>
      obtain ⟨ordered, extended⟩ := rest.toInOrder.asks stepped trivial
      obtain ⟨newer, grown, passing⟩ := extended.history
      have new := not_confirmed ordered.lawful (ordered.fresh fresh)
      rw [grown] at new ⊢
      exact ih.append (fun h mem => .inl (passing h mem)) fun scope name key x mem =>
        new scope name key x (List.mem_append_left _ mem)
  | disposeIn runs found all disposed ih =>
    exact balanced_disposeIn fresh (runs.reachable .empty).atRest ih found all disposed

omit [DecidableEq H] [DecidableEq K] [DecidableEq P] [HasType V] in
/-- Nothing is reported and no scope changes. -/
def Silent (w w' : World H K P V) : Prop := w'.log = w.log ∧ w'.scopes = w.scopes

/-- What a request to an open scope reports itself, after all that its provider's errand, which ends
in `w₁`, has reported. -/
inductive Announces (conduct : Conduct H K P V) (respond : Responder H K P V) (scope : H) (key : K)
    (s : Scope K P V) (w : World H K P V) : Reply P V → World H K P V → Prop
  | found {x : Instance P V} {w' : World H K P V} (cached : s.cache.find? key = some x)
      (silent : w.Silent w') : Announces conduct respond scope key s w (.ok x) w'
  | unserved {fault : Fault} {w' : World H K P V} (absent : s.cache.find? key = none)
      (unbound : s.registry.binding key = .error fault) (silent : w.Silent w') :
      Announces conduct respond scope key s w (.error fault) w'
  | failed {b : Binding K P} {fault : Fault} {w₁ w' : World H K P V}
      (absent : s.cache.find? key = none) (bound : s.registry.binding key = .ok b)
      (ran : carryOut respond (conduct.produce b.provider (w.callsOf b.provider + 1))
        (w.calling scope key b.provider) = some (.error fault, w₁)) (silent : w₁.Silent w') :
      Announces conduct respond scope key s w (.error (.provider (Key.label b.key) fault)) w'
  | created {b : Binding K P} {value : V} {x : Instance P V} {w₁ w' : World H K P V}
      (absent : s.cache.find? key = none) (bound : s.registry.binding key = .ok b)
      (ran : carryOut respond (conduct.produce b.provider (w.callsOf b.provider + 1))
        (w.calling scope key b.provider) = some (.ok (.fresh value), w₁))
      (made : x.maker = b.provider ∧ x.value = value) (vacant : w₁.held? (scope, key) = none)
      (stored : ∀ place, w'.held? place = if place = (scope, key) then some x else w₁.held? place)
      (log : w'.log = w₁.log ++ [.instanceCreated s.name (Key.name key)]) :
      Announces conduct respond scope key s w (.ok x) w'
  | discarded {b : Binding K P} {value : V} {x : Instance P V} {w₁ w' : World H K P V}
      (absent : s.cache.find? key = none) (bound : s.registry.binding key = .ok b)
      (ran : carryOut respond (conduct.produce b.provider (w.callsOf b.provider + 1))
        (w.calling scope key b.provider) = some (.ok (.fresh value), w₁))
      (holds : w₁.held? (scope, key) = some x)
      (log : w'.log = w₁.log ++ [.duplicateDiscarded s.name (Key.name key)])
      (same : w'.scopes = w₁.scopes) : Announces conduct respond scope key s w (.ok x) w'

omit [DecidableEq H] [DecidableEq K] [DecidableEq P] [HasType V] in
theorem log_record (w : World H K P V) (h : Happening H K P V) :
    (w.record h).log = w.log ++ h.event?.toList := by
  cases e : h.event? <;> simp [log, record, e]

omit [DecidableEq K] [DecidableEq P] [HasType V] in
@[simp] theorem log_setCache (w : World H K P V) (scope : H) (s : Scope K P V)
    (cache : Table K (Instance P V)) : (w.setCache scope s cache).log = w.log := rfl

omit [DecidableEq H] [DecidableEq K] [DecidableEq P] [HasType V] in
theorem log_of_bring {purpose : Option (H × K)} {maker : P} {number : Nat} {y : Yield P V}
    {made : Instance P V} (brought : w.bring purpose maker number y = (made, w')) :
    w'.log = w.log := by
  cases y <;> (cases brought; exact (log_record _ _).trans (List.append_nil _))

omit [HasType V] in
theorem announces_of_get (fresh : conduct.AlwaysFresh) {key : K} {answer : Option (Reply P V)}
    (ordered : InOrder conduct w) (found : w.findScope scope = some s)
    (answered : get conduct depth scope key w = some (answer, w')) :
    ∃ reply, answer = some reply ∧
      Announces conduct (below conduct depth) scope key s w reply w' := by
  have later : InOrder conduct w' := (get_faithful conduct depth ordered answered).1
  have new := not_confirmed later.lawful (later.fresh fresh)
  rw [get_eq] at answered
  obtain ⟨reply, w₃, rfl, rfl, course⟩ := of_getVia found answered
  refine ⟨reply, rfl, ?_⟩
  cases course with
  | found cached => exact .found cached ⟨by simp [log_record, Happening.event?], rfl⟩
  | unserved absent unbound =>
    exact .unserved absent unbound ⟨by simp [log_record, Happening.event?], rfl⟩
  | failed absent bound ran =>
    exact .failed absent bound ran ⟨by simp [log_record, Happening.event?], rfl⟩
  | @made b y made kept w₁ w₂ w₃ absent bound ran brought stored =>
    cases y with
    | known other =>
      exact absurd rfl (carryOut_ends (fresh b.provider (w.callsOf b.provider + 1)) ran other)
    | fresh value =>
      have scopes : w₂.scopes = w₁.scopes := scopes_of_bring brought
      have log : w₂.log = w₁.log := log_of_bring brought
      have own : made.maker = b.provider ∧ made.value = value := by
        cases brought
        exact ⟨rfl, rfl⟩
      have begun : w.Grows (w.calling scope key b.provider) :=
        (Grows.record w (.asked scope key)).trans (Grows.record _ _)
      obtain ⟨cache, found', -⟩ :=
        (begun.trans ((below_growing conduct depth).carryOut ran)).kept scope s found
      have held (place : H × K) : w₁.held? place = w₂.held? place :=
        (held?_of_scopes scopes place).symm
      rw [← findScope_of_scopes scopes] at found'
      have place := held?_store found' stored
      obtain ⟨vacant, rfl, rfl⟩ | ⟨-, -, rfl⟩ | ⟨cached, -, rfl⟩ := store_cases found' stored
      · refine .created absent bound ran own ?_ (by simpa [held] using place) ?_
        · rw [held, held?_of_found found', vacant]
        · rw [log_record, log_record, ← log]
          simp [Happening.event?]
      · refine absurd ?_ (new scope s.name key made)
        exact List.mem_cons_of_mem _ List.mem_cons_self
      · refine .discarded absent bound ran ?_ ?_ scopes
        · rw [held, held?_of_found found', cached]
        · rw [log_record, log_record, ← log]
          simp [Happening.event?]

/-- Scope events account for scope state. After every run in which calls of providers make new
instances only, a scope holds as many instances as it has reported to have created since it was
opened, less those that removals have returned and those that its reports of clearings and disposals
count. Every request that the run goes on with, at the top or nested in a provider's call or made by
an instance that is let go, reports one creation if it stores what was made for it, one duplicate if
what was made is not stored, and nothing if it finds its instance or fails. -/
theorem events_account_for_scopes (fresh : conduct.AlwaysFresh)
    (runs : Runs conduct empty trace w) :
    (∀ scope s, w.findScope scope = some s →
      s.cache.size + handedBack scope trace + ((w.emitted scope).map Event.dropped).sum =
        (w.emitted scope).countP Event.isCreation) ∧
    ∀ e s, Asked conduct w e → e.before.findScope e.scope = some s →
      ∃ reply, e.answer = some reply ∧
        Announces conduct (below conduct e.depth) e.scope e.key s e.before reply e.after := by
  have reachable : Reachable conduct w := runs.reachable .empty
  constructor
  · intro scope s found
    have balanced := runs.balanced fresh scope
    rw [History.Balanced, ← size_eq_holding reachable.atRest.toInOrder found] at balanced
    simpa [emitted] using balanced
  · intro e s asked found
    obtain ⟨ordered, -, answered⟩ := asked.sound reachable.atRest reachable.served
    exact announces_of_get fresh ordered found answered

/-- Its only provider asks for its own key when it is called first, and so does what it makes when
it is let go. -/
def selfish : Catalogue Nat String :=
  [.recipe ⟨⟨"a", ⟨⟨"A"⟩, 0⟩⟩, none, 0, some (0, "a"), some (0, "a")⟩]

def selfishSteps : List (Step Nat String Supplier) :=
  [.openScope 0 none (.ofSteps [.add ⟨"a", ⟨0, none⟩, none, []⟩]), .get 0 "a", .dispose 0,
    .remove 0 "a"]

theorem selfish_emitted :
    (run selfish.conduct 2 selfishSteps empty).map (fun r => (r.2.emitted 0,
      handedBack 0 (selfishSteps.zip r.1).reverse, (r.2.findScope 0).map (·.name))) =
      some ([.instanceCreated "default" "a", .duplicateDiscarded "default" "a",
        .instanceCreated "default" "a", .scopeDisposed "default" 1], 1, some "default") := by
  cbv

/-- Two instances were stored, one of them told and the other one handed back. -/
theorem selfish_accounted : selfish.conduct.AlwaysFresh ∧ ∃ outcomes w s,
    run selfish.conduct 2 selfishSteps empty = some (outcomes, w) ∧
      Runs selfish.conduct empty (selfishSteps.zip outcomes).reverse w ∧
      w.findScope 0 = some s ∧ s.cache.size = 0 := by
  obtain ⟨⟨outcomes, w⟩, ran, e⟩ := Option.map_eq_some_iff.1 selfish_emitted
  obtain ⟨emitted, e⟩ := Prod.mk.inj e
  obtain ⟨back, named⟩ := Prod.mk.inj e
  obtain ⟨s, found, -⟩ := Option.map_eq_some_iff.1 named
  have runs : Runs selfish.conduct empty (selfishSteps.zip outcomes).reverse w := by
    have begins : Runs selfish.conduct empty [] empty := .refl
    simpa using begins.run ran
  refine ⟨selfish.alwaysFresh, outcomes, w, s, ran, runs, found, ?_⟩
  have balance := (events_account_for_scopes selfish.alwaysFresh runs).1 0 s found
  rw [emitted, back] at balance
  simp [Event.dropped, Event.isCreation, List.countP_cons] at balance
  exact balance

end World
end Registrar
