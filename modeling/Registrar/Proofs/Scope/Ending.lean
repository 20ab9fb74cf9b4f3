import Registrar.Proofs.Registry.Isolation
import Registrar.Proofs.Scope.Depth
import Registrar.Proofs.Scope.Series

/-!
# Nested requests end

A provider makes at most one request, on its first call, and an instance at most one when it is let
go. The requests may go round in circles, for an inner one does not find what an outer one has not
stored yet; but each that nests another one calls a provider for the first time. So what a request
spends is bounded by the providers that have not been called: their first calls come out of that
stock, and only the call that ends the nesting is not paid for by it.
-/

namespace Registrar

variable {H K P V α : Type}

namespace Errand

variable {R : Type}

/-- The errand makes at most one request. -/
def AtMostOne : Errand H K R α → Prop
  | .done _ => True
  | .report _ next => next.AtMostOne
  | .request _ _ next => ∀ reply, (next reply).Alone

end Errand

/-- At most one request per provider, on its first call, and at most one per notice. -/
structure Conduct.Modest (conduct : Conduct H K P V) : Prop where
  first : ∀ maker, (conduct.produce maker 1).AtMostOne
  later : ∀ maker number, 1 < number → (conduct.produce maker number).Alone
  release : ∀ x number, (conduct.release x number).AtMostOne

variable [DecidableEq P]

/-- The providers that are bound in a registry. -/
def Registry.makers (r : Registry K P) : Finset P := (r.bindings.values.map (·.provider)).toFinset

theorem Registry.provider_mem_makers [DecidableEq K] [Key K] {r : Registry K P} {key : K}
    {b : Binding K P} (found : r.binding key = .ok b) : b.provider ∈ r.makers := by
  obtain ⟨b', mem, found'⟩ | failed | ⟨candidates, failed⟩ := r.binding_cases key
  · rw [found] at found'
    cases found'
    rw [Registry.makers, List.mem_toFinset]
    exact List.mem_map_of_mem mem
  · rw [found] at failed
    cases failed
  · rw [found] at failed
    cases failed

namespace World

/-- The providers that are bound in the registries of open scopes. -/
def makers (w : World H K P V) : Finset P :=
  (w.scopes.values.flatMap fun s => s.registry.bindings.values.map (·.provider)).toFinset

/-- The providers that a step names besides those of open scopes. -/
def Step.makers : Step H K P → Finset P
  | .call maker => {maker}
  | .create registry _ | .createAs registry _ _ => registry.makers
  | _ => ∅

/-- Those of a pool of providers that have not been called yet. -/
def uncalled (w : World H K P V) (pool : Finset P) : Finset P :=
  pool.filter (w.callsOf · = 0)

variable [DecidableEq H]

theorem mem_makers_iff {w : World H K P V} {maker : P} :
    maker ∈ w.makers ↔ ∃ scope s, w.findScope scope = some s ∧ maker ∈ s.registry.makers := by
  simp only [makers, Registry.makers, List.mem_toFinset, List.mem_flatMap, Table.mem_values_iff]
  constructor
  · rintro ⟨s, ⟨scope, found⟩, mem⟩
    exact ⟨scope, s, found, mem⟩
  · rintro ⟨scope, s, found, mem⟩
    exact ⟨s, ⟨scope, found⟩, mem⟩

variable [DecidableEq K]
variable {conduct : Conduct H K P V} {respond : Responder H K P V} {w w' w'' : World H K P V}
variable {scope : H} {key : K} {s : Scope K P V} {pool : Finset P} {maker : P}

theorem Grows.makers_subset (grows : w.Grows w') : w'.makers ⊆ w.makers := by
  intro maker mem
  obtain ⟨scope, s', found', bound⟩ := mem_makers_iff.1 mem
  cases found : w.findScope scope with
  | none =>
    rw [grows.closed scope found] at found'
    cases found'
  | some s =>
    obtain ⟨cache, kept, -⟩ := grows.kept scope s found
    rw [found'] at kept
    cases kept
    exact mem_makers_iff.2 ⟨scope, s, found, bound⟩

omit [DecidableEq H] [DecidableEq K] in
theorem uncalled_subset (history : w.history <:+ w'.history) (pool : Finset P) :
    w'.uncalled pool ⊆ w.uncalled pool := by
  intro maker mem
  rw [uncalled, Finset.mem_filter] at mem ⊢
  have fewer : w.callsOf maker ≤ w'.callsOf maker := history.sublist.countP_le
  exact ⟨mem.1, Nat.eq_zero_of_le_zero (mem.2 ▸ fewer)⟩

/-- Between two worlds providers are called, and at most `count` of the calls are not first calls of
providers in the pool. -/
structure Spends (pool : Finset P) (count : Nat) (w w' : World H K P V) : Prop
    extends w.Grows w' where
  calls : w'.calls.length + (w'.uncalled pool).card ≤
    w.calls.length + (w.uncalled pool).card + count

namespace Spends

variable {count more : Nat}

theorem trans (first : Spends pool count w w') (second : Spends pool more w' w'') :
    Spends pool (count + more) w w'' := by
  refine ⟨first.toGrows.trans second.toGrows, ?_⟩
  have before := first.calls
  have after := second.calls
  omega

theorem mono (spends : Spends pool count w w') (fewer : count ≤ more) :
    Spends pool more w w' :=
  ⟨spends.toGrows, spends.calls.trans (Nat.add_le_add_left fewer _)⟩

theorem of_uncalled {newer : List (Happening H K P V)} (grows : w.Grows w')
    (history : w'.history = newer ++ w.history)
    (none : ∀ maker number, .called maker number ∉ newer) : Spends pool 0 w w' := by
  have counts (maker : P) : w'.callsOf maker = w.callsOf maker :=
    callsOf_append maker history (none maker)
  have calls : w'.calls = w.calls := by
    unfold World.calls
    rw [history, List.filterMap_append, List.append_left_eq_self, List.filterMap_eq_nil_iff]
    intro h mem
    cases h with
    | called maker number => exact absurd mem (none maker number)
    | _ => rfl
  refine ⟨grows, ?_⟩
  simp only [uncalled, counts, calls]
  exact Nat.le_refl _

theorem refl (w : World H K P V) : Spends pool 0 w w :=
  of_uncalled (.refl w) (List.nil_append _).symm (by simp)

theorem record (w : World H K P V) {h : Happening H K P V}
    (other : ∀ maker number, h ≠ .called maker number) : Spends pool 0 w (w.record h) := by
  refine of_uncalled (.record w h) (List.singleton_append).symm ?_
  simpa [eq_comm] using other

theorem carryOut_of_alone {errand : Errand H K (Reply P V) α} (alone : errand.Alone)
    (respond : Responder H K P V) (pool : Finset P) (w : World H K P V) :
    ∃ result w', carryOut respond errand w = some (result, w') ∧ Spends pool 0 w w' := by
  obtain ⟨result, w', ran, same, reports, history, only⟩ :=
    World.carryOut_of_alone alone respond w
  refine ⟨result, w', ran, of_uncalled (.of_scopes ⟨reports, history.symm⟩ same) history ?_⟩
  intro maker number mem
  obtain ⟨event, e⟩ := only _ mem
  cases e

theorem uncalled_le (spends : Spends pool count w w') :
    (w'.uncalled pool).card ≤ (w.uncalled pool).card :=
  Finset.card_le_card (uncalled_subset spends.history pool)

end Spends

omit [DecidableEq H] [DecidableEq K] in
/-- The first call of a provider comes out of the stock. -/
theorem card_uncalled_called (mem : maker ∈ pool) (first : w.callsOf maker = 0) (number : Nat) :
    ((w.record (.called maker number)).uncalled pool).card + 1 = (w.uncalled pool).card := by
  have erased : (w.record (.called maker number)).uncalled pool =
      (w.uncalled pool).erase maker := by
    ext other
    simp only [uncalled, Finset.mem_filter, Finset.mem_erase, callsOf_called]
    by_cases same : maker = other
    · simp [same]
    · have differs : other ≠ maker := fun e => same e.symm
      simp [same, differs]
  have here : maker ∈ w.uncalled pool := Finset.mem_filter.2 ⟨mem, first⟩
  rw [erased, Finset.card_erase_add_one here]

theorem Spends.called (w : World H K P V) (mem : maker ∈ pool) (number : Nat) :
    Spends pool (if w.callsOf maker = 0 then 0 else 1) w (w.record (.called maker number)) := by
  refine ⟨.record w _, ?_⟩
  have one : (w.record (.called maker number)).calls.length = w.calls.length + 1 := rfl
  have later : w.history <:+ (w.record (.called maker number)).history := List.suffix_cons _ _
  have fewer := Finset.card_le_card (uncalled_subset later pool)
  split
  · next first =>
    have stock := card_uncalled_called mem first number
    omega
  · omega

/-- All requests end that are made while few enough providers are uncalled, and spend one call. -/
def Frugal (pool : Finset P) (depth : Nat) (respond : Responder H K P V) : Prop :=
  ∀ ⦃scope key⦄ ⦃w : World H K P V⦄, w.makers ⊆ pool → (w.uncalled pool).card < depth →
    ∃ answer w', respond scope key w = some (answer, w') ∧ Spends pool 1 w w'

variable {depth : Nat}

theorem Frugal.carryOut (frugal : Frugal pool depth respond)
    {errand : Errand H K (Reply P V) α} (modest : errand.AtMostOne) (within : w.makers ⊆ pool)
    (enough : (w.uncalled pool).card < depth) :
    ∃ result w', World.carryOut respond errand w = some (result, w') ∧ Spends pool 1 w w' := by
  induction errand generalizing w with
  | done result => exact ⟨result, w, rfl, (Spends.refl w).mono (Nat.zero_le 1)⟩
  | report event next ih =>
    have reported : Spends pool 0 w (w.record (.reported event)) := .record w (by simp)
    have still : (w.record (.reported event)).makers ⊆ pool :=
      reported.makers_subset.trans within
    obtain ⟨result, w', ran, spends⟩ := ih modest still (reported.uncalled_le.trans_lt enough)
    exact ⟨result, w', ran, by simpa using reported.trans spends⟩
  | request scope key next ih =>
    -- whatever the answer is, the errand makes no further request
    obtain ⟨answer, w₁, answered, spends⟩ := @frugal scope key w within enough
    obtain ⟨result, w', ran, rest⟩ :=
      Spends.carryOut_of_alone (modest answer) respond pool w₁
    refine ⟨result, w', ?_, by simpa using spends.trans rest⟩
    rw [World.carryOut, answered]
    exact ran

theorem Spends.bring {y : Yield P V} {made : Instance P V} {purpose : Option (H × K)}
    {number : Nat} (brought : w.bring purpose maker number y = (made, w')) :
    Spends pool 0 w w' := by
  cases y with
  | known other =>
    cases brought
    exact .record w (by simp)
  | fresh value =>
    cases brought
    have grows : w.Grows ({ w with produced := w.produced + 1 }.record
        (.produced number purpose ⟨w.produced + 1, maker, value⟩)) :=
      .of_scopes (List.suffix_cons _ _) rfl
    exact of_uncalled grows (List.singleton_append).symm (by simp)

theorem Spends.store {made kept : Instance P V} (stored : w.store scope key made = (kept, w')) :
    Spends pool 0 w w' := by
  have grows := grows_store stored
  cases found : w.findScope scope with
  | none =>
    simp only [World.store, found, Prod.mk.injEq] at stored
    exact stored.2 ▸ .refl w
  | some s =>
    obtain ⟨-, -, rfl⟩ | ⟨-, -, rfl⟩ | ⟨-, -, rfl⟩ := store_cases found stored
    all_goals exact of_uncalled grows (List.singleton_append).symm (by simp)

/-- A first call may make a request, for there is one provider fewer to be called; a later one makes
none. -/
theorem Frugal.produce (modest : conduct.Modest) (frugal : Frugal pool depth respond)
    (mem : maker ∈ pool) (within : w.makers ⊆ pool)
    (enough : (w.uncalled pool).card ≤ depth) :
    ∃ result w', World.carryOut respond (conduct.produce maker (w.callsOf maker + 1))
        (w.record (.called maker (w.callsOf maker + 1))) = some (result, w') ∧
      Spends pool 1 w w' := by
  have called := Spends.called w mem (w.callsOf maker + 1)
  have still := called.makers_subset.trans within
  by_cases first : w.callsOf maker = 0
  · rw [if_pos first] at called
    have one : (conduct.produce maker (w.callsOf maker + 1)).AtMostOne := by
      rw [first]
      exact modest.first maker
    have stock := card_uncalled_called mem first (w.callsOf maker + 1)
    obtain ⟨result, w', ran, spends⟩ := frugal.carryOut one still (by omega)
    exact ⟨result, w', ran, by simpa using called.trans spends⟩
  · rw [if_neg first] at called
    have alone := modest.later maker (w.callsOf maker + 1) (by omega)
    obtain ⟨result, w', ran, spends⟩ := Spends.carryOut_of_alone alone respond pool _
    exact ⟨result, w', ran, called.trans spends⟩

theorem Frugal.call (modest : conduct.Modest) (frugal : Frugal pool depth respond)
    (mem : maker ∈ pool) (within : w.makers ⊆ pool)
    (enough : (w.uncalled pool).card ≤ depth) (purpose : Option (H × K)) :
    ∃ reply w', World.call conduct respond purpose maker w = some (reply, w') ∧
      Spends pool 1 w w' := by
  obtain ⟨result, w₁, ran, spends⟩ := frugal.produce modest mem within enough
  unfold World.call
  dsimp only
  rw [ran]
  match result with
  | .error fault => exact ⟨_, _, rfl, spends⟩
  | .ok (.known other) => exact ⟨_, _, rfl, spends.trans (.bring (y := .known other) rfl)⟩
  | .ok (.fresh value) => exact ⟨_, _, rfl, spends.trans (.bring (y := .fresh value) rfl)⟩

theorem Frugal.notifyAll (modest : conduct.Modest) (frugal : Frugal pool depth respond)
    (within : w.makers ⊆ pool) (enough : (w.uncalled pool).card < depth)
    (held : List (Instance P V)) :
    ∃ w', World.notifyAll conduct respond held w = some w' ∧ Spends pool held.length w w' := by
  induction held generalizing w with
  | nil => exact ⟨w, rfl, .refl w⟩
  | cons x rest ih =>
    have told : Spends pool 0 w (w.record (.notified x)) := .record w (by simp)
    obtain ⟨result, w₁, ran, spends⟩ := frugal.carryOut (modest.release x (w.noticesOf x + 1))
      (told.makers_subset.trans within) (told.uncalled_le.trans_lt enough)
    have spent := told.trans spends
    obtain ⟨w', others, more⟩ :=
      ih (spent.makers_subset.trans within) (spent.uncalled_le.trans_lt enough)
    refine ⟨w', ?_, (spent.trans more).mono (by rw [List.length_cons]; omega)⟩
    unfold World.notifyAll
    dsimp only
    rw [ran]
    exact others

variable [Key K]

theorem Frugal.createFrom (modest : conduct.Modest) (frugal : Frugal pool depth respond)
    {registry : Registry K P} (bound : registry.makers ⊆ pool) (within : w.makers ⊆ pool)
    (enough : (w.uncalled pool).card ≤ depth) (purpose : Option (H × K)) (key : K) :
    ∃ reply w', World.createFrom conduct respond purpose registry key w = some (reply, w') ∧
      Spends pool 1 w w' := by
  cases found : registry.binding key with
  | error fault =>
    exact ⟨_, w, by rw [World.createFrom, found], (Spends.refl w).mono (Nat.zero_le 1)⟩
  | ok b =>
    have mem := bound (Registry.provider_mem_makers found)
    obtain ⟨reply, w', called, spends⟩ := frugal.call modest mem within enough purpose
    exact ⟨_, w', by rw [createFrom_of_binding found, called]; rfl, spends⟩

theorem Frugal.getVia (modest : conduct.Modest) (frugal : Frugal pool depth respond) :
    Frugal pool (depth + 1) (World.getVia conduct respond) := by
  intro scope key w within enough
  unfold World.getVia
  cases found : w.findScope scope with
  | none => exact ⟨none, w, rfl, (Spends.refl w).mono (Nat.zero_le 1)⟩
  | some s =>
    have asked : Spends pool 0 w (w.record (.asked scope key)) := .record w (by simp)
    dsimp only
    unfold World.fetch
    cases cached : s.cache.find? key with
    | some x =>
      refine ⟨_, _, rfl, ?_⟩
      exact (asked.trans (.record _ (by simp))).mono (Nat.zero_le 1)
    | none =>
      have bound : s.registry.makers ⊆ pool :=
        fun maker mem => within (mem_makers_iff.2 ⟨scope, s, found, mem⟩)
      obtain ⟨reply, w₁, created, spends⟩ := frugal.createFrom modest bound
        (asked.makers_subset.trans within) (asked.uncalled_le.trans (Nat.le_of_lt_succ enough))
        (some (scope, key)) key
      have spent : Spends pool 1 w w₁ := by simpa using asked.trans spends
      dsimp only
      rw [created]
      cases reply with
      | error fault => exact ⟨_, _, rfl, spent.trans (.record _ (by simp))⟩
      | ok made =>
        have stored : Spends pool 0 w₁ (w₁.store scope key made).2 := .store rfl
        exact ⟨_, _, rfl, (spent.trans stored).trans (.record _ (by simp))⟩

theorem below_frugal (modest : conduct.Modest) (pool : Finset P) (depth : Nat) :
    Frugal pool depth (below conduct depth) := by
  induction depth with
  | zero =>
    intro scope key w within none
    exact absurd none (Nat.not_lt_zero _)
  | succ depth ih =>
    rw [below, get_eq]
    exact ih.getVia modest

/-- Requests end if no more providers are uncalled than requests may nest. -/
theorem get_frugal (modest : conduct.Modest) (pool : Finset P) (depth : Nat) :
    Frugal pool (depth + 1) (get conduct depth) := below_frugal modest pool (depth + 1)

/-- How many requests a step makes on its own account, or a disposal on that of what it tells. -/
def allowance (w : World H K P V) : Step H K P → Nat
  | .call _ | .create _ _ | .createAs _ _ _ | .get _ _ | .getAs _ _ _ => 1
  | .dispose scope =>
    match w.findScope scope with
    | some s => s.cache.size
    | none => 0
  | .openScope _ _ _ | .remove _ _ | .clear _ => 0

theorem exists_disposeIn (modest : conduct.Modest) (found : w.findScope scope = some s)
    (within : w.makers ⊆ pool) (enough : (w.uncalled pool).card ≤ depth)
    (order : List (Instance P V)) :
    ∃ w', w.disposeIn conduct depth scope s order = some (order, w') ∧
      w'.calls.length ≤ w.calls.length + order.length + (w.uncalled pool).card := by
  have still : ((w.setCache scope s .empty).record (.drained scope order)).makers ⊆ pool := by
    refine subset_trans ?_ within
    intro maker mem
    obtain ⟨other, s', found', bound⟩ := mem_makers_iff.1 mem
    have same := findScope_setCache w scope other s .empty
    rw [show (w.setCache scope s .empty).findScope other = some s' from found'] at same
    split at same
    · cases same
      exact mem_makers_iff.2 ⟨scope, s, found, bound⟩
    · exact mem_makers_iff.2 ⟨other, s', same.symm, bound⟩
  have stock : ((w.setCache scope s .empty).record (.drained scope order)).uncalled pool =
      w.uncalled pool := by
    simp only [uncalled, callsOf_record _ (.drained scope order) (by simp)]
    rfl
  have calls : ((w.setCache scope s .empty).record (.drained scope order)).calls = w.calls := rfl
  obtain ⟨w₁, told, spends⟩ := (get_frugal modest pool depth).notifyAll modest still
    (by rw [stock]; exact Nat.lt_succ_of_le enough) order
  refine ⟨_, by rw [disposeIn, told]; rfl, ?_⟩
  have spent := spends.calls
  have last : (w₁.record (.disposed scope s.name order)).calls = w₁.calls := rfl
  rw [stock, calls] at spent
  rw [last]
  omega

variable [HasType V]

theorem exists_step (modest : conduct.Modest) (pool : Finset P) {s : Step H K P}
    (named : s.makers ⊆ pool) (within : w.makers ⊆ pool)
    (enough : (w.uncalled pool).card ≤ depth) :
    ∃ outcome w', w.step conduct depth s = some (outcome, w') ∧
      w'.calls.length ≤ w.calls.length + w.allowance s + (w.uncalled pool).card := by
  have frugal := get_frugal modest pool depth
  have more : (w.uncalled pool).card ≤ depth + 1 := enough.trans (Nat.le_succ _)
  have spent {w' : World H K P V} (spends : Spends pool 1 w w') :
      w'.calls.length ≤ w.calls.length + 1 + (w.uncalled pool).card := by
    have calls := spends.calls
    omega
  cases s with
  | openScope scope name registry =>
    refine ⟨.done, w.openScope scope name registry, rfl, ?_⟩
    have calls : (w.openScope scope name registry).calls = w.calls := by
      unfold World.openScope
      cases w.findScope scope <;> rfl
    rw [calls]
    omega
  | call maker =>
    obtain ⟨reply, w', called, spends⟩ :=
      frugal.call modest (Finset.singleton_subset_iff.1 named) within more none
    exact ⟨_, w', by rw [step, called]; rfl, spent spends⟩
  | create registry key =>
    obtain ⟨reply, w', created, spends⟩ := frugal.createFrom modest named within more none key
    exact ⟨_, w', by rw [step, create, created]; rfl, spent spends⟩
  | createAs registry key type =>
    obtain ⟨reply, w', created, spends⟩ := frugal.createFrom modest named within more none key
    exact ⟨_, w', by rw [step, create, created]; rfl, spent spends⟩
  | get scope key =>
    obtain ⟨answer, w', answered, spends⟩ := frugal within (Nat.lt_succ_of_le enough)
    exact ⟨_, w', by rw [step, answered]; rfl, spent spends⟩
  | getAs scope key type =>
    obtain ⟨answer, w', answered, spends⟩ := frugal within (Nat.lt_succ_of_le enough)
    exact ⟨_, w', by rw [step, answered]; rfl, spent spends⟩
  | remove scope key =>
    refine ⟨.ofRemoved (w.remove scope key).1, (w.remove scope key).2, rfl, ?_⟩
    have calls : (w.remove scope key).2.calls = w.calls := by
      unfold World.remove
      split
      · rfl
      · split <;> rfl
    rw [calls]
    omega
  | clear scope =>
    refine ⟨.ofEmptied (w.clear scope).1, (w.clear scope).2, rfl, ?_⟩
    have calls : (w.clear scope).2.calls = w.calls := by
      unfold World.clear
      split <;> rfl
    rw [calls]
    omega
  | dispose scope =>
    cases found : w.findScope scope with
    | none =>
      refine ⟨_, w, by rw [step, dispose, found]; rfl, ?_⟩
      omega
    | some s =>
      obtain ⟨w', disposed, calls⟩ := exists_disposeIn modest found within enough s.cache.values
      refine ⟨_, w', by rw [step, dispose_eq_disposeIn found, disposed]; rfl, ?_⟩
      rw [Table.values, List.length_map] at calls
      simp only [allowance, found]
      exact calls

omit [DecidableEq H] [DecidableEq K] [DecidableEq P] [Key K] [HasType V] in
theorem exchanges_of_alone {errand : Errand H K (Reply P V) α} (alone : errand.Alone)
    (respond : Responder H K P V) (depth : Nat) (w : World H K P V) :
    exchanges respond depth errand w = [] := by
  induction errand generalizing w with
  | done result => rfl
  | report event next ih => exact ih alone _
  | request scope key next => exact alone.elim

omit [Key K] [HasType V] in
theorem exchanges_of_atMostOne {errand : Errand H K (Reply P V) α} (modest : errand.AtMostOne)
    (respond : Responder H K P V) (depth : Nat) (pool : Finset P) (w : World H K P V) :
    exchanges respond depth errand w = [] ∨
      ∃ e, exchanges respond depth errand w = [e] ∧ Spends pool 0 w e.before := by
  induction errand generalizing w with
  | done result => exact .inl rfl
  | report event next ih =>
    have reported : Spends pool 0 w (w.record (.reported event)) := .record w (by simp)
    refine (ih modest _).imp id ?_
    rintro ⟨e, only, spends⟩
    exact ⟨e, only, reported.trans spends⟩
  | request scope key next =>
    rw [exchanges]
    cases respond scope key w with
    | none => exact .inl rfl
    | some reply =>
      obtain ⟨answer, w'⟩ := reply
      dsimp only
      rw [exchanges_of_alone (modest answer)]
      exact .inr ⟨_, rfl, .refl w⟩

omit [HasType V] in
/-- Every nested request is the one of a provider that is called for the first time. -/
theorem length_nested_le (modest : conduct.Modest) (within : w.makers ⊆ pool) :
    (nested conduct depth scope key w).length ≤ (w.uncalled pool).card := by
  induction depth generalizing scope key w with
  | zero => exact Nat.zero_le _
  | succ depth ih =>
    cases found : w.findScope scope with
    | none => simp [nested, found]
    | some s =>
      cases cached : s.cache.find? key with
      | some x => simp [nested, found, cached]
      | none =>
        cases bound : s.registry.binding key with
        | error fault => simp [nested, found, cached, bound]
        | ok b =>
          have asked : Spends pool 0 w (w.record (.asked scope key)) := .record w (by simp)
          have mem : b.provider ∈ pool :=
            within (mem_makers_iff.2 ⟨scope, s, found, Registry.provider_mem_makers bound⟩)
          have count := callsOf_record w (.asked scope key) (by simp) b.provider
          rw [nested_of_called found cached bound]
          -- the induction goes on with a pool that the first call has made smaller
          by_cases first : w.callsOf b.provider = 0
          · have one : (conduct.produce b.provider (w.callsOf b.provider + 1)).AtMostOne := by
              rw [first]
              exact modest.first _
            have stock := card_uncalled_called mem (count.trans first) (w.callsOf b.provider + 1)
            have still : (w.calling scope key b.provider).makers ⊆ pool := within
            rcases exchanges_of_atMostOne one (World.get conduct depth) depth pool
              (w.calling scope key b.provider) with none | ⟨e, only, spends⟩
            · simp [none]
            · have inside : (nested conduct depth e.scope e.key e.before).length ≤
                  (e.before.uncalled pool).card := ih (spends.makers_subset.trans still)
              have level : e.depth = depth :=
                (exchanges_answered (only ▸ List.mem_singleton_self e)).1
              have before := spends.uncalled_le
              have less := asked.uncalled_le
              rw [only, List.flatMap_singleton, tree, level, List.length_cons]
              change ((w.calling scope key b.provider).uncalled pool).card + 1 = _ at stock
              omega
          · have alone := modest.later b.provider (w.callsOf b.provider + 1) (by omega)
            rw [exchanges_of_alone alone]
            exact Nat.zero_le _

variable (w) in
/-- Nested requests end. Where providers make at most one request, on their first call, and
instances at most one when they are let go, every step has an outcome, and so has every run: the
same at all depths that are great enough. With `u` providers of the open scopes uncalled, depth `u`
is enough for a request, which calls at most `u + 1` providers and nests at most `u` requests; a
disposal of `m` instances, in whatever order it tells them, calls at most `m + u`. -/
theorem nested_requests_end (modest : conduct.Modest) :
    (∀ s : Step H K P, ∃ outcome w',
      (∀ depth, (w.uncalled (s.makers ∪ w.makers)).card ≤ depth →
        w.step conduct depth s = some (outcome, w')) ∧
      w'.calls.length ≤
        w.calls.length + w.allowance s + (w.uncalled (s.makers ∪ w.makers)).card) ∧
    (∀ scope key, ∃ answer w',
      (∀ depth, (w.uncalled w.makers).card ≤ depth →
        get conduct depth scope key w = some (answer, w') ∧
          (nested conduct depth scope key w).length ≤ (w.uncalled w.makers).card) ∧
      w'.calls.length ≤ w.calls.length + ((w.uncalled w.makers).card + 1)) ∧
    (∀ scope s order, w.findScope scope = some s → order.Perm s.cache.values → ∃ w',
      (∀ depth, (w.uncalled w.makers).card ≤ depth →
        w.disposeIn conduct depth scope s order = some (order, w')) ∧
      w'.calls.length ≤ w.calls.length + (s.cache.size + (w.uncalled w.makers).card)) ∧
    ∀ steps : List (Step H K P), ∃ result bound, ∀ depth, bound ≤ depth →
      run conduct depth steps w = some result := by
  have steps_end (w : World H K P V) (s : Step H K P) : ∃ outcome w',
      (∀ depth, (w.uncalled (s.makers ∪ w.makers)).card ≤ depth →
        w.step conduct depth s = some (outcome, w')) ∧
      w'.calls.length ≤
        w.calls.length + w.allowance s + (w.uncalled (s.makers ∪ w.makers)).card := by
    obtain ⟨outcome, w', stepped, calls⟩ := exists_step modest (s.makers ∪ w.makers)
      Finset.subset_union_left Finset.subset_union_right (Nat.le_refl _)
    exact ⟨outcome, w', fun depth deeper => step_of_le deeper stepped, calls⟩
  refine ⟨steps_end w, ?_, ?_, ?_⟩
  · intro scope key
    obtain ⟨answer, w', answered, spends⟩ : ∃ answer w',
        get conduct (w.uncalled w.makers).card scope key w = some (answer, w') ∧
          Spends w.makers 1 w w' :=
      get_frugal modest w.makers _ (subset_refl _) (Nat.lt_succ_self _)
    refine ⟨answer, w', fun depth deeper => ⟨get_refines conduct deeper answered, ?_⟩, ?_⟩
    · exact length_nested_le modest (subset_refl _)
    · have calls := spends.calls
      omega
  · intro scope s order found all
    obtain ⟨w', disposed, calls⟩ :=
      exists_disposeIn modest found (subset_refl _) (Nat.le_refl _) order
    refine ⟨w', fun depth deeper => disposeIn_of_le deeper disposed, ?_⟩
    rw [all.length_eq, Table.values, List.length_map] at calls
    rw [Table.size]
    omega
  · intro steps
    have ends : ∃ result bound, run conduct bound steps w = some result := by
      induction steps generalizing w with
      | nil => exact ⟨([], w), 0, rfl⟩
      | cons s rest ih =>
        obtain ⟨outcome, w₁, stepped, -⟩ := steps_end w s
        obtain ⟨result, bound, ran⟩ := ih w₁
        refine ⟨(outcome :: result.1, result.2),
          max (w.uncalled (s.makers ∪ w.makers)).card bound, ?_⟩
        rw [run, stepped _ (Nat.le_max_left _ _)]
        simp [run_of_le (Nat.le_max_right _ _) ran]
    obtain ⟨result, bound, ran⟩ := ends
    exact ⟨result, bound, fun depth deeper => run_of_le deeper ran⟩

end World

section Described

variable {R : Type}

theorem Recipe.after_atMostOne (request : Option (H × K)) (result : α) :
    (Recipe.after request result : Errand H K R α).AtMostOne := by
  cases request with
  | none => trivial
  | some place => exact fun _ => trivial

/-- Described providers make one request each, on their first call. -/
theorem Catalogue.modest (catalogue : Catalogue H K) : catalogue.conduct.Modest where
  first maker := by
    change (catalogue.produce maker 1).AtMostOne
    unfold Catalogue.produce
    split
    · exact Recipe.after_atMostOne _ _
    all_goals trivial
  later maker number again := by
    change (catalogue.produce maker number).Alone
    unfold Catalogue.produce
    split
    · rw [Recipe.produce, if_neg (by omega)]
      trivial
    all_goals trivial
  release x number := by
    change (catalogue.release x.maker).AtMostOne
    unfold Catalogue.release
    split
    · exact Recipe.after_atMostOne _ _
    · trivial

end Described

namespace World

/-- Each provider asks for the key of the other one, in the other's scope. -/
def circular : Catalogue Nat String :=
  [.recipe ⟨⟨"a", ⟨⟨"A"⟩, 0⟩⟩, none, 0, some (1, "b"), none⟩,
    .recipe ⟨⟨"b", ⟨⟨"B"⟩, 1⟩⟩, none, 0, some (0, "a"), none⟩]

def circularOpened : World Nat String Supplier Item :=
  (empty.openScope 0 none (.ofSteps [.register "a" ⟨0, none⟩])).openScope 1 none
    (.ofSteps [.register "b" ⟨1, none⟩])

theorem circular_uncalled : (circularOpened.uncalled circularOpened.makers).card = 2 := by
  cbv

theorem circular_called :
    (get circular.conduct 2 0 "a" circularOpened).map (·.2.calls) =
      some [⟨0, none⟩, ⟨1, none⟩, ⟨0, none⟩] := by
  cbv

/-- The circle is left after three calls, which is the bound. -/
theorem circular_ends : circular.conduct.Modest ∧
    (circularOpened.uncalled circularOpened.makers).card = 2 ∧ ∃ answer w,
      (∀ depth, 2 ≤ depth → get circular.conduct depth 0 "a" circularOpened = some (answer, w)) ∧
        w.calls.length = circularOpened.calls.length + (2 + 1) := by
  obtain ⟨-, requests, -, -⟩ := nested_requests_end circularOpened circular.modest
  obtain ⟨answer, w, ends, -⟩ := requests 0 "a"
  rw [circular_uncalled] at ends
  refine ⟨circular.modest, circular_uncalled, answer, w, fun depth deep => (ends depth deep).1, ?_⟩
  have called := circular_called
  rw [(ends 2 (Nat.le_refl 2)).1, Option.map_some, Option.some.injEq] at called
  rw [called]
  rfl

end World
end Registrar
