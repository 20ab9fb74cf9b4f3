import Registrar.Proofs.Scope.Series

/-!
# Retries

A series of requests goes on through every run that leaves it undisturbed, whatever else is called,
asked for, removed or disposed of in between. So the next request has the reply that is due.
-/

namespace Registrar

open History

variable {H K P V α : Type}

namespace Series

open World

variable [DecidableEq H] [DecidableEq K] [DecidableEq P] [Key K]
variable {conduct : Conduct H K P V} {respond : Responder H K P V} {w w' : World H K P V}
variable {t : Series H K P V} {newer during : List (Happening H K P V)}

theorem On.call (keeps : t.Keeps respond) (growing : Growing respond)
    {purpose : Option (H × K)} {maker : P} {reply : Reply P V}
    (called : World.call conduct respond purpose maker w = some (reply, w')) (quiet : t.Quiet w')
    (on : t.On w) : t.On w' := by
  have begun (w₁ : World H K P V) (late : t.Quiet w₁)
      (grows : (w.record (.called maker (w.callsOf maker + 1))).Grows w₁) :
      t.On (w.record (.called maker (w.callsOf maker + 1))) := by
    refine on.next rfl rfl (by simp) rfl ?_
    -- a call that serves no request is not one of the provider of the series
    rintro number e
    cases e
    obtain ⟨newer, under⟩ := on
    have whole : (w.record (.called t.binding.provider
        (w.callsOf t.binding.provider + 1))).history =
          [] ++ .called t.binding.provider (w.callsOf t.binding.provider + 1) :: newer ++
            t.older := by
      rw [record, under.history]
      rfl
    exact under.ended _ _ ((late.of_suffix grows.history _ whole).only [] _ _ rfl)
  unfold World.call at called
  dsimp only at called
  split at called
  · cases called
  · next fault w₁ ran =>
    cases called
    exact On.carryOut keeps growing ran quiet (begun _ quiet (growing.carryOut ran))
  · next other w₁ ran =>
    cases called
    have late : t.Quiet w₁ := quiet.of_suffix (List.suffix_cons _ _)
    have on₁ := On.carryOut keeps growing ran late (begun _ late (growing.carryOut ran))
    exact on₁.next rfl rfl (by simp) rfl (by simp)
  · next value w₁ ran =>
    cases called
    have late : t.Quiet w₁ := quiet.of_suffix (List.suffix_cons _ _)
    have on₁ := On.carryOut keeps growing ran late (begun _ late (growing.carryOut ran))
    exact on₁.next rfl rfl (by simp) rfl (by simp)

theorem On.createFrom (keeps : t.Keeps respond) (growing : Growing respond)
    {purpose : Option (H × K)} {registry : Registry K P} {key : K} {reply : Reply P V}
    (created : World.createFrom conduct respond purpose registry key w = some (reply, w'))
    (quiet : t.Quiet w') (on : t.On w) : t.On w' := by
  unfold World.createFrom at created
  split at created
  · cases created
    exact on
  · obtain ⟨⟨reply₁, w₁⟩, called, e⟩ := Option.map_eq_some_iff.1 created
    cases e
    exact On.call keeps growing called quiet on

/-- Instances are taken out of other places. -/
theorem On.take {scope : H} {s : Scope K P V} {cache : Table K (Instance P V)}
    {h : Happening H K P V} (sound : Sound conduct w) (found : w.findScope scope = some s)
    (leaves : ∀ place, h.takes place = true → place.1 = scope)
    (left : ∀ k, cache.find? k = if h.takes (scope, k) then none else s.cache.find? k)
    (other : h.Taking) (quiet : t.Quiet ((w.setCache scope s cache).record h)) (on : t.On w) :
    t.On ((w.setCache scope s cache).record h) := by
  obtain ⟨newer, under⟩ := on
  have grown : ((w.setCache scope s cache).record h).history = [h] ++ w.history := rfl
  have silent : replies t.place [h] = [] := by
    cases h <;> first | rfl | exact other.elim
  have untold : ∀ scope key, [h].head? ≠ some (.asked scope key) := by
    cases h <;> first | exact other.elim | simp
  have uncalled : ∀ number, .called t.binding.provider number ∉ [h] := by
    cases h <;> first | exact other.elim | simp
  refine ⟨_, under.extend grown untold ?_ ?_ silent uncalled⟩
  · intro s' found'
    by_cases same : t.scope = scope
    · rw [same, found] at found'
      cases found'
      exact ⟨_, (findScope_setCache w scope t.scope s cache).trans (if_pos same), rfl⟩
    · exact ⟨s', (findScope_setCache w scope t.scope s cache).trans (by rw [if_neg same, found']),
        rfl⟩
  · rw [held?_record, held?_setCache]
    split
    · next same =>
      change t.scope = scope at same
      subst same
      have held : w.held? t.place = s.cache.find? t.key := held?_of_found found t.key
      change cache.find? t.key = _
      rw [left, held]
      split
      · next taken =>
        have whole : ((w.setCache t.scope s cache).record h).history =
            [] ++ h :: newer ++ t.older := by
          rw [grown, under.history]
          rfl
        have vacant := (quiet _ whole).untaken [] h newer rfl taken
        rw [← under.history] at vacant
        symm
        rw [Option.eq_none_iff_forall_not_mem]
        intro x cached
        exact vacant x (sound.mem_stock_iff.2 ⟨s, found, cached⟩)
      · rfl
    · rfl

theorem On.notifyAll (keeps : t.Keeps respond) (growing : Growing respond)
    {held : List (Instance P V)} (told : World.notifyAll conduct respond held w = some w')
    (quiet : t.Quiet w') (on : t.On w) : t.On w' :=
  (lasting_goesOn.notifyAll (fun _ _ _ _ _ answered => ⟨growing answered, keeps answered⟩) told).on
    quiet on

theorem On.openScope {scope : H} {name : Option String} {registry : Registry K P}
    (quiet : t.Quiet (w.openScope scope name registry)) (on : t.On w) :
    t.On (w.openScope scope name registry) := by
  obtain ⟨newer, under⟩ := on
  obtain ⟨during, grown, dropped⟩ : ∃ during, (w.openScope scope name registry).history =
      .opened scope (name.getD "default") :: during ++ w.history ∧
        ∀ h ∈ during, ∃ held, h = .abandoned scope held := by
    unfold World.openScope
    cases w.findScope scope with
    | none => exact ⟨[], rfl, by simp⟩
    | some old => exact ⟨[.abandoned scope old.cache.values], rfl, by simp⟩
  have away : t.scope ≠ scope := by
    rintro rfl
    have whole : (w.openScope t.scope name registry).history =
        .opened t.scope (name.getD "default") :: (during ++ newer) ++ t.older := by
      rw [grown, under.history]
      simp
    exact (quiet _ whole).unopened _ List.mem_cons_self
  have same : (w.openScope scope name registry).findScope t.scope = w.findScope t.scope := by
    unfold World.openScope
    cases w.findScope scope <;> exact Table.find?_insert_of_ne away
  refine ⟨_, under.extend grown (by simp) ?_ ?_ ?_ ?_⟩
  · intro s found
    exact ⟨s, same.trans found, rfl⟩
  · rw [held?, place, same]
    rfl
  · rw [replies, List.filterMap_cons_none rfl, List.filterMap_eq_nil_iff]
    intro h mem
    obtain ⟨held, rfl⟩ := dropped h mem
    rfl
  · intro number mem
    rcases List.mem_cons.1 mem with e | mem
    · cases e
    · obtain ⟨held, e⟩ := dropped _ mem
      cases e

theorem On.remove {scope : H} {key : K} (sound : Sound conduct w)
    (quiet : t.Quiet (w.remove scope key).2) (on : t.On w) : t.On (w.remove scope key).2 := by
  unfold World.remove at quiet ⊢
  cases found : w.findScope scope with
  | none => exact on
  | some s =>
    simp only [found] at quiet ⊢
    cases cached : s.cache.find? key with
    | none => exact on
    | some held =>
      simp only [cached] at quiet ⊢
      refine on.take sound found ?_ ?_ trivial quiet
      · simp only [Happening.takes, decide_eq_true_eq]
        rintro place rfl
        rfl
      · simp [Happening.takes, Table.find?_erase]

theorem On.clear {scope : H} (sound : Sound conduct w) (quiet : t.Quiet (w.clear scope).2)
    (on : t.On w) : t.On (w.clear scope).2 := by
  unfold World.clear at quiet ⊢
  cases found : w.findScope scope with
  | none => exact on
  | some s =>
    simp only [found] at quiet ⊢
    exact on.take sound found (by simp [Happening.takes]) (by simp [Happening.takes]) trivial quiet

theorem On.disposeIn (fails : conduct.FailsFirst t.binding.provider t.failures t.fault)
    {depth : Nat} {scope : H} {s : Scope K P V} {order held : List (Instance P V)}
    (sound : Sound conduct w) (found : w.findScope scope = some s)
    (disposed : w.disposeIn conduct depth scope s order = some (held, w')) (quiet : t.Quiet w')
    (on : t.On w) : t.On w' := by
  obtain ⟨w₁, told, e⟩ := Option.map_eq_some_iff.1 disposed
  cases e
  have growing := get_growing conduct depth
  have late : t.Quiet w₁ := quiet.of_suffix (List.suffix_cons _ _)
  have before := late.of_suffix (growing.notifyAll told).history
  have drained : t.On ((w.setCache scope s .empty).record (.drained scope order)) := by
    refine on.take sound found ?_ ?_ trivial before
    · simp [Happening.takes]
    · simp [Happening.takes]
  have on₁ := On.notifyAll (get_keeps fails depth) growing told late drained
  exact on₁.next rfl rfl (by simp) rfl (by simp)

variable [HasType V]

theorem On.step (fails : conduct.FailsFirst t.binding.provider t.failures t.fault)
    {depth : Nat} {step : Step H K P} {outcome : Outcome P V} (sound : Sound conduct w)
    (stepped : w.step conduct depth step = some (outcome, w')) (quiet : t.Quiet w')
    (on : t.On w) : t.On w' := by
  have keeps := get_keeps fails depth
  have growing := get_growing conduct depth
  cases step with
  | openScope scope name registry =>
    cases stepped
    exact on.openScope quiet
  | call maker =>
    obtain ⟨⟨reply, w₁⟩, called, e⟩ := Option.map_eq_some_iff.1 stepped
    cases e
    exact On.call keeps growing called quiet on
  | create registry key =>
    obtain ⟨⟨reply, w₁⟩, created, e⟩ := Option.map_eq_some_iff.1 stepped
    cases e
    exact On.createFrom keeps growing created quiet on
  | createAs registry key type =>
    obtain ⟨⟨reply, w₁⟩, created, e⟩ := Option.map_eq_some_iff.1 stepped
    cases e
    exact On.createFrom keeps growing created quiet on
  | get scope key =>
    obtain ⟨⟨reply, w₁⟩, answered, e⟩ := Option.map_eq_some_iff.1 stepped
    cases e
    exact keeps answered quiet on
  | getAs scope key type =>
    obtain ⟨⟨reply, w₁⟩, answered, e⟩ := Option.map_eq_some_iff.1 stepped
    cases e
    exact keeps answered quiet on
  | remove scope key =>
    cases stepped
    exact on.remove sound quiet
  | clear scope =>
    cases stepped
    exact on.clear sound quiet
  | dispose scope =>
    obtain ⟨⟨held, w₁⟩, ended, e⟩ := Option.map_eq_some_iff.1 stepped
    cases e
    obtain ⟨-, -, rfl⟩ | ⟨s, told, found, rfl, disposed⟩ := dispose_cases ended
    · exact on
    · exact on.disposeIn fails sound found disposed quiet

end Series

namespace World

variable [DecidableEq H] [DecidableEq K] [DecidableEq P] [Key K] [HasType V]
variable {conduct : Conduct H K P V} {w w' : World H K P V} {depth : Nat}

omit [HasType V] in
theorem history_of_disposeIn {scope : H} {s : Scope K P V} {order held : List (Instance P V)}
    (disposed : w.disposeIn conduct depth scope s order = some (held, w')) :
    w.history <:+ w'.history := by
  obtain ⟨w₁, told, e⟩ := Option.map_eq_some_iff.1 disposed
  cases e
  have later := ((get_growing conduct depth).notifyAll told).history
  exact (List.suffix_cons _ _).trans (later.trans (List.suffix_cons _ _))

theorem AtRest.history_of_step {s : Step H K P} {outcome : Outcome P V} (rest : AtRest conduct w)
    (stepped : w.step conduct depth s = some (outcome, w')) : w.history <:+ w'.history := by
  cases s with
  | openScope scope name registry =>
    cases stepped
    unfold World.openScope
    cases w.findScope scope with
    | none => exact List.suffix_cons _ _
    | some old => exact (List.suffix_cons _ _).trans (List.suffix_cons _ _)
  | remove scope key =>
    cases stepped
    split
    · exact List.suffix_rfl
    · split
      · exact List.suffix_rfl
      · exact List.suffix_cons _ _
  | clear scope =>
    cases stepped
    split
    · exact List.suffix_rfl
    · exact List.suffix_cons _ _
  | dispose scope =>
    obtain ⟨⟨held, w₁⟩, ended, e⟩ := Option.map_eq_some_iff.1 stepped
    cases e
    obtain ⟨-, -, rfl⟩ | ⟨s, told, -, -, disposed⟩ := dispose_cases ended
    · exact List.suffix_rfl
    · exact history_of_disposeIn disposed
  | _ =>
    obtain ⟨-, extended⟩ := rest.toInOrder.asks stepped trivial
    obtain ⟨newer, grown, -⟩ := extended.history
    exact ⟨newer, grown.symm⟩

end World

namespace Series

open World

variable [DecidableEq H] [DecidableEq K] [DecidableEq P] [Key K] [HasType V]
variable {conduct : Conduct H K P V} {t : Series H K P V} {w w₀ : World H K P V}

theorem On.runs (fails : conduct.FailsFirst t.binding.provider t.failures t.fault)
    {trace : List (Step H K P × Outcome P V)} (begins : Reachable conduct w₀)
    (runs : Runs conduct w₀ trace w) (quiet : t.Quiet w) (on : t.On w₀) : t.On w := by
  induction runs with
  | refl => exact on
  | step runs stepped ih =>
    have rest := (runs.reachable begins).atRest
    have before := quiet.of_suffix (rest.history_of_step stepped)
    exact (ih before).step fails rest.toSound stepped quiet
  | disposeIn runs found all disposed ih =>
    have rest := (runs.reachable begins).atRest
    have before := quiet.of_suffix (history_of_disposeIn disposed)
    exact (ih before).disposeIn fails rest.toSound found disposed quiet

omit [HasType V] in
/-- The next request has an outcome at any depth, and goes on with the series. -/
theorem Underway.next_reply {newer : List (Happening H K P V)} (under : t.Underway newer w)
    (fails : conduct.FailsFirst t.binding.provider t.failures t.fault) (depth : Nat) :
    ∃ reply w', get conduct depth t.scope t.key w = some (some reply, w') ∧
      t.Retried (reply :: replies t.place newer) := by
  have ends : (get conduct depth t.scope t.key w).isSome := by
    obtain ⟨s, found, bound⟩ := under.served
    obtain ⟨result, w₁, ran, -⟩ := carryOut_of_alone (fails.alone
      (w.callsOf t.binding.provider + 1)) (below conduct depth)
        (w.calling t.scope t.key t.binding.provider)
    rw [get_eq]
    have course : ∃ reply w', Course conduct (below conduct depth) t.scope t.key s w reply w' := by
      cases cached : s.cache.find? t.key with
      | some x => exact ⟨_, _, .found cached⟩
      | none =>
        cases result with
        | error fault => exact ⟨_, _, .failed cached bound ran⟩
        | ok y => exact ⟨_, _, .made cached bound ran rfl rfl⟩
    obtain ⟨reply, w₂, course⟩ := course
    rw [course.getVia found]
    rfl
  obtain ⟨⟨answer, w'⟩, answered⟩ := Option.isSome_iff_exists.1 ends
  have via := answered
  rw [get_eq] at via
  obtain ⟨reply, newer', rfl, under', told⟩ := under.own fails via
  exact ⟨reply, w', answered, told ▸ under'.progress.retried⟩

end Series
end Registrar
