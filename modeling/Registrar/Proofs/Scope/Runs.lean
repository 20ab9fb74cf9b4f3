import Registrar.Proofs.Scope.Requests

/-!
# Runs keep a world in order

Between two steps of a run nothing is under way: the world is in order and no instance waits to be
told that it has been let go. A disposal takes everything out first and tells it afterwards, so what
instances ask for when they are told finds the world in order again.
-/

namespace Registrar

open History

variable {H K P V : Type} [DecidableEq H] [DecidableEq K]

namespace World

/-- Between two steps. -/
structure AtRest (conduct : Conduct H K P V) (w : World H K P V) : Prop
    extends InOrder conduct w where
  idle : awaiting w.history = []

variable {conduct : Conduct H K P V} {respond : Responder H K P V} {w w' : World H K P V}

theorem atRest_empty (conduct : Conduct H K P V) : AtRest conduct empty where
  lawful := Lawful.nil
  slots := List.Perm.refl _
  serials := by simp [empty]
  fresh := by simp [empty, Fresh]
  settled := rfl
  unasked := by simp [empty, Unasked]
  idle := rfl

theorem InOrder.of_same (ordered : InOrder conduct w) (history : w'.history = w.history)
    (produced : w'.produced = w.produced) (slots : w'.slots.Perm w.slots) : InOrder conduct w' where
  lawful := by rw [history]; exact ordered.lawful
  slots := by rw [history]; exact slots.trans ordered.slots
  serials := by rw [history, produced]; exact ordered.serials
  fresh := by rw [history]; exact ordered.fresh
  settled := by rw [history]; exact ordered.settled
  unasked := by rw [history]; exact ordered.unasked

/-- A whole scope is emptied. -/
theorem InOrder.empty {scope : H} {s s' : Scope K P V} {h : Happening H K P V}
    (ordered : InOrder conduct w) (found : w.findScope scope = some s) (aside : h.Aside)
    (unasked : ∀ scope key, h ≠ .asked scope key) (fits : Fits w.history h)
    (takes : ∀ place, h.takes place = decide (place.1 = scope))
    (leaving : h.leaving.Perm s.cache.values) (vacant : s'.cache = .empty) :
    InOrder conduct ({ w with scopes := w.scopes.insert scope s' }.record h) := by
  refine ordered.add aside rfl rfl fits ?_ ?_ ?_
  · intro scope key asked
    exact absurd asked (unasked scope key)
  · simp only [takes]
    exact slots_emptied_perm w scope s' vacant
  · simp only [takes]
    exact leaving.trans (values_perm found)

theorem AtRest.openScope (rest : AtRest conduct w) (scope : H) (name : Option String)
    (registry : Registry K P) : AtRest conduct (w.openScope scope name registry) := by
  unfold World.openScope
  cases found : w.findScope scope with
  | none =>
    have closed := slots_emptied_perm w scope ⟨name.getD "default", registry, .empty⟩ rfl
    rw [← slots_eq_elsewhere found] at closed
    have ordered : InOrder conduct { w with
        scopes := w.scopes.insert scope ⟨name.getD "default", registry, .empty⟩ } :=
      rest.toInOrder.of_same rfl rfl closed
    exact ⟨ordered.record ⟨id, id⟩ id trivial (by simp), rest.idle⟩
  | some old =>
    have ordered : InOrder conduct ({ w with
        scopes := w.scopes.insert scope ⟨name.getD "default", registry, .empty⟩ }.record
          (.abandoned scope old.cache.values)) :=
      rest.toInOrder.empty found ⟨id, id⟩ (by simp) trivial (fun _ => rfl) (.refl _) rfl
    exact ⟨ordered.record ⟨id, id⟩ id trivial (by simp), rest.idle⟩

theorem AtRest.remove (rest : AtRest conduct w) (scope : H) (key : K) :
    AtRest conduct (w.remove scope key).2 := by
  unfold World.remove
  split
  · exact rest
  · next s found =>
    split
    · exact rest
    · next held cached =>
      have ordered : InOrder conduct
          ((w.setCache scope s (s.cache.erase key)).record (.removed scope key held)) :=
        rest.toInOrder.add ⟨id, id⟩ rfl rfl trivial (by simp) (slots_erase_perm found key)
          (slots_at_place found cached).symm
      exact ⟨ordered, rest.idle⟩

theorem AtRest.clear (rest : AtRest conduct w) (scope : H) :
    AtRest conduct (w.clear scope).2 := by
  unfold World.clear
  split
  · exact rest
  · next s found =>
    exact ⟨rest.toInOrder.empty found ⟨id, id⟩ (by simp) trivial (fun _ => rfl) (.refl _) rfl,
      rest.idle⟩

/-- What happens while instances are told, newest first: each is told in its turn, and the requests
that are made in between are whole and take nothing out. -/
structure Telling (order : List (Instance P V)) (newer : List (Happening H K P V)) : Prop where
  told : (newer.flatMap (·.tells)).reverse = order
  whole : Whole newer
  quiet : ∀ h ∈ newer, h.Passing ∨ ∃ x, h = .notified x

omit [DecidableEq H] [DecidableEq K] in
theorem Telling.still {order : List (Instance P V)} {newer : List (Happening H K P V)}
    (telling : Telling order newer) : ∀ h ∈ newer, ¬h.Taking := by
  intro h mem
  obtain passing | ⟨x, rfl⟩ := telling.quiet h mem
  · exact passing.not_taking
  · exact id

/-- One instance is told, and makes its requests. -/
theorem InOrder.notify {x : Instance P V} {others : List (Instance P V)} {number : Nat}
    (ordered : InOrder conduct w) (faithful : Faithful conduct respond)
    (waiting : awaiting w.history = x :: others)
    (ran : World.carryOut respond (conduct.release x number) (w.record (.notified x)) =
      some ((), w')) :
    InOrder conduct w' ∧ awaiting w'.history = others ∧
      (∀ scope, (w.findScope scope).isSome → (w'.findScope scope).isSome) ∧
      ∃ newer, w'.history = newer ++ w.history ∧ Telling [x] newer := by
  have begins : InOrder conduct (w.record (.notified x)) :=
    ordered.record ⟨id, id⟩ id (by simp [Fits, waiting]) (by simp)
  obtain ⟨kept, extended, newer, grown, whole⟩ := begins.carryOut faithful ran
  have passing : ∀ h ∈ newer, h.Passing := by
    obtain ⟨newer', grown', passing⟩ := extended.history
    rw [grown] at grown'
    rwa [List.append_cancel_right grown']
  have silent : newer.flatMap (·.tells) = [] := by
    rw [List.flatMap_eq_nil_iff]
    intro h mem
    have pass := passing h mem
    cases h <;> first | rfl | exact pass.elim
  refine ⟨kept, ?_, extended.scopes, newer ++ [.notified x], ?_, ?_, ?_, ?_⟩
  · rw [extended.awaiting_eq, World.record, awaiting, waiting, List.tail_cons]
  · rw [grown, World.record]
    simp
  · rw [List.flatMap_append, silent]
    rfl
  · exact whole.append (whole_nil.cons (by simp))
  · intro h mem
    rcases List.mem_append.1 mem with mem | mem
    · exact .inl (passing h mem)
    · exact .inr ⟨x, List.mem_singleton.1 mem⟩

theorem InOrder.notifyAll {held others : List (Instance P V)} (ordered : InOrder conduct w)
    (faithful : Faithful conduct respond) (waiting : awaiting w.history = held ++ others)
    (told : World.notifyAll conduct respond held w = some w') :
    InOrder conduct w' ∧ awaiting w'.history = others ∧
      (∀ scope, (w.findScope scope).isSome → (w'.findScope scope).isSome) ∧
      ∃ newer, w'.history = newer ++ w.history ∧ Telling held newer := by
  -- the instances that wait are those that are still to be told
  induction held generalizing w with
  | nil =>
    cases told
    exact ⟨ordered, waiting, fun _ open_ => open_, [], rfl, rfl, whole_nil, by simp⟩
  | cons x rest ih =>
    unfold World.notifyAll at told
    dsimp only at told
    split at told
    · cases told
    · next w₁ ran =>
      obtain ⟨kept, left, scopes, newer, grown, telling⟩ := ordered.notify faithful waiting ran
      obtain ⟨kept', idle, scopes', newest, grown', telling'⟩ := ih kept left told
      refine ⟨kept', idle, fun scope open_ => scopes' scope (scopes scope open_), newest ++ newer,
        by rw [grown', grown, List.append_assoc], ?_, telling'.whole.append telling.whole, ?_⟩
      · rw [List.flatMap_append, List.reverse_append, telling.told, telling'.told]
        rfl
      · intro h mem
        exact (List.mem_append.1 mem).elim (telling'.quiet h) (telling.quiet h)

/-- Everything is taken out of a scope before anything is told. -/
theorem AtRest.drain {scope : H} {s : Scope K P V} {order : List (Instance P V)}
    (rest : AtRest conduct w) (found : w.findScope scope = some s)
    (all : order.Perm s.cache.values) :
    InOrder conduct ((w.setCache scope s .empty).record (.drained scope order)) :=
  rest.toInOrder.empty found ⟨id, id⟩ (by simp) rest.idle (fun _ => rfl) all rfl

variable [DecidableEq P] [Key K]

/-- A scope is disposed of in the order in which its instances were stored. -/
theorem dispose_eq_disposeIn {scope : H} {s : Scope K P V} (found : w.findScope scope = some s)
    (depth : Nat) : w.dispose conduct depth scope =
      (w.disposeIn conduct depth scope s s.cache.values).map fun (held, w) => (some held, w) := by
  rw [dispose, found]

theorem dispose_cases {depth : Nat} {scope : H} {held : Option (List (Instance P V))}
    (disposed : w.dispose conduct depth scope = some (held, w')) :
    (w.findScope scope = none ∧ held = none ∧ w' = w) ∨
      ∃ s told, w.findScope scope = some s ∧ held = some told ∧
        w.disposeIn conduct depth scope s s.cache.values = some (told, w') := by
  cases found : w.findScope scope with
  | none =>
    rw [dispose, found] at disposed
    cases disposed
    exact .inl ⟨rfl, rfl, rfl⟩
  | some s =>
    rw [dispose_eq_disposeIn found] at disposed
    obtain ⟨⟨told, w₁⟩, disposed, e⟩ := Option.map_eq_some_iff.1 disposed
    cases e
    exact .inr ⟨s, told, rfl, rfl, disposed⟩

theorem AtRest.disposeIn {depth : Nat} {scope : H} {s : Scope K P V}
    {order held : List (Instance P V)} (rest : AtRest conduct w)
    (found : w.findScope scope = some s) (all : order.Perm s.cache.values)
    (disposed : w.disposeIn conduct depth scope s order = some (held, w')) :
    AtRest conduct w' := by
  obtain ⟨w₁, told, e⟩ := Option.map_eq_some_iff.1 disposed
  cases e
  obtain ⟨kept, idle, -⟩ := (rest.drain found all).notifyAll (get_faithful conduct depth)
    (List.append_nil _).symm told
  exact ⟨kept.record ⟨id, id⟩ id idle (by simp), idle⟩

theorem AtRest.dispose {depth : Nat} {scope : H} {held : Option (List (Instance P V))}
    (rest : AtRest conduct w)
    (disposed : w.dispose conduct depth scope = some (held, w')) : AtRest conduct w' := by
  obtain ⟨-, -, rfl⟩ | ⟨s, told, found, -, disposed⟩ := dispose_cases disposed
  · exact rest
  · exact rest.disposeIn found (.refl _) disposed

/-- A step that calls providers and takes nothing out. -/
def Step.Asks : Step H K P → Prop
  | .call _ | .create _ _ | .createAs _ _ _ | .get _ _ | .getAs _ _ _ => True
  | _ => False

variable [HasType V] {depth : Nat} {s : Step H K P} {outcome : Outcome P V}

theorem InOrder.asks (ordered : InOrder conduct w)
    (stepped : w.step conduct depth s = some (outcome, w')) (asks : s.Asks) :
    InOrder conduct w' ∧ w.Extends w' := by
  have faithful := get_faithful conduct depth
  have unawaited : w.Awaited none := fun _ e => by cases e
  cases s with
  | call maker =>
    obtain ⟨⟨reply, w₁⟩, called, e⟩ := Option.map_eq_some_iff.1 stepped
    cases e
    have delivered := ordered.call faithful unawaited called
    exact ⟨delivered.inOrder (Or.inl rfl), delivered.extended⟩
  | create registry key =>
    obtain ⟨⟨reply, w₁⟩, created, e⟩ := Option.map_eq_some_iff.1 stepped
    cases e
    have delivered := ordered.createFrom faithful unawaited created
    exact ⟨delivered.inOrder (Or.inl rfl), delivered.extended⟩
  | createAs registry key type =>
    obtain ⟨⟨reply, w₁⟩, created, e⟩ := Option.map_eq_some_iff.1 stepped
    cases e
    have delivered := ordered.createFrom faithful unawaited created
    exact ⟨delivered.inOrder (Or.inl rfl), delivered.extended⟩
  | get scope key =>
    obtain ⟨⟨reply, w₁⟩, answered, e⟩ := Option.map_eq_some_iff.1 stepped
    cases e
    obtain ⟨kept, extended, -⟩ := faithful ordered answered
    exact ⟨kept, extended⟩
  | getAs scope key type =>
    obtain ⟨⟨reply, w₁⟩, answered, e⟩ := Option.map_eq_some_iff.1 stepped
    cases e
    obtain ⟨kept, extended, -⟩ := faithful ordered answered
    exact ⟨kept, extended⟩
  | _ => exact asks.elim

theorem AtRest.step (rest : AtRest conduct w)
    (stepped : w.step conduct depth s = some (outcome, w')) : AtRest conduct w' := by
  cases s with
  | openScope scope name registry =>
    cases stepped
    exact rest.openScope scope name registry
  | remove scope key =>
    cases stepped
    exact rest.remove scope key
  | clear scope =>
    cases stepped
    exact rest.clear scope
  | dispose scope =>
    obtain ⟨⟨held, w₁⟩, disposed, e⟩ := Option.map_eq_some_iff.1 stepped
    cases e
    exact rest.dispose disposed
  | _ =>
    obtain ⟨ordered, extended⟩ := rest.toInOrder.asks stepped trivial
    exact ⟨ordered, by rw [extended.awaiting_eq, rest.idle]⟩

theorem Reachable.atRest (reachable : Reachable conduct w) : AtRest conduct w := by
  induction reachable with
  | empty => exact atRest_empty conduct
  | step _ stepped rest => exact rest.step stepped
  | disposeIn _ found all disposed rest => exact rest.disposeIn found all disposed

namespace Runs

variable {w₀ : World H K P V} {trace : List (Step H K P × Outcome P V)}

theorem reachable (begins : Reachable conduct w₀) (runs : Runs conduct w₀ trace w) :
    Reachable conduct w := by
  induction runs with
  | refl => exact begins
  | step _ stepped reachable => exact reachable.step stepped
  | disposeIn _ found all disposed reachable => exact reachable.disposeIn found all disposed

theorem run {steps : List (Step H K P)} {outcomes : List (Outcome P V)}
    (runs : Runs conduct w₀ trace w)
    (ran : World.run conduct depth steps w = some (outcomes, w')) :
    Runs conduct w₀ ((steps.zip outcomes).reverse ++ trace) w' := by
  induction steps generalizing w outcomes trace with
  | nil =>
    cases ran
    exact runs
  | cons s steps ih =>
    unfold World.run at ran
    split at ran
    · cases ran
    · next outcome w₁ stepped =>
      obtain ⟨⟨others, w₂⟩, others_ran, e⟩ := Option.map_eq_some_iff.1 ran
      cases e
      have later := ih (runs.step stepped) others_ran
      rwa [List.zip_cons_cons, List.reverse_cons, List.append_assoc]

end Runs

theorem Reachable.run {steps : List (Step H K P)} {outcomes : List (Outcome P V)}
    (reachable : Reachable conduct w)
    (ran : World.run conduct depth steps w = some (outcomes, w')) : Reachable conduct w' :=
  (Runs.refl.run ran).reachable reachable

end World
end Registrar
