import Registrar.Proofs.Scope.Conservation

/-!
# Disposals

A disposal empties a scope, tells what was in it, one instance after the other, and reports. The
instances may make requests when they are told, of the same scope too; what these store is in the
scope afterwards and is not told. The order in which instances are told is left open.
-/

namespace Registrar

open History

variable {H K P V : Type}

namespace History

variable [DecidableEq H] [DecidableEq K]
variable {newer older : List (Happening H K P V)} {scope : H} {key : K}
variable {order : List (Instance P V)} {x y : Instance P V}

theorem vacant_of_drained : Vacant (.drained scope order :: older) (scope, key) := by
  intro x mem
  rcases mem_stock_cons.1 mem with put | ⟨-, kept⟩
  · exact absurd put List.not_mem_nil
  · simp [Happening.takes] at kept

/-- A scope holds what was stored in it since it was emptied. -/
theorem mem_stock_drained_iff (still : ∀ h ∈ newer, ¬h.Taking) :
    ((scope, key), x) ∈ stock (newer ++ .drained scope order :: older) ↔
      ∃ name, .stored scope name key x ∈ newer := by
  constructor
  · intro mem
    exact stored_of_mem_stock mem vacant_of_drained
  · rintro ⟨name, stored⟩
    obtain ⟨later, earlier, rfl⟩ := List.append_of_mem stored
    rw [List.append_assoc, List.cons_append]
    apply mem_stock_append
    · exact mem_stock_cons.2 (Or.inl List.mem_cons_self)
    · intro h mem
      exact Happening.takes_eq_false (still h (List.mem_append_left _ mem)) _

/-- What a disposal has taken out answers no request any more. -/
theorem not_answered_of_drained {scope' : H} {key' : K}
    (lawful : Lawful (newer ++ .drained scope order :: older))
    (fresh : Fresh (newer ++ .drained scope order :: older)) (taken : x ∈ order)
    (answered : .answered scope' key' (.ok y) ∈ newer) : y.serial ≠ x.serial := by
  intro same
  obtain ⟨later, earlier, rfl⟩ := List.append_of_mem answered
  rw [List.append_assoc, List.cons_append] at lawful fresh
  have stocked : ((scope', key'), y) ∈ stock (earlier ++ .drained scope order :: older) :=
    lawful.of_append.head.fits
  have left : x ∈ (earlier ++ .drained scope order :: older).flatMap (·.leaving) := by
    rw [List.flatMap_append, List.flatMap_cons]
    exact List.mem_append_right _ (List.mem_append_left _ taken)
  have balance := tally_stock_add_leaving_le_one lawful.of_append.tail fresh.of_append.tail x.serial
  have out := tally_pos_of_mem left
  have here : 0 < tally ((stock (earlier ++ .drained scope order :: older)).map Prod.snd)
      x.serial := tally_pos_iff.2 ⟨y, List.mem_map_of_mem stocked, same⟩
  omega

/-- What is in stock has not been told. -/
theorem tally_told_eq_zero {slot : Slot H K P V} {history : List (Happening H K P V)}
    (lawful : Lawful history) (fresh : Fresh history) (mem : slot ∈ stock history) :
    tally (history.flatMap (·.tells)) slot.serial = 0 := by
  have told := tally_told_add_awaiting lawful slot.serial
  have drained := tally_drained_le history slot.serial
  have balance := tally_stock_add_leaving_le_one lawful fresh slot.serial
  have here : 0 < tally ((stock history).map Prod.snd) slot.serial :=
    tally_pos_iff.2 ⟨slot.2, List.mem_map_of_mem mem, rfl⟩
  omega

end History

namespace World

variable [DecidableEq H] [DecidableEq K]

/-- How a disposal that tells the instances of `order` leads from one world to another. What happens
in the meantime is `newer`, newest first. -/
structure DisposalOf [Key K] (scope : H) (s : Scope K P V) (order : List (Instance P V))
    (newer : List (Happening H K P V)) (w w' : World H K P V) : Prop where
  history : w'.history =
    .disposed scope s.name order :: (newer ++ .drained scope order :: w.history)
  log : w'.log = w.log ++ newer.reverse.filterMap (·.event?) ++
    [.scopeDisposed s.name order.length]
  /-- Each instance is told in its turn, and no other is. -/
  told : (newer.flatMap (·.tells)).reverse = order
  /-- At no moment does the scope hold anything but what was stored since it was emptied. -/
  vacated : ∀ later earlier, newer = later ++ earlier → ∀ key x,
    ((scope, key), x) ∈ stock (earlier ++ .drained scope order :: w.history) →
      ∃ name, .stored scope name key x ∈ earlier
  refilled : ∃ s', w'.findScope scope = some s' ∧
    ∀ key x, s'.cache.find? key = some x ↔ ∃ name, .stored scope name key x ∈ newer
  /-- What is stored answers a request that was made in the meantime too. -/
  whole : ∀ name key x, .stored scope name key x ∈ newer →
    .asked scope key ∈ newer ∧ .answered scope key (.ok x) ∈ newer

variable {conduct : Conduct H K P V} {respond : Responder H K P V} {w w' : World H K P V}
variable {scope : H} {s : Scope K P V} {order held : List (Instance P V)} {depth : Nat}

omit [DecidableEq H] [DecidableEq K] in
theorem log_eq [Key K] {newer : List (Happening H K P V)} (grown : w'.history = newer ++ w.history) :
    w'.log = w.log ++ newer.reverse.filterMap (·.event?) := by
  rw [log, log, grown, List.reverse_append, List.filterMap_append]

theorem noticesOf_eq_zero (ordered : InOrder conduct w) (fresh : Fresh w.history)
    {key : K} {x : Instance P V} (found : w.findScope scope = some s)
    (cached : s.cache.find? key = some x) : w.noticesOf x = 0 := by
  rw [noticesOf_eq]
  exact tally_told_eq_zero ordered.lawful fresh (ordered.toSound.mem_stock_iff.2 ⟨s, found, cached⟩)

/-- All instances can be told if each of them comes to an end with what it does then. -/
theorem InOrder.notifyAll_isSome (ordered : InOrder conduct w) (faithful : Faithful conduct respond)
    (waiting : awaiting w.history = held)
    (ends : ∀ x ∈ held, ∀ number w₁, InOrder conduct w₁ → w.history <:+ w₁.history →
      (World.carryOut respond (conduct.release x number) w₁).isSome) :
    (World.notifyAll conduct respond held w).isSome := by
  induction held generalizing w with
  | nil => rfl
  | cons x rest ih =>
    rw [List.forall_mem_cons] at ends
    have begins : InOrder conduct (w.record (.notified x)) :=
      ordered.record ⟨id, id⟩ id (by simp [Fits, waiting]) (by simp)
    have done := ends.1 (w.noticesOf x + 1) _ begins (List.suffix_cons _ _)
    obtain ⟨⟨⟨⟩, w₁⟩, ran⟩ := Option.isSome_iff_exists.1 done
    obtain ⟨kept, left, -, newer, grown, -⟩ := ordered.notify faithful waiting ran
    have later : w.history <:+ w₁.history := ⟨newer, grown.symm⟩
    unfold World.notifyAll
    dsimp only
    rw [ran]
    apply ih kept left
    intro y hy number w₂ ordered₂ suffix
    exact ends.2 y hy number w₂ ordered₂ (later.trans suffix)

variable [DecidableEq P] [Key K]

theorem AtRest.disposeIn_isSome (rest : AtRest conduct w) (found : w.findScope scope = some s)
    (all : order.Perm s.cache.values)
    (ends : ∀ x ∈ order, ∀ number w₁, InOrder conduct w₁ → w.history <:+ w₁.history →
      (World.carryOut (get conduct depth) (conduct.release x number) w₁).isSome) :
    (w.disposeIn conduct depth scope s order).isSome := by
  unfold World.disposeIn
  rw [Option.isSome_map]
  apply (rest.drain found all).notifyAll_isSome (get_faithful conduct depth) rfl
  intro x hx number w₁ ordered suffix
  exact ends x hx number w₁ ordered ((List.suffix_cons _ _).trans suffix)

theorem AtRest.disposalOf (rest : AtRest conduct w) (found : w.findScope scope = some s)
    (all : order.Perm s.cache.values)
    (disposed : w.disposeIn conduct depth scope s order = some (held, w')) :
    held = order ∧ ∃ newer, DisposalOf scope s order newer w w' := by
  obtain ⟨w₁, told, e⟩ := Option.map_eq_some_iff.1 disposed
  cases e
  obtain ⟨kept, -, scopes, newer, grown, telling⟩ :=
    (rest.drain found all).notifyAll (get_faithful conduct depth) (List.append_nil _).symm told
  have grown : w₁.history = newer ++ .drained scope order :: w.history := grown
  have history : (w₁.record (.disposed scope s.name order)).history =
      .disposed scope s.name order :: (newer ++ .drained scope order :: w.history) := by
    rw [record, grown]
  refine ⟨rfl, newer, history, ?_, telling.told, ?_, ?_, fun _ _ _ stored => telling.whole stored⟩
  · have whole : (w₁.record (.disposed scope s.name order)).history =
        (.disposed scope s.name order :: (newer ++ [.drained scope order])) ++ w.history := by
      simpa using history
    simpa [Happening.event?] using log_eq whole
  · rintro later earlier rfl key x mem
    exact stored_of_mem_stock mem vacant_of_drained
  · have open_ : (w₁.findScope scope).isSome := by
      apply scopes scope
      simp [record, setCache, findScope]
    obtain ⟨s', found'⟩ := Option.isSome_iff_exists.1 open_
    refine ⟨s', found', ?_⟩
    intro key x
    have stocked : ((scope, key), x) ∈ stock (newer ++ .drained scope order :: w.history) ↔ _ :=
      mem_stock_drained_iff telling.still
    rw [← stocked, ← grown, kept.toSound.mem_stock_iff, found']
    simp

namespace DisposalOf

variable {newer : List (Happening H K P V)} {x : Instance P V}

omit [DecidableEq P] in
theorem noticesOf_eq_add (disposal : DisposalOf scope s order newer w w') (x : Instance P V) :
    w'.noticesOf x = tally order x.serial + w.noticesOf x := by
  have told : tally order x.serial = tally (newer.flatMap (·.tells)) x.serial := by
    rw [← disposal.told]
    exact tally_perm (List.reverse_perm _)
  rw [noticesOf_eq, noticesOf_eq, disposal.history, told, ← tally_append]
  simp [Happening.tells]

omit [DecidableEq P] in
/-- Each instance that is taken out is told for the first and for the last time. -/
theorem noticesOf_told (disposal : DisposalOf scope s order newer w w')
    (rest : AtRest conduct w) (rest' : AtRest conduct w') (fresh : conduct.AlwaysFresh)
    (found : w.findScope scope = some s) (all : order.Perm s.cache.values) (mem : x ∈ order) :
    w.noticesOf x = 0 ∧ w'.noticesOf x = 1 := by
  obtain ⟨key, cached⟩ := Table.mem_values_iff.1 (all.mem_iff.1 mem)
  have before := noticesOf_eq_zero rest.toInOrder (rest.fresh fresh) found cached
  have after := disposal.noticesOf_eq_add x
  have once := noticesOf_le_one rest'.toInOrder (rest'.fresh fresh) x
  have told := tally_pos_of_mem mem
  constructor <;> omega

omit [DecidableEq P] in
theorem not_answered (disposal : DisposalOf scope s order newer w w') (rest' : AtRest conduct w')
    (fresh : conduct.AlwaysFresh) {scope' : H} {key : K} {y : Instance P V}
    (answered : .answered scope' key (.ok y) ∈ newer) (mem : x ∈ order) : y.serial ≠ x.serial := by
  have lawful := rest'.lawful
  have new := rest'.fresh fresh
  rw [disposal.history] at lawful new
  exact not_answered_of_drained lawful.tail new.tail mem answered

end DisposalOf

variable [HasType V]

/-- Disposals under requests of the instances that are told. A disposal comes to an end if each
instance does; it returns what was in the scope, in the order in which it was told, and its event is
the last one and carries the number of these instances. What is in the scope afterwards is what the
requests that were made in the meantime have stored. If calls of providers make new instances only,
each instance taken out is told once, no request of those is answered with one of them, and what is
in the scope afterwards has not been told. The order in which the world's own disposal tells
instances is the one in which they were stored. -/
theorem disposal_with_requests {w : World H K P V} {scope : H} {s : Scope K P V}
    (reachable : Reachable conduct w) (found : w.findScope scope = some s)
    {order : List (Instance P V)} (all : order.Perm s.cache.values) (depth : Nat) :
    ((∀ x ∈ order, ∀ number w₁, InOrder conduct w₁ → w.history <:+ w₁.history →
        (carryOut (get conduct depth) (conduct.release x number) w₁).isSome) →
      (w.disposeIn conduct depth scope s order).isSome) ∧
    w.dispose conduct depth scope =
      (w.disposeIn conduct depth scope s s.cache.values).map (fun (held, w') => (some held, w')) ∧
    ∀ held w', w.disposeIn conduct depth scope s order = some (held, w') →
      held = order ∧ held.length = s.cache.size ∧
      ∃ newer, DisposalOf scope s order newer w w' ∧
        (conduct.AlwaysFresh →
          (∀ x ∈ order, w.noticesOf x = 0 ∧ w'.noticesOf x = 1) ∧
          (∀ scope' key y, .answered scope' key (.ok y) ∈ newer →
            ∀ x ∈ order, y.serial ≠ x.serial) ∧
          ∀ s' key x, w'.findScope scope = some s' → s'.cache.find? key = some x →
            w'.noticesOf x = 0) := by
  have rest : AtRest conduct w := reachable.atRest
  refine ⟨rest.disposeIn_isSome found all, dispose_eq_disposeIn found depth, ?_⟩
  intro held w' disposed
  have rest' : AtRest conduct w' := rest.disposeIn found all disposed
  obtain ⟨rfl, newer, disposal⟩ := rest.disposalOf found all disposed
  have size : held.length = s.cache.size := by
    rw [all.length_eq, Table.values, List.length_map, Table.size]
  refine ⟨rfl, size, newer, disposal, ?_⟩
  intro fresh
  refine ⟨?_, ?_, ?_⟩
  · intro x mem
    exact disposal.noticesOf_told rest rest' fresh found all mem
  · intro scope' key y answered x mem
    exact disposal.not_answered rest' fresh answered mem
  · intro s' key x found' cached
    exact noticesOf_eq_zero rest'.toInOrder (rest'.fresh fresh) found' cached

/-- What the first provider makes asks for the key of the second one when it is let go. -/
def heirs : Catalogue Nat String :=
  [.recipe ⟨⟨"a", ⟨⟨"A"⟩, 0⟩⟩, none, 0, none, some (0, "b")⟩,
    .recipe ⟨⟨"b", ⟨⟨"B"⟩, 1⟩⟩, none, 0, none, none⟩]

def heirsSteps : List (Step Nat String Supplier) :=
  [.openScope 0 none (.ofSteps [.add ⟨"a", ⟨0, none⟩, none, []⟩, .add ⟨"b", ⟨1, none⟩, none, []⟩]),
    .get 0 "a", .get 0 "b"]

/-- The instances of the two keys, the later one first. -/
def heirsOrder : List (Instance Supplier Item) :=
  [⟨2, ⟨1, none⟩, ⟨"b", ⟨⟨"B"⟩, 1⟩⟩⟩, ⟨1, ⟨0, none⟩, ⟨"a", ⟨⟨"A"⟩, 0⟩⟩⟩]

theorem heirs_cached :
    (run heirs.conduct 2 heirsSteps empty).bind (fun r => (r.2.findScope 0).map fun s =>
      (s.cache.values, (r.2.disposeIn heirs.conduct 2 0 s heirsOrder).map fun told =>
        told.2.slots)) =
      some (heirsOrder.reverse, some [((0, "b"), ⟨3, ⟨1, none⟩, ⟨"b", ⟨⟨"B"⟩, 1⟩⟩⟩)]) := by
  cbv

/-- A new instance takes the place of one that is taken out, and is not told. -/
theorem heirs_disposal : heirs.conduct.AlwaysFresh ∧ ∃ w s held w',
    Reachable heirs.conduct w ∧ w.findScope 0 = some s ∧ heirsOrder.Perm s.cache.values ∧
      w.disposeIn heirs.conduct 2 0 s heirsOrder = some (held, w') ∧ held.length = 2 ∧
      (∀ x ∈ heirsOrder, w'.noticesOf x = 1) ∧
      w'.slots = [((0, "b"), ⟨3, ⟨1, none⟩, ⟨"b", ⟨⟨"B"⟩, 1⟩⟩⟩)] := by
  obtain ⟨⟨outcomes, w⟩, ran, cached⟩ := Option.bind_eq_some_iff.1 heirs_cached
  obtain ⟨s, found, e⟩ := Option.map_eq_some_iff.1 cached
  obtain ⟨values, told⟩ := Prod.mk.inj e
  obtain ⟨⟨held, w'⟩, disposed, slots⟩ := Option.map_eq_some_iff.1 told
  have reachable : Reachable heirs.conduct w := Reachable.empty.run ran
  have all : heirsOrder.Perm s.cache.values := by
    rw [values]
    exact (List.reverse_perm _).symm
  obtain ⟨-, -, result⟩ := disposal_with_requests reachable found all 2
  obtain ⟨rfl, -, newer, -, once⟩ := result held w' disposed
  obtain ⟨notices, -⟩ := once heirs.alwaysFresh
  exact ⟨heirs.alwaysFresh, w, s, _, w', reachable, found, all, disposed, rfl,
    fun x mem => (notices x mem).2, slots⟩

end World
end Registrar
