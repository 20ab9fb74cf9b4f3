import Mathlib
import Registrar.Proofs.Scope.Outcomes
import Registrar.Registry.Step
import Registrar.Scope.Provider

/-!
# Conservation of instances

Instances are told apart by their serial numbers, so every count here is one of serial numbers. The
account balances in two steps: what calls bring is stored or discarded, and what is stored stays in
stock or leaves by one of four ways. If calls bring new instances only, every number is brought
once.
-/

namespace Registrar

open History

variable {H K P V : Type}

theorem Fate.exists_of_sum {f : Fate → Nat} (once : f .kept + f .handedBack + f .cleared +
    f .disposed + f .dropped + f .discarded = 1) :
    ∃ fate, ∀ other, f other = if other = fate then 1 else 0 := by
  have some_ : ∃ fate, 0 < f fate := by
    by_contra none
    simp only [not_exists, Nat.not_lt, Nat.le_zero] at none
    simp [none] at once
  obtain ⟨fate, met⟩ := some_
  refine ⟨fate, ?_⟩
  intro other
  split
  · next same =>
    subst same
    cases other <;> omega
  · next differs => cases fate <;> cases other <;> first | omega | exact absurd rfl differs

theorem Fate.eq_of_one {f : Fate → Nat} {fate other : Fate}
    (met : ∀ other, f other = if other = fate then 1 else 0) (one : f other = 1) :
    fate = other := by
  by_contra differs
  rw [met, if_neg fun same => differs same.symm] at one
  cases one

namespace History

/-- How often a serial number occurs. -/
def tally (held : List (Instance P V)) (serial : Nat) : Nat :=
  (held.map (·.serial)).count serial

variable {held others : List (Instance P V)} {x : Instance P V} {serial : Nat}

theorem tally_append : tally (held ++ others) serial = tally held serial + tally others serial := by
  simp [tally]

theorem tally_perm (same : held.Perm others) : tally held serial = tally others serial :=
  (same.map _).count_eq serial

theorem tally_pos_iff : 0 < tally held serial ↔ ∃ x ∈ held, x.serial = serial := by
  rw [tally, List.count_pos_iff, List.mem_map]

theorem tally_pos_of_mem (mem : x ∈ held) : 0 < tally held x.serial :=
  tally_pos_iff.2 ⟨x, mem, rfl⟩

theorem tally_le_one (nodup : (held.map (·.serial)).Nodup) (serial : Nat) :
    tally held serial ≤ 1 :=
  List.nodup_iff_count_le_one.1 nodup serial

theorem tally_leaving (history : List (Happening H K P V)) (serial : Nat) :
    tally (history.flatMap (·.leaving)) serial =
      tally (history.flatMap (·.fated .handedBack)) serial +
        tally (history.flatMap (·.fated .cleared)) serial +
        tally (history.flatMap (·.fated .disposed)) serial +
        tally (history.flatMap (·.fated .dropped)) serial := by
  induction history with
  | nil => rfl
  | cons h older ih =>
    simp only [List.flatMap_cons, tally_append, ih]
    cases h <;> simp only [Happening.leaving, Happening.fated, tally, List.map_nil,
      List.count_nil] <;> omega

theorem tally_drained_le (history : List (Happening H K P V)) (serial : Nat) :
    tally (history.flatMap (·.fated .disposed)) serial ≤
      tally (history.flatMap (·.leaving)) serial := by
  rw [tally_leaving]
  omega

variable [DecidableEq H] [DecidableEq K] {history : List (Happening H K P V)}

theorem tally_stock_add_leaving (lawful : Lawful history) (serial : Nat) :
    tally ((stock history).map Prod.snd) serial +
        tally (history.flatMap (·.leaving)) serial =
      tally ((history.flatMap (·.puts)).map Prod.snd) serial := by
  rw [← tally_append]
  exact tally_perm (stock_leaving_perm lawful)

theorem tally_puts_add_discarded (lawful : Lawful history) (fresh : Fresh history)
    (serial : Nat) :
    tally ((history.flatMap (·.puts)).map Prod.snd) serial +
        tally (history.flatMap (·.fated .discarded)) serial =
      tally ((history.filterMap (·.settles)).map Prod.snd) serial := by
  rw [← tally_append]
  exact (tally_perm (settles_perm lawful fresh)).symm

theorem tally_settles_le_one (lawful : Lawful history) (fresh : Fresh history) (serial : Nat) :
    tally ((history.filterMap (·.settles)).map Prod.snd) serial ≤ 1 := by
  apply tally_le_one
  rw [List.map_map]
  exact settles_nodup lawful fresh

/-- Nothing is in two places, or in one place after it has left another. -/
theorem tally_stock_add_leaving_le_one (lawful : Lawful history) (fresh : Fresh history)
    (serial : Nat) : tally ((stock history).map Prod.snd) serial +
      tally (history.flatMap (·.leaving)) serial ≤ 1 := by
  have stored := tally_stock_add_leaving lawful serial
  have settled := tally_puts_add_discarded lawful fresh serial
  have once := tally_settles_le_one lawful fresh serial
  omega

theorem tally_told_add_awaiting (lawful : Lawful history) (serial : Nat) :
    tally (history.flatMap (·.tells)) serial + tally (awaiting history) serial =
      tally (history.flatMap (·.fated .disposed)) serial := by
  rw [← tally_append]
  exact tally_perm (tells_awaiting_perm lawful)

/-- An instance that is told is not in stock then. -/
theorem not_mem_stock_of_notified {older : List (Happening H K P V)} {x : Instance P V}
    (lawful : Lawful (.notified x :: older)) (fresh : Fresh (.notified x :: older))
    {slot : Slot H K P V} (mem : slot ∈ stock older) : slot.serial ≠ x.serial := by
  intro same
  have next : (awaiting older).head? = some x := lawful.head.fits
  have waiting := tally_pos_of_mem (List.mem_of_head? next)
  have told := tally_told_add_awaiting lawful.tail x.serial
  have drained := tally_drained_le older x.serial
  have balance := tally_stock_add_leaving_le_one lawful.tail fresh.tail x.serial
  have stocked : 0 < tally ((stock older).map Prod.snd) x.serial :=
    tally_pos_iff.2 ⟨slot.2, List.mem_map_of_mem mem, same⟩
  omega

/-- An instance that is discarded is never in stock, so no request is answered with it. -/
theorem not_answered_of_discarded {x y : Instance P V} {scope : H} {key : K}
    (lawful : Lawful history) (fresh : Fresh history)
    (discarded : 0 < tally (history.flatMap (·.fated .discarded)) x.serial)
    (answered : .answered scope key (.ok y) ∈ history) : y.serial ≠ x.serial := by
  intro same
  obtain ⟨newer, older, rfl⟩ := List.append_of_mem answered
  have stocked : ((scope, key), y) ∈ stock older := lawful.of_append.head.fits
  have mem : y ∈ (stock older).map Prod.snd := List.mem_map_of_mem stocked
  have here := tally_pos_of_mem mem
  have stored := tally_stock_add_leaving lawful.of_append.tail y.serial
  have settled := tally_puts_add_discarded lawful fresh x.serial
  have once := tally_settles_le_one lawful fresh x.serial
  have more : tally ((older.flatMap (·.puts)).map Prod.snd) y.serial ≤
      tally (((newer ++ .answered scope key (.ok y) :: older).flatMap (·.puts)).map Prod.snd)
        x.serial := by
    rw [List.flatMap_append, List.flatMap_cons, List.map_append, List.map_append, tally_append,
      tally_append, same]
    omega
  omega

/-- While a provider was called for a request and made an instance, another request for the same
place was made and answered, and stored another instance. -/
def Overtaken (history : List (Happening H K P V)) (place : H × K) (x : Instance P V) : Prop :=
  ∃ (newer during before : List (Happening H K P V)) (name : String) (number : Nat),
    history = newer ++ .discarded place.1 name place.2 x :: .produced number (some place) x ::
      (during ++ .called x.maker number :: .asked place.1 place.2 :: before) ∧
    ∃ (other : String) (y : Instance P V), y.serial ≠ x.serial ∧ .asked place.1 place.2 ∈ during ∧
      .stored place.1 other place.2 y ∈ during ∧ .answered place.1 place.2 (.ok y) ∈ during

theorem overtaken_of_discarded {scope : H} {name : String} {key : K} {x : Instance P V}
    (lawful : Lawful history) (fresh : Fresh history)
    (discarded : .discarded scope name key x ∈ history) : Overtaken history (scope, key) x := by
  obtain ⟨newer, older, rfl⟩ := List.append_of_mem discarded
  have allowed := lawful.of_append.head
  have rest := lawful.of_append.tail
  have brought : pending older = some ((scope, key), x) := allowed.settles.symm
  obtain ⟨earlier, stocked, differs⟩ := allowed.fits
  obtain ⟨call, called, yielded⟩ := Option.bind_eq_some_iff.1 brought
  obtain ⟨before, rfl⟩ := List.head?_eq_some_iff.1 called
  cases call with
  | produced number purpose made =>
    obtain ⟨place, rfl, e⟩ := Option.map_eq_some_iff.1 yielded
    cases e
    obtain ⟨-, begun⟩ := rest.head.fits
    obtain ⟨during, before, rfl, whole, vacant⟩ := begun _ rfl
    rcases mem_stock_cons.1 stocked with put | ⟨kept, -⟩
    · exact absurd put List.not_mem_nil
    · refine ⟨newer, during, before, name, number, rfl, ?_⟩
      -- the call and its request store nothing, so what is stored came in between
      have split : during ++ .called x.maker number :: .asked scope key :: before =
          (during ++ [.called x.maker number, .asked scope key]) ++ before := by simp
      rw [split] at kept
      obtain ⟨other, mem⟩ := stored_of_mem_stock kept vacant
      have stored : .stored scope other key earlier ∈ during := by simpa using mem
      obtain ⟨asked, answered⟩ := whole stored
      exact ⟨other, earlier, differs, asked, stored, answered⟩
  | shared maker number purpose other =>
    refine absurd ?_ (fresh maker number purpose other)
    exact List.mem_append_right _ (List.mem_cons_of_mem _ List.mem_cons_self)
  | _ => cases yielded

end History

namespace World

theorem noticesOf_eq (w : World H K P V) (x : Instance P V) :
    w.noticesOf x = tally (w.history.flatMap (·.tells)) x.serial := by
  unfold noticesOf
  induction w.history with
  | nil => rfl
  | cons h older ih =>
    rw [List.countP_cons, ih, List.flatMap_cons, tally_append, Nat.add_comm]
    congr 1
    cases h <;> simp [Happening.tells, tally, List.count_singleton]

variable [DecidableEq H] [DecidableEq K]

/-- How often an instance meets a fate: it is kept as often as it is in a cache. -/
def times (w : World H K P V) (x : Instance P V) : Fate → Nat
  | .kept => tally (w.slots.map Prod.snd) x.serial
  | fate => tally (w.history.flatMap (·.fated fate)) x.serial

variable {conduct : Conduct H K P V} {w : World H K P V}

theorem sum_times (ordered : InOrder conduct w) (fresh : Fresh w.history) (x : Instance P V) :
    w.times x .kept + w.times x .handedBack + w.times x .cleared + w.times x .disposed +
      w.times x .dropped + w.times x .discarded =
        tally ((w.history.filterMap (·.yields)).map Prod.snd) x.serial := by
  -- nothing is pending, so all that calls brought is settled
  have kept : w.times x .kept = tally ((stock w.history).map Prod.snd) x.serial :=
    tally_perm (ordered.slots.map _)
  have balance := tally_stock_add_leaving ordered.lawful x.serial
  have settled := tally_puts_add_discarded ordered.lawful fresh x.serial
  rw [tally_leaving] at balance
  rw [yields_eq ordered.lawful, ordered.settled, Option.toList_none, List.nil_append, kept]
  simp only [times]
  omega

theorem noticesOf_le_one (ordered : InOrder conduct w) (fresh : Fresh w.history)
    (x : Instance P V) : w.noticesOf x ≤ 1 := by
  have told := tally_told_add_awaiting ordered.lawful x.serial
  have drained := tally_drained_le w.history x.serial
  have balance := tally_stock_add_leaving_le_one ordered.lawful fresh x.serial
  rw [noticesOf_eq]
  omega

theorem slots_nodup (ordered : InOrder conduct w) (fresh : Fresh w.history) :
    (w.slots.map Slot.serial).Nodup := by
  rw [List.nodup_iff_count_le_one]
  intro serial
  have balance := tally_stock_add_leaving_le_one ordered.lawful fresh serial
  have same := (ordered.slots.map Slot.serial).count_eq serial
  rw [tally, List.map_map] at balance
  change ((stock w.history).map Slot.serial).count serial + _ ≤ 1 at balance
  omega

/-- An instance made for a request meets one fate. -/
theorem exists_fate (ordered : InOrder conduct w) (fresh : Fresh w.history) {number : Nat}
    {place : H × K} {x : Instance P V} (made : .produced number (some place) x ∈ w.history) :
    ∃ fate, ∀ other, w.times x other = if other = fate then 1 else 0 := by
  apply Fate.exists_of_sum
  rw [sum_times ordered fresh]
  have brought : (place, x) ∈ w.history.filterMap (·.yields) :=
    List.mem_filterMap.2 ⟨_, made, rfl⟩
  have once : (((w.history.filterMap (·.yields)).map Prod.snd).map (·.serial)).Nodup := by
    rw [List.map_map]
    exact yields_nodup ordered.lawful fresh
  have most := tally_le_one once x.serial
  have mem : x ∈ (w.history.filterMap (·.yields)).map Prod.snd :=
    List.mem_map.2 ⟨_, brought, rfl⟩
  have least := tally_pos_of_mem mem
  omega

theorem overtaken (ordered : InOrder conduct w) (fresh : Fresh w.history) {number : Nat}
    {place : H × K} {x : Instance P V} (made : .produced number (some place) x ∈ w.history)
    (discarded : 0 < w.times x .discarded) : Overtaken w.history place x := by
  obtain ⟨y, hy, same⟩ := tally_pos_iff.1 discarded
  obtain ⟨h, mem, fated⟩ := List.mem_flatMap.1 hy
  cases h with
  | discarded scope name key z =>
    cases List.mem_singleton.1 fated
    have brought : (place, x) ∈ w.history.filterMap (·.yields) :=
      List.mem_filterMap.2 ⟨_, made, rfl⟩
    have settled : ((scope, key), y) ∈ w.history.filterMap (·.yields) := by
      rw [yields_eq ordered.lawful]
      exact List.mem_append_right _ (List.mem_filterMap.2 ⟨_, mem, rfl⟩)
    cases List.inj_on_of_nodup_map (yields_nodup ordered.lawful fresh) brought settled same.symm
    exact overtaken_of_discarded ordered.lawful fresh mem
  | _ => exact absurd fated List.not_mem_nil

variable [DecidableEq P] [Key K] [HasType V]

/-- Conservation of instances. If calls of providers make new instances only, then after every run,
in whatever order its disposals tell what they take out, each instance that was made for a request
has met one fate, and met it once: it is in one place of one cache, or one removal handed it back, or
one clearing or one disposal took it out, or it was dropped with its scope, or it was discarded. Those
that disposals take out are told, once, and by the disposal that has taken them out, when they are in
no cache. A discarded instance was overtaken while it was made, by the instance of a request nested
in the call, and no request was ever answered with it. What the account says about removals, clearings
and disposals is what they have returned. No two places hold the same instance. -/
theorem instances_are_conserved (fresh : conduct.AlwaysFresh)
    {trace : List (Step H K P × Outcome P V)} (runs : Runs conduct empty trace w) :
    (∀ (number : Nat) (place : H × K) (x : Instance P V),
      .produced number (some place) x ∈ w.history →
        ∃ fate : Fate, (∀ other, w.times x other = if other = fate then 1 else 0) ∧
          w.noticesOf x = (if fate = .disposed then 1 else 0) ∧
          (fate = .discarded → Overtaken w.history place x ∧
            ∀ (scope : H) (key : K) (y : Instance P V),
              .answered scope key (.ok y) ∈ w.history → y.serial ≠ x.serial)) ∧
    (∀ (newer older : List (Happening H K P V)) (x : Instance P V),
      w.history = newer ++ .notified x :: older →
        (∀ slot ∈ stock older, slot.serial ≠ x.serial) ∧ InDisposal older x) ∧
    (∀ x, w.noticesOf x ≤ 1) ∧
    (∀ fate, Seen fate → w.history.flatMap (·.fated fate) =
      trace.flatMap fun s => s.1.fated fate s.2) ∧
    w.slots.Perm (stock w.history) ∧
    (w.slots.map Slot.serial).Nodup ∧
    ((w.history.filterMap (·.made?)).map (·.serial)).Nodup := by
  have rest : AtRest conduct w := (runs.reachable .empty).atRest
  have ordered : InOrder conduct w := rest.toInOrder
  have new : Fresh w.history := ordered.fresh fresh
  refine ⟨?_, ?_, noticesOf_le_one ordered new, ?_, ordered.slots, slots_nodup ordered new,
    made_nodup ordered.lawful⟩
  · intro number place x made
    obtain ⟨fate, met⟩ := exists_fate ordered new made
    refine ⟨fate, met, ?_, ?_⟩
    · have told := tally_told_add_awaiting ordered.lawful x.serial
      rw [rest.idle, ← noticesOf_eq] at told
      change w.noticesOf x = w.times x .disposed at told
      rw [told, met]
      simp only [eq_comm]
    · rintro rfl
      have discarded : 0 < w.times x .discarded := by simp [met]
      refine ⟨overtaken ordered new made discarded, ?_⟩
      intro scope key y answered
      exact not_answered_of_discarded ordered.lawful new discarded answered
  · intro newer older x e
    have lawful : Lawful (.notified x :: older) := by
      have whole := ordered.lawful
      rw [e] at whole
      exact whole.of_append
    have new' : Fresh (.notified x :: older) := by
      rw [e] at new
      exact new.of_append
    have next : (awaiting older).head? = some x := lawful.head.fits
    refine ⟨?_, inDisposal_of_awaiting lawful.tail (List.mem_of_head? next)⟩
    intro slot mem
    exact not_mem_stock_of_notified lawful new' mem
  · intro fate seen
    have outside := runs.flatMap_fated .empty seen
    rwa [show (empty : World H K P V).history = [] from rfl, List.flatMap_nil,
      List.append_nil] at outside

end World

theorem Recipe.after_ends {R α : Type} {Q : α → Prop} {result : α} (holds : Q result)
    (request : Option (H × K)) :
    (Recipe.after request result : Errand H K R α).Ends Q := by
  cases request with
  | none => exact holds
  | some place => exact fun _ => holds

theorem Catalogue.alwaysFresh (catalogue : Catalogue H K) : catalogue.conduct.AlwaysFresh := by
  have made (answer : Except Fault Item) (other : Instance Supplier Item) :
      answer.map Yield.fresh ≠ .ok (Yield.known other) := by
    cases answer <;> simp [Except.map]
  intro maker number
  change (catalogue.produce maker number).Ends _
  unfold Catalogue.produce
  split
  · exact Recipe.after_ends (made _) _
  · exact made _
  · simp [Errand.Ends]

namespace World

/-- The first provider asks for its own key when it is called first, and so does what it makes when
it is let go. -/
def rivals : Catalogue Nat String :=
  [.recipe ⟨⟨"a", ⟨⟨"A"⟩, 0⟩⟩, none, 0, some (0, "a"), some (0, "a")⟩,
    .recipe ⟨⟨"b", ⟨⟨"B"⟩, 1⟩⟩, none, 0, none, none⟩]

def rivalsSteps : List (Step Nat String Supplier) :=
  [.openScope 0 none (.ofSteps [.add ⟨"a", ⟨0, none⟩, none, []⟩, .add ⟨"b", ⟨1, none⟩, none, []⟩]),
    .get 0 "a", .get 0 "b"]

def rivalA (serial : Nat) : Instance Supplier Item := ⟨serial, ⟨0, none⟩, ⟨"a", ⟨⟨"A"⟩, 0⟩⟩⟩

def rivalB : Instance Supplier Item := ⟨3, ⟨1, none⟩, ⟨"b", ⟨⟨"B"⟩, 1⟩⟩⟩

/-- The later instance is told first. -/
theorem rivals_history :
    (run rivals.conduct 2 rivalsSteps empty).bind (fun r => (r.2.findScope 0).map fun s =>
      (s.cache.values, (r.2.disposeIn rivals.conduct 2 0 s [rivalB, rivalA 1]).map
        (·.2.history))) =
      some ([rivalA 1, rivalB], some [.disposed 0 "default" [rivalB, rivalA 1],
        .answered 0 "a" (.ok (rivalA 4)), .stored 0 "default" "a" (rivalA 4),
        .produced 3 (some (0, "a")) (rivalA 4), .called ⟨0, none⟩ 3, .asked 0 "a",
        .notified (rivalA 1), .notified rivalB, .drained 0 [rivalB, rivalA 1],
        .answered 0 "b" (.ok rivalB), .stored 0 "default" "b" rivalB,
        .produced 1 (some (0, "b")) rivalB, .called ⟨1, none⟩ 1, .asked 0 "b",
        .answered 0 "a" (.ok (rivalA 1)), .discarded 0 "default" "a" (rivalA 2),
        .produced 1 (some (0, "a")) (rivalA 2), .answered 0 "a" (.ok (rivalA 1)),
        .stored 0 "default" "a" (rivalA 1), .produced 2 (some (0, "a")) (rivalA 1),
        .called ⟨0, none⟩ 2, .asked 0 "a", .called ⟨0, none⟩ 1, .asked 0 "a",
        .opened 0 "default"]) := by
  cbv

/-- The nested request wins, and what was stored is told once, in the other order. -/
theorem rivals_conserved : rivals.conduct.AlwaysFresh ∧ ∃ trace w,
    Runs rivals.conduct empty trace w ∧ Overtaken w.history (0, "a") (rivalA 2) ∧
      w.noticesOf (rivalA 1) = 1 ∧ w.noticesOf rivalB = 1 := by
  obtain ⟨⟨outcomes, w⟩, ran, cached⟩ := Option.bind_eq_some_iff.1 rivals_history
  obtain ⟨s, found, e⟩ := Option.map_eq_some_iff.1 cached
  obtain ⟨values, told⟩ := Prod.mk.inj e
  obtain ⟨⟨held, w'⟩, disposed, history⟩ := Option.map_eq_some_iff.1 told
  dsimp only at history
  have all : [rivalB, rivalA 1].Perm s.cache.values := by
    rw [values]
    exact .swap _ _ _
  have runs := (Runs.refl.run ran).disposeIn found all disposed
  obtain ⟨fates, -⟩ := instances_are_conserved rivals.alwaysFresh runs
  have told (number : Nat) (place : Nat × String) (x : Instance Supplier Item)
      (made : .produced number (some place) x ∈ w'.history)
      (once : w'.times x .disposed = 1) : w'.noticesOf x = 1 := by
    obtain ⟨fate, met, told, -⟩ := fates number place x made
    rw [told, if_pos (Fate.eq_of_one met once)]
  refine ⟨rivals.alwaysFresh, _, w', runs, ?_, ?_, ?_⟩
  · obtain ⟨fate, met, -, overtaken⟩ := fates 1 (0, "a") (rivalA 2) (by simp [history])
    have once : w'.times (rivalA 2) .discarded = 1 := by
      change tally (w'.history.flatMap _) 2 = 1
      rw [history]
      decide
    exact (overtaken (Fate.eq_of_one met once)).1
  · refine told 2 (0, "a") _ (by simp [history]) ?_
    change tally (w'.history.flatMap _) 1 = 1
    rw [history]
    decide
  · refine told 1 (0, "b") _ (by simp [history]) ?_
    change tally (w'.history.flatMap _) 3 = 1
    rw [history]
    decide

end World

end Registrar
