import Registrar.Proofs.Table
import Registrar.Scope.World

/-!
# Growing caches

While requests are carried out, the scopes that are open stay open, no others are opened, and the
caches only fill: whoever stores an instance finds the place vacant or leaves it as it is.
-/

namespace Registrar
namespace World

variable {H K P V α : Type} [DecidableEq H] [DecidableEq K]
variable {w w' w'' : World H K P V} {scope : H} {key : K} {s : Scope K P V} {place : H × K}
variable {x made kept : Instance P V}

/-- What a place of the caches holds. -/
def held? (w : World H K P V) (place : H × K) : Option (Instance P V) :=
  (w.findScope place.1).bind (·.cache.find? place.2)

theorem held?_eq_some_iff : w.held? place = some x ↔
    ∃ s, w.findScope place.1 = some s ∧ s.cache.find? place.2 = some x := Option.bind_eq_some_iff

theorem held?_of_found (found : w.findScope scope = some s) (key : K) :
    w.held? (scope, key) = s.cache.find? key := by simp [held?, found]

omit [DecidableEq K] in
theorem findScope_of_scopes (same : w'.scopes = w.scopes) (scope : H) :
    w'.findScope scope = w.findScope scope := by rw [findScope, same]; rfl

theorem held?_of_scopes (same : w'.scopes = w.scopes) (place : H × K) :
    w'.held? place = w.held? place := by rw [held?, held?, findScope_of_scopes same]

@[simp] theorem held?_record (w : World H K P V) (h : Happening H K P V) (place : H × K) :
    (w.record h).held? place = w.held? place := rfl

/-- The scopes that are open stay open, with all that they hold, and no others are opened. -/
structure Grows (w w' : World H K P V) : Prop where
  history : w.history <:+ w'.history
  closed : ∀ scope, w.findScope scope = none → w'.findScope scope = none
  kept : ∀ scope s, w.findScope scope = some s → ∃ cache,
    w'.findScope scope = some { s with cache } ∧
      ∀ k x, s.cache.find? k = some x → cache.find? k = some x

namespace Grows

theorem of_scopes (history : w.history <:+ w'.history) (same : w'.scopes = w.scopes) :
    w.Grows w' := by
  have find := findScope_of_scopes same
  refine ⟨history, fun scope closed => by rw [find, closed], ?_⟩
  intro scope s found
  exact ⟨s.cache, by rw [find, found], fun _ _ cached => cached⟩

theorem refl (w : World H K P V) : w.Grows w := of_scopes List.suffix_rfl rfl

theorem record (w : World H K P V) (h : Happening H K P V) : w.Grows (w.record h) :=
  of_scopes (List.suffix_cons _ _) rfl

theorem trans (first : w.Grows w') (second : w'.Grows w'') : w.Grows w'' := by
  refine ⟨first.history.trans second.history,
    fun scope closed => second.closed scope (first.closed scope closed), ?_⟩
  intro scope s found
  obtain ⟨cache, found', kept⟩ := first.kept scope s found
  obtain ⟨cache', found'', kept'⟩ := second.kept scope _ found'
  exact ⟨cache', found'', fun k x cached => kept' k x (kept k x cached)⟩

/-- What a place holds it goes on holding. -/
theorem held? (grows : w.Grows w') (holds : w.held? place = some x) :
    w'.held? place = some x := by
  obtain ⟨s, found, cached⟩ := held?_eq_some_iff.1 holds
  obtain ⟨cache, found', kept⟩ := grows.kept place.1 s found
  exact held?_eq_some_iff.2 ⟨_, found', kept _ _ cached⟩

end Grows

/-- An instance is stored if its place is vacant; else it is the one that is there, or another one
that is discarded. -/
theorem store_cases (found : w.findScope scope = some s)
    (stored : w.store scope key made = (kept, w')) :
    s.cache.find? key = none ∧ kept = made ∧
        w' = (w.setCache scope s (s.cache.insert key made)).record
          (.stored scope s.name key made) ∨
      s.cache.find? key = some kept ∧ kept.serial = made.serial ∧
        w' = w.record (.confirmed scope s.name key made) ∨
      s.cache.find? key = some kept ∧ kept.serial ≠ made.serial ∧
        w' = w.record (.discarded scope s.name key made) := by
  unfold store at stored
  rw [found] at stored
  dsimp only at stored
  split at stored
  · next earlier cached =>
    split at stored
    · next same =>
      cases stored
      exact .inr (.inl ⟨cached, same, rfl⟩)
    · next differs =>
      cases stored
      exact .inr (.inr ⟨cached, differs, rfl⟩)
  · next absent =>
    cases stored
    exact .inl ⟨absent, rfl, rfl⟩

omit [DecidableEq K] in
theorem findScope_setCache (w : World H K P V) (scope other : H) (s : Scope K P V)
    (cache : Table K (Instance P V)) : (w.setCache scope s cache).findScope other =
      if other = scope then some { s with cache } else w.findScope other :=
  Table.find?_insert _ _ _ _

theorem grows_store (stored : w.store scope key made = (kept, w')) : w.Grows w' := by
  cases found : w.findScope scope with
  | none =>
    simp only [store, found, Prod.mk.injEq] at stored
    exact stored.2 ▸ .refl w
  | some s =>
    obtain ⟨absent, -, rfl⟩ | ⟨-, -, rfl⟩ | ⟨-, -, rfl⟩ := store_cases found stored
    · refine ⟨List.suffix_cons _ _, ?_, ?_⟩
      · intro other closed
        have away : other ≠ scope := by
          rintro rfl
          rw [found] at closed
          cases closed
        exact (findScope_setCache w scope other s _).trans (by rw [if_neg away, closed])
      · intro other s' found'
        by_cases same : other = scope
        · subst same
          rw [found] at found'
          cases found'
          refine ⟨s.cache.insert key made,
            (findScope_setCache w other other s _).trans (if_pos rfl), ?_⟩
          intro k x cached
          have differs : k ≠ key := by
            rintro rfl
            rw [absent] at cached
            cases cached
          rwa [Table.find?_insert_of_ne differs]
        · exact ⟨s'.cache, (findScope_setCache w scope other s _).trans (by rw [if_neg same, found']),
            fun _ _ cached => cached⟩
    · exact .record w _
    · exact .record w _

theorem held?_setCache (w : World H K P V) (scope : H) (s : Scope K P V)
    (cache : Table K (Instance P V)) (place : H × K) : (w.setCache scope s cache).held? place =
      if place.1 = scope then cache.find? place.2 else w.held? place := by
  rw [held?, findScope_setCache]
  split <;> rfl

/-- The place that is stored to holds what is handed out; no other place changes. -/
theorem held?_store (found : w.findScope scope = some s)
    (stored : w.store scope key made = (kept, w')) (place : H × K) :
    w'.held? place = if place = (scope, key) then some kept else w.held? place := by
  obtain ⟨absent, rfl, rfl⟩ | ⟨cached, -, rfl⟩ | ⟨cached, -, rfl⟩ := store_cases found stored
  · obtain ⟨other, k⟩ := place
    refine (held?_setCache w scope s (s.cache.insert key kept) (other, k)).trans ?_
    by_cases same : other = scope
    · subst same
      simp [Table.find?_insert, held?_of_found found]
    · simp [same]
  all_goals
    refine (held?_of_scopes (w := w) rfl place).trans ?_
    split
    · next here => rw [here, held?_of_found found, cached]
    · rfl

/-- What holds between earlier and later worlds, whatever instances report or are told in between. -/
structure Lasting (R : World H K P V → World H K P V → Prop) : Prop where
  refl : ∀ w, R w w
  trans : ∀ {w w' w''}, R w w' → R w' w'' → R w w''
  reported : ∀ w event, R w (w.record (.reported event))
  notified : ∀ w x, R w (w.record (.notified x))

namespace Lasting

variable {R : World H K P V → World H K P V → Prop} {respond : Responder H K P V}

omit [DecidableEq H] [DecidableEq K]

/-- What every request brings about, an errand brings about as a whole. -/
theorem carryOut (lasting : Lasting R)
    (replied : ∀ ⦃scope key w reply w'⦄, respond scope key w = some (reply, w') → R w w')
    {errand : Errand H K (Reply P V) α} {result : α}
    (ran : World.carryOut respond errand w = some (result, w')) : R w w' := by
  induction errand generalizing w with
  | done value =>
    cases ran
    exact lasting.refl _
  | report event next ih => exact lasting.trans (lasting.reported w event) (ih ran)
  | request scope key next ih =>
    rw [World.carryOut] at ran
    split at ran
    · cases ran
    · next reply w₁ answered => exact lasting.trans (replied answered) (ih reply ran)

theorem notifyAll (lasting : Lasting R)
    (replied : ∀ ⦃scope key w reply w'⦄, respond scope key w = some (reply, w') → R w w')
    {conduct : Conduct H K P V} {held : List (Instance P V)}
    (told : World.notifyAll conduct respond held w = some w') : R w w' := by
  induction held generalizing w with
  | nil =>
    cases told
    exact lasting.refl _
  | cons x rest ih =>
    unfold World.notifyAll at told
    dsimp only at told
    split at told
    · cases told
    · next w₁ ran =>
      exact lasting.trans (lasting.notified w x) (lasting.trans (lasting.carryOut replied ran) (ih told))

end Lasting

theorem Grows.lasting : Lasting (Grows (H := H) (K := K) (P := P) (V := V)) where
  refl := .refl
  trans := .trans
  reported w _ := .record w _
  notified w _ := .record w _

/-- All replies to requests let the caches grow. -/
def Growing (respond : Responder H K P V) : Prop :=
  ∀ ⦃scope key⦄ ⦃w : World H K P V⦄ ⦃reply w'⦄,
    respond scope key w = some (reply, w') → w.Grows w'

theorem Growing.carryOut {respond : Responder H K P V} (growing : Growing respond)
    {errand : Errand H K (Reply P V) α} {result : α}
    (ran : World.carryOut respond errand w = some (result, w')) : w.Grows w' :=
  Grows.lasting.carryOut growing ran

theorem Growing.notifyAll {conduct : Conduct H K P V} {respond : Responder H K P V}
    (growing : Growing respond) {held : List (Instance P V)}
    (told : World.notifyAll conduct respond held w = some w') : w.Grows w' :=
  Grows.lasting.notifyAll growing told

end World
end Registrar
