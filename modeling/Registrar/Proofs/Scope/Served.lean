import Registrar.Proofs.Registry.Coverage
import Registrar.Proofs.Scope.Disposal
import Registrar.Proofs.Scope.Growth

/-!
# Scopes hold what their registries serve

An instance gets into a scope under a key that the registry of the scope has found a binding for,
and the registry of an open scope stays the same. So a request for a key that the registry does not
serve finds nothing in the scope and calls no provider.
-/

namespace Registrar
namespace World

variable {H K P V α : Type} [DecidableEq H] [DecidableEq K] [Key K]

/-- All keys under which a scope holds instances are served by its registry. -/
def Served (w : World H K P V) : Prop :=
  ∀ scope s, w.findScope scope = some s →
    ∀ k x, s.cache.find? k = some x → s.registry.serves k = true

/-- The scopes of the earlier world are open in the later one, over the same registries. -/
structure Follows (w w' : World H K P V) : Prop where
  registries : ∀ scope s, w.findScope scope = some s →
    ∃ s', w'.findScope scope = some s' ∧ s'.registry = s.registry
  served : w.Served → w'.Served

variable {conduct : Conduct H K P V} {respond : Responder H K P V} {w w' w'' : World H K P V}
variable {scope : H} {s : Scope K P V} {key : K}

namespace Follows

theorem refl (w : World H K P V) : w.Follows w := ⟨fun _ s found => ⟨s, found, rfl⟩, id⟩

theorem trans (first : w.Follows w') (second : w'.Follows w'') : w.Follows w'' := by
  refine ⟨?_, fun served => second.served (first.served served)⟩
  intro scope s found
  obtain ⟨s', found', same⟩ := first.registries scope s found
  obtain ⟨s'', found'', same'⟩ := second.registries scope s' found'
  exact ⟨s'', found'', same'.trans same⟩

theorem of_scopes (same : w'.scopes = w.scopes) : w.Follows w' := by
  have find (scope : H) : w'.findScope scope = w.findScope scope := by rw [findScope, same]; rfl
  constructor
  · intro scope s found
    exact ⟨s, by rw [find, found], rfl⟩
  · intro served scope s found
    rw [find] at found
    exact served scope s found

theorem lasting : Lasting (Follows (H := H) (K := K) (P := P) (V := V)) where
  refl := refl
  trans := trans
  reported _ _ := of_scopes rfl
  notified _ _ := of_scopes rfl

end Follows

theorem Served.insert (served : w.Served) (scope : H)
    (holds : ∀ k x, s.cache.find? k = some x → s.registry.serves k = true) :
    ({ w with scopes := w.scopes.insert scope s } : World H K P V).Served := by
  intro other s' found
  rw [findScope, Table.find?_insert] at found
  split at found
  · cases found
    exact holds
  · exact served other s' found

/-- The cache of a scope changes and nothing else. -/
theorem Served.setCache (served : w.Served) (found : w.findScope scope = some s)
    {cache : Table K (Instance P V)}
    (fewer : ∀ k x, cache.find? k = some x → s.cache.find? k = some x) :
    (w.setCache scope s cache).Served :=
  served.insert scope fun k x cached => served scope s found k x (fewer k x cached)

theorem Served.openScope (served : w.Served) (scope : H) (name : Option String)
    (registry : Registry K P) : (w.openScope scope name registry).Served := by
  unfold World.openScope
  cases w.findScope scope with
  | none => exact (Follows.of_scopes rfl).served (served.insert scope (by simp))
  | some old =>
    have closed : (w.record (.abandoned scope old.cache.values)).Served :=
      (Follows.of_scopes rfl).served served
    exact (Follows.of_scopes rfl).served (closed.insert scope (by simp))

/-- Answering a request keeps the scopes that are open. -/
def Careful (respond : Responder H K P V) : Prop :=
  ∀ ⦃scope key⦄ ⦃w : World H K P V⦄ ⦃reply w'⦄,
    respond scope key w = some (reply, w') → w.Follows w'

theorem Careful.carryOut (careful : Careful respond) {errand : Errand H K (Reply P V) α}
    {result : α} (ran : World.carryOut respond errand w = some (result, w')) : w.Follows w' :=
  Follows.lasting.carryOut careful ran

theorem Served.notifyAll (served : w.Served) (careful : Careful respond)
    {held : List (Instance P V)} (told : World.notifyAll conduct respond held w = some w') :
    w'.Served :=
  (Follows.lasting.notifyAll careful told).served served

/-- Under a key that is served an instance may be stored. -/
theorem follows_store {made kept : Instance P V}
    (serves : ∀ s, w.findScope scope = some s → s.registry.serves key = true)
    (stored : w.store scope key made = (kept, w')) : w.Follows w' := by
  unfold store at stored
  split at stored
  · cases stored
    exact .refl w
  · next s found =>
    split at stored
    · split at stored
      all_goals
        cases stored
        exact .of_scopes rfl
    · cases stored
      constructor
      · intro other s' found'
        by_cases same : other = scope
        · subst same
          rw [found] at found'
          cases found'
          exact ⟨_, Table.find?_insert_self _ _ _, rfl⟩
        · exact ⟨s', by rwa [findScope, record, setCache, Table.find?_insert_of_ne same], rfl⟩
      · intro served
        have grown : (w.setCache scope s (s.cache.insert key made)).Served := by
          apply served.insert scope
          intro k x cached
          rw [Table.find?_insert] at cached
          split at cached
          · next same =>
            rw [same]
            exact serves s found
          · exact served scope s found k x cached
        exact (Follows.of_scopes rfl).served grown

variable [DecidableEq P]

theorem Careful.call (careful : Careful respond) {purpose : Option (H × K)} {maker : P}
    {reply : Reply P V} (called : World.call conduct respond purpose maker w = some (reply, w')) :
    w.Follows w' := by
  have begun : w.Follows (w.record (.called maker (w.callsOf maker + 1))) := .of_scopes rfl
  unfold World.call at called
  dsimp only at called
  split at called
  · cases called
  all_goals
    next w₁ ran =>
    cases called
    exact (begun.trans (careful.carryOut ran)).trans (.of_scopes rfl)

/-- What a registry creates it serves. -/
theorem Careful.createFrom (careful : Careful respond) {purpose : Option (H × K)}
    {registry : Registry K P} {reply : Reply P V}
    (created : World.createFrom conduct respond purpose registry key w = some (reply, w')) :
    w.Follows w' ∧ ∀ made, reply = .ok made → registry.serves key = true := by
  unfold World.createFrom at created
  split at created
  · cases created
    exact ⟨.refl w, by simp⟩
  · next b found =>
    obtain ⟨⟨reply₁, w₁⟩, called, e⟩ := Option.map_eq_some_iff.1 created
    cases e
    exact ⟨careful.call called, fun _ _ => Registry.serves_eq_true_iff.2 ⟨b, found⟩⟩

theorem Careful.fetch (careful : Careful respond) {reply : Reply P V}
    (found : w.findScope scope = some s)
    (fetched : World.fetch conduct respond scope key s w = some (reply, w')) : w.Follows w' := by
  unfold World.fetch at fetched
  split at fetched
  · cases fetched
    exact .refl w
  · split at fetched
    · cases fetched
    · next fault w₁ created =>
      cases fetched
      exact (careful.createFrom created).1
    · next made w₁ created =>
      obtain ⟨follows, serves⟩ := careful.createFrom created
      cases stored : w₁.store scope key made with
      | mk kept w₂ =>
      rw [stored] at fetched
      cases fetched
      refine follows.trans (follows_store ?_ stored)
      -- the scope may have changed during the call, but not its registry
      intro s₁ found₁
      obtain ⟨s', found', same⟩ := follows.registries scope s found
      rw [found₁] at found'
      cases found'
      rw [same]
      exact serves made rfl

theorem Careful.getVia (careful : Careful respond) : Careful (World.getVia conduct respond) := by
  intro scope key w reply w' answered
  unfold World.getVia at answered
  split at answered
  · cases answered
    exact .refl w
  · next s found =>
    obtain ⟨⟨reply₁, w₁⟩, fetched, e⟩ := Option.map_eq_some_iff.1 answered
    cases e
    have asked : w.Follows (w.record (.asked scope key)) := .of_scopes rfl
    exact (asked.trans (careful.fetch found fetched)).trans (.of_scopes rfl)

theorem get_careful (conduct : Conduct H K P V) (depth : Nat) : Careful (get conduct depth) := by
  induction depth with
  | zero => exact Careful.getVia fun _ _ _ _ _ answered => by cases answered
  | succ depth ih => exact ih.getVia

theorem Served.disposeIn (served : w.Served) (found : w.findScope scope = some s)
    {depth : Nat} {order held : List (Instance P V)}
    (disposed : w.disposeIn conduct depth scope s order = some (held, w')) : w'.Served := by
  obtain ⟨w₁, told, e⟩ := Option.map_eq_some_iff.1 disposed
  cases e
  have emptied : (w.setCache scope s .empty).Served := served.setCache found (by simp)
  have drained : ((w.setCache scope s .empty).record (.drained scope order)).Served :=
    (Follows.of_scopes rfl).served emptied
  have notified : w₁.Served := drained.notifyAll (get_careful conduct depth) told
  exact (Follows.of_scopes rfl).served notified

variable [HasType V]

theorem Served.step (served : w.Served) {depth : Nat} {step : Step H K P} {outcome : Outcome P V}
    (stepped : w.step conduct depth step = some (outcome, w')) : w'.Served := by
  have careful := get_careful conduct depth
  cases step with
  | openScope scope name registry =>
    cases stepped
    exact served.openScope scope name registry
  | call maker =>
    obtain ⟨⟨reply, w₁⟩, called, e⟩ := Option.map_eq_some_iff.1 stepped
    cases e
    exact (careful.call called).served served
  | create registry key =>
    obtain ⟨⟨reply, w₁⟩, created, e⟩ := Option.map_eq_some_iff.1 stepped
    cases e
    exact (careful.createFrom created).1.served served
  | createAs registry key type =>
    obtain ⟨⟨reply, w₁⟩, created, e⟩ := Option.map_eq_some_iff.1 stepped
    cases e
    exact (careful.createFrom created).1.served served
  | get scope key =>
    obtain ⟨⟨reply, w₁⟩, answered, e⟩ := Option.map_eq_some_iff.1 stepped
    cases e
    exact (careful answered).served served
  | getAs scope key type =>
    obtain ⟨⟨reply, w₁⟩, answered, e⟩ := Option.map_eq_some_iff.1 stepped
    cases e
    exact (careful answered).served served
  | remove scope key =>
    cases stepped
    split
    · exact served
    · next s found =>
      split
      · exact served
      · have fewer : (w.setCache scope s (s.cache.erase key)).Served :=
          served.setCache found fun k x => Table.find?_of_find?_erase
        exact (Follows.of_scopes rfl).served fewer
  | clear scope =>
    cases stepped
    split
    · exact served
    · next s found =>
      have emptied : (w.setCache scope s .empty).Served := served.setCache found (by simp)
      exact (Follows.of_scopes rfl).served emptied
  | dispose scope =>
    obtain ⟨⟨held, w₁⟩, ended, e⟩ := Option.map_eq_some_iff.1 stepped
    cases e
    obtain ⟨-, -, rfl⟩ | ⟨s, told, found, -, disposed⟩ := dispose_cases ended
    · exact served
    · exact served.disposeIn found disposed

theorem Reachable.served (reachable : Reachable conduct w) : w.Served := by
  induction reachable with
  | empty =>
    intro scope s found
    cases found
  | step _ stepped served => exact served.step stepped
  | disposeIn _ found _ disposed served => exact served.disposeIn found disposed

/-- A request for a key that the registry of its scope does not serve fails with what the registry
says, and nothing else happens. -/
theorem Reachable.get_of_unserved (reachable : Reachable conduct w)
    (found : w.findScope scope = some s) {fault : Fault}
    (unserved : s.registry.binding key = .error fault) (depth : Nat) :
    get conduct depth scope key w = some (some (.error fault),
      (w.record (.asked scope key)).record (.answered scope key (.error fault))) := by
  have absent : s.cache.find? key = none := by
    cases cached : s.cache.find? key with
    | none => rfl
    | some x =>
      have serves := reachable.served scope s found key x cached
      rw [Registry.serves_eq_false_iff.2 ⟨fault, unserved⟩] at serves
      cases serves
  have via (respond : Responder H K P V) :
      World.getVia conduct respond scope key w = some (some (.error fault),
        (w.record (.asked scope key)).record (.answered scope key (.error fault))) := by
    simp [World.getVia, World.fetch, createFrom, found, absent, unserved]
  cases depth with
  | zero => exact via _
  | succ depth => exact via _

end World
end Registrar
