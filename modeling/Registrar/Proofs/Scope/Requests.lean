import Registrar.Proofs.Scope.Account

/-!
# Requests keep a world in order

A request may call a provider, whose errand makes further requests. A responder is faithful if
what it does passes, encloses whole requests and leaves the world in order; requests are faithful at
every depth if those one level deeper are. Between a call that has brought an instance and the
moment the instance is stored the world is only sound.
-/

namespace Registrar

open History

variable {H K P V α : Type}

namespace World

section Errands

variable {respond : Responder H K P V} {w w' : World H K P V} {result : α}

theorem carryOut_ends {Q : α → Prop} {errand : Errand H K (Reply P V) α} (ends : errand.Ends Q)
    (ran : carryOut respond errand w = some (result, w')) : Q result := by
  induction errand generalizing w with
  | done value =>
    cases ran
    exact ends
  | report event next ih => exact ih ends ran
  | request scope key next ih =>
    rw [carryOut] at ran
    split at ran
    · cases ran
    · exact ih _ (ends _) ran

variable [DecidableEq H] [DecidableEq K] {conduct : Conduct H K P V}

/-- What a responder may do with a world in order. -/
def Faithful (conduct : Conduct H K P V) (respond : Responder H K P V) : Prop :=
  ∀ ⦃scope key⦄ ⦃w : World H K P V⦄ ⦃reply w'⦄, InOrder conduct w →
    respond scope key w = some (reply, w') →
      InOrder conduct w' ∧ w.Extends w' ∧ w.Encloses w'

theorem InOrder.carryOut (ordered : InOrder conduct w) (faithful : Faithful conduct respond)
    {errand : Errand H K (Reply P V) α}
    (ran : World.carryOut respond errand w = some (result, w')) :
    InOrder conduct w' ∧ w.Extends w' ∧ w.Encloses w' := by
  induction errand generalizing w with
  | done value =>
    cases ran
    exact ⟨ordered, Extends.refl _, Encloses.refl _⟩
  | report event next ih =>
    have reported : InOrder conduct (w.record (.reported event)) :=
      ordered.record ⟨id, id⟩ id trivial (by simp)
    obtain ⟨kept, extended, enclosed⟩ := ih reported ran
    have first : w.Extends (w.record (.reported event)) := Extends.record w _ trivial
    have whole : w.Encloses (w.record (.reported event)) := Encloses.of_cons rfl (by simp)
    exact ⟨kept, first.trans extended, whole.trans enclosed⟩
  | request scope key next ih =>
    rw [World.carryOut] at ran
    split at ran
    · cases ran
    · next reply w₁ answered =>
      obtain ⟨kept, extended, enclosed⟩ := faithful ordered answered
      obtain ⟨kept', extended', enclosed'⟩ := ih reply kept ran
      exact ⟨kept', extended.trans extended', enclosed.trans enclosed'⟩

end Errands

variable [DecidableEq H] [DecidableEq K]
variable {conduct : Conduct H K P V} {respond : Responder H K P V} {w w' : World H K P V}

/-- A call has been made for `purpose`. What it brought, if anything, is not settled yet. -/
structure Delivered (conduct : Conduct H K P V) (purpose : Option (H × K)) (w : World H K P V)
    (reply : Reply P V) (w' : World H K P V) : Prop where
  sound : Sound conduct w'
  extended : w.Extends w'
  enclosed : w.Encloses w'
  pending : pending w'.history = reply.toOption.bind fun x => purpose.map (·, x)
  unasked : Unasked w'.history

theorem Delivered.inOrder {purpose : Option (H × K)} {reply : Reply P V}
    (delivered : Delivered conduct purpose w reply w')
    (settled : purpose = none ∨ ∃ fault, reply = .error fault) : InOrder conduct w' := by
  refine ⟨delivered.sound, ?_, delivered.unasked⟩
  rw [delivered.pending]
  rcases settled with rfl | ⟨fault, rfl⟩
  · cases reply <;> rfl
  · rfl

/-- The request for `purpose` has just been made, and in vain. -/
def Awaited (w : World H K P V) (purpose : Option (H × K)) : Prop :=
  ∀ place, purpose = some place →
    ∃ before, w.history = .asked place.1 place.2 :: before ∧ Vacant before place

theorem Awaited.begun {w₁ : World H K P V} {purpose : Option (H × K)} {maker : P} {number : Nat}
    (awaited : w.Awaited purpose) (enclosed : (w.record (.called maker number)).Encloses w₁)
    (place : H × K) (e : purpose = some place) : Begun w₁.history maker number place := by
  obtain ⟨before, asked, vacant⟩ := awaited place e
  obtain ⟨during, grown, whole⟩ := enclosed
  exact ⟨during, before, by rw [grown, record, asked], whole, vacant⟩

theorem InOrder.deliver {w₁ : World H K P V} {purpose : Option (H × K)} {x : Instance P V}
    (ordered : InOrder conduct w₁) (extended : w.Extends w₁) (enclosed : w.Encloses w₁)
    (h : Happening H K P V) (bringing : h.Bringing) (brought : h.yields = purpose.map (·, x))
    (fits : Fits w₁.history h) (history : w'.history = h :: w₁.history)
    (scopes : w'.scopes = w₁.scopes) (produced : w₁.produced ≤ w'.produced)
    (serial : ∀ x, h.made? = some x → x.serial ≤ w'.produced)
    (fresh : conduct.AlwaysFresh → ∀ maker number purpose other,
      h ≠ .shared maker number purpose other) : Delivered conduct purpose w (.ok x) w' := by
  have still : ¬h.Taking := bringing.passing.not_taking
  have unsettling : ¬h.Settling := bringing.not_settling
  have allowed : Allowed w₁.history h := by
    refine Allowed.of_not_taking still ?_ (ordered.answers h) fits
    rw [ordered.settled, Happening.settles_eq_none unsettling]
  have other : ∀ scope name key x, h ≠ .stored scope name key x := by
    rintro scope name key x rfl
    exact bringing
  have slots : w'.slots.Perm (h.puts ++ w₁.slots) := by
    rw [Happening.puts_eq_nil unsettling, List.nil_append, World.slots, scopes, World.slots]
  refine ⟨?_, extended.trans (Extends.of_cons history bringing.passing scopes),
    enclosed.trans (Encloses.of_cons history other), ?_, ?_⟩
  · exact ordered.toSound.grow still allowed history slots produced serial fresh
  · rw [history]
    exact brought
  · intro scope key asked
    rw [history] at asked
    cases Option.some.inj asked
    exact bringing.elim

section Calls

variable [DecidableEq P]

theorem InOrder.call (ordered : InOrder conduct w) (faithful : Faithful conduct respond)
    {purpose : Option (H × K)} {maker : P} {reply : Reply P V} (awaited : w.Awaited purpose)
    (called : World.call conduct respond purpose maker w = some (reply, w')) :
    Delivered conduct purpose w reply w' := by
  have begins : InOrder conduct (w.record (.called maker (w.callsOf maker + 1))) :=
    ordered.record ⟨id, id⟩ id trivial (by simp)
  have first : w.Extends (w.record (.called maker (w.callsOf maker + 1))) :=
    Extends.record w _ trivial
  have whole : w.Encloses (w.record (.called maker (w.callsOf maker + 1))) :=
    Encloses.of_cons rfl (by simp)
  unfold World.call at called
  dsimp only at called
  split at called
  · cases called
  · next fault w₁ ran =>
    cases called
    obtain ⟨kept, extended, enclosed⟩ := begins.carryOut faithful ran
    exact ⟨kept.toSound, first.trans extended, whole.trans enclosed, kept.settled, kept.unasked⟩
  · next other w₁ ran =>
    cases called
    obtain ⟨kept, extended, enclosed⟩ := begins.carryOut faithful ran
    have unknown : ¬conduct.AlwaysFresh := by
      intro always
      exact carryOut_ends (always maker _) ran other rfl
    exact kept.deliver (first.trans extended) (whole.trans enclosed)
      (.shared maker (w.callsOf maker + 1) purpose other) trivial rfl (awaited.begun enclosed)
      rfl rfl (Nat.le_refl _) (by simp [Happening.made?]) fun always => absurd always unknown
  · next value w₁ ran =>
    cases called
    obtain ⟨kept, extended, enclosed⟩ := begins.carryOut faithful ran
    have later : ∀ earlier ∈ w₁.history.filterMap (·.made?),
        earlier.serial < w₁.produced + 1 :=
      fun earlier mem => Nat.lt_succ_of_le (kept.serials earlier mem)
    exact kept.deliver (first.trans extended) (whole.trans enclosed)
      (.produced (w.callsOf maker + 1) purpose ⟨w₁.produced + 1, maker, value⟩) trivial rfl
      ⟨later, awaited.begun enclosed⟩ rfl rfl (Nat.le_succ _)
      (by simp [Happening.made?, World.record]) (by simp)

variable [Key K]

theorem InOrder.createFrom (ordered : InOrder conduct w) (faithful : Faithful conduct respond)
    {purpose : Option (H × K)} {registry : Registry K P} {key : K} {reply : Reply P V}
    (awaited : w.Awaited purpose)
    (created : World.createFrom conduct respond purpose registry key w = some (reply, w')) :
    Delivered conduct purpose w reply w' := by
  unfold World.createFrom at created
  split at created
  · cases created
    exact ⟨ordered.toSound, Extends.refl w, Encloses.refl w, ordered.settled, ordered.unasked⟩
  · next b _ =>
    obtain ⟨⟨reply₁, w₁⟩, called, e⟩ := Option.map_eq_some_iff.1 created
    cases e
    have delivered := ordered.call faithful awaited called
    refine ⟨delivered.sound, delivered.extended, delivered.enclosed, ?_, delivered.unasked⟩
    rw [delivered.pending]
    cases reply₁ <;> rfl

end Calls

theorem Sound.settle (sound : Sound conduct w) (unasked : Unasked w.history)
    (h : Happening H K P V) (settling : h.Settling) (settles : h.settles = pending w.history)
    (fits : Fits w.history h) (history : w'.history = h :: w.history)
    (produced : w'.produced = w.produced) (slots : w'.slots.Perm (h.puts ++ w.slots)) :
    InOrder conduct w' := by
  have still : ¬h.Taking := settling.passing.not_taking
  have idle : ¬h.Bringing := fun bringing => bringing.not_settling settling
  have answers : ∀ scope key x, w.history.head? = some (.asked scope key) →
      ((scope, key), x) ∈ stock w.history → h = .answered scope key (.ok x) := by
    intro scope key x asked mem
    exact absurd mem (unasked scope key asked x)
  have allowed : Allowed w.history h := Allowed.of_not_taking still settles answers fits
  refine ⟨sound.grow still allowed history slots (Nat.le_of_eq produced.symm) ?_ ?_, ?_, ?_⟩
  · intro x made
    rw [Happening.made?_eq_none idle] at made
    cases made
  · intro _
    exact Happening.ne_shared idle
  · rw [history]
    exact Happening.yields_eq_none idle
  · intro scope key asked
    rw [history] at asked
    cases Option.some.inj asked
    exact settling.elim

theorem Sound.store {scope : H} {key : K} {made kept : Instance P V} (sound : Sound conduct w)
    (unasked : Unasked w.history) (brought : pending w.history = some ((scope, key), made))
    (open_ : (w.findScope scope).isSome) (stored : w.store scope key made = (kept, w')) :
    InOrder conduct w' ∧ w.Extends w' ∧ ((scope, key), kept) ∈ stock w'.history ∧
      ∃ h, w'.history = h :: w.history ∧
        ∀ s name k x, h = .stored s name k x → s = scope ∧ k = key ∧ x = kept := by
  obtain ⟨s, found⟩ := Option.isSome_iff_exists.1 open_
  unfold World.store at stored
  rw [found] at stored
  dsimp only at stored
  split at stored
  · next earlier cached =>
    have stocked : ((scope, key), earlier) ∈ stock w.history :=
      sound.mem_stock_iff.2 ⟨s, found, cached⟩
    split at stored
    · next same =>
      cases stored
      refine ⟨?_, Extends.record w _ trivial, ?_, _, rfl, by simp⟩
      · exact sound.settle unasked (.confirmed scope s.name key made) trivial brought.symm
          ⟨kept, stocked, same⟩ rfl rfl (List.Perm.refl _)
      · exact mem_stock_cons.2 (Or.inr ⟨stocked, rfl⟩)
    · next other =>
      cases stored
      refine ⟨?_, Extends.record w _ trivial, ?_, _, rfl, by simp⟩
      · exact sound.settle unasked (.discarded scope s.name key made) trivial brought.symm
          ⟨kept, stocked, other⟩ rfl rfl (List.Perm.refl _)
      · exact mem_stock_cons.2 (Or.inr ⟨stocked, rfl⟩)
  · next absent =>
    cases stored
    refine ⟨?_, ⟨⟨[_], rfl, by simp [Happening.Passing]⟩, ?_⟩, ?_, _, rfl, ?_⟩
    · exact sound.settle unasked (.stored scope s.name key made) trivial brought.symm
        (sound.vacant found absent) rfl rfl
        (slots_store_perm found absent made)
    · intro other isOpen
      by_cases same : other = scope
      · subst same
        simp [World.record, setCache, findScope]
      · simpa [World.record, setCache, findScope, Table.find?_insert_of_ne same] using isOpen
    · exact mem_stock_cons.2 (Or.inl List.mem_cons_self)
    · rintro _ _ _ _ e
      cases e
      exact ⟨rfl, rfl, rfl⟩

/-- A request that finds an instance. -/
theorem InOrder.hit (ordered : InOrder conduct w) {scope : H} {key : K} {x : Instance P V}
    (stocked : ((scope, key), x) ∈ stock w.history) :
    InOrder conduct ((w.record (.asked scope key)).record (.answered scope key (.ok x))) := by
  have asked : Allowed w.history (.asked scope key) :=
    Allowed.of_not_taking id ordered.settled.symm (ordered.answers _) trivial
  have sound : Sound conduct (w.record (.asked scope key)) :=
    ordered.toSound.record ⟨id, id⟩ id asked
  have still : ((scope, key), x) ∈ stock (.asked scope key :: w.history) :=
    mem_stock_cons.2 (Or.inr ⟨stocked, rfl⟩)
  have answered : Allowed (.asked scope key :: w.history) (.answered scope key (.ok x)) := by
    refine Allowed.of_not_taking id rfl ?_ still
    intro scope' key' y e mem
    cases Option.some.inj e
    rw [eq_of_mem_stock sound.lawful mem still]
  refine ⟨sound.record ⟨id, id⟩ id answered, rfl, ?_⟩
  intro scope' key' e
  cases e

variable [DecidableEq P] [Key K]

/-- A request that finds nothing. -/
theorem InOrder.fetch {scope : H} {key : K} {s : Scope K P V} {reply : Reply P V}
    (ordered : InOrder conduct w) (faithful : Faithful conduct respond)
    (found : w.findScope scope = some s) (absent : s.cache.find? key = none)
    (fetched : World.fetch conduct respond scope key s (w.record (.asked scope key)) =
      some (reply, w')) :
    InOrder conduct w' ∧ w.Extends w' ∧
      (∀ x, reply = .ok x → ((scope, key), x) ∈ stock w'.history) ∧
      ∃ newer, w'.history = newer ++ w.history ∧ Whole (.answered scope key reply :: newer) := by
  have vacant : Vacant w.history (scope, key) := ordered.toSound.vacant found absent
  have asked : InOrder conduct (w.record (.asked scope key)) := by
    refine ordered.record ⟨id, id⟩ id trivial ?_
    intro scope key e
    cases e
    exact vacant
  have first : w.Extends (w.record (.asked scope key)) := Extends.record w _ trivial
  have awaited : (w.record (.asked scope key)).Awaited (some (scope, key)) := by
    intro place e
    cases e
    exact ⟨w.history, rfl, vacant⟩
  unfold World.fetch at fetched
  rw [absent] at fetched
  dsimp only at fetched
  split at fetched
  · cases fetched
  · next fault w₁ created =>
    cases fetched
    have delivered := asked.createFrom faithful awaited created
    obtain ⟨newer, grown, whole⟩ := delivered.enclosed
    refine ⟨delivered.inOrder (Or.inr ⟨fault, rfl⟩), first.trans delivered.extended, ?_,
      newer ++ [.asked scope key], ?_, ?_⟩
    · intro x e
      cases e
    · rw [grown, World.record, List.append_assoc, List.singleton_append]
    · exact (whole.append (whole_nil.cons (by simp))).cons (by simp)
  · next made w₁ created =>
    have delivered := asked.createFrom faithful awaited created
    have open_ : (w₁.findScope scope).isSome := by
      apply (first.trans delivered.extended).scopes scope
      rw [found]
      rfl
    obtain ⟨newer, grown, whole⟩ := delivered.enclosed
    cases stored : w₁.store scope key made
    rw [stored] at fetched
    cases fetched
    obtain ⟨kept, extended, stocked, h, last, stores⟩ :=
      delivered.sound.store delivered.unasked delivered.pending open_ stored
    refine ⟨kept, first.trans (delivered.extended.trans extended), ?_,
      h :: (newer ++ [.asked scope key]), ?_, whole.request stores⟩
    · intro x e
      cases e
      exact stocked
    · rw [last, grown, World.record]
      simp

theorem getVia_of_cached {scope : H} {key : K} {s : Scope K P V} {x : Instance P V}
    (found : w.findScope scope = some s) (cached : s.cache.find? key = some x) :
    getVia conduct respond scope key w = some (some (.ok x),
      (w.record (.asked scope key)).record (.answered scope key (.ok x))) := by
  simp [getVia, World.fetch, found, cached]

theorem Faithful.getVia (faithful : Faithful conduct respond) :
    Faithful conduct (World.getVia conduct respond) := by
  intro scope key w reply w' ordered answered
  -- no scope, an instance in the cache, or a call of the provider
  cases found : w.findScope scope with
  | none =>
    simp only [World.getVia, found, Option.some.injEq, Prod.mk.injEq] at answered
    obtain ⟨-, rfl⟩ := answered
    exact ⟨ordered, Extends.refl w, Encloses.refl w⟩
  | some s =>
    cases cached : s.cache.find? key with
    | some x =>
      rw [getVia_of_cached found cached] at answered
      cases answered
      have stocked := ordered.toSound.mem_stock_iff.2 ⟨s, found, cached⟩
      refine ⟨ordered.hit stocked, (Extends.record w (.asked scope key) trivial).trans
        (Extends.record _ (.answered scope key (.ok x)) trivial), ?_⟩
      exact ⟨[.answered scope key (.ok x), .asked scope key], rfl,
        (whole_nil.cons (by simp)).cons (by simp)⟩
    | none =>
      simp only [World.getVia, found] at answered
      obtain ⟨⟨reply₁, w₁⟩, fetched, e⟩ := Option.map_eq_some_iff.1 answered
      cases e
      obtain ⟨kept, extended, stocked, newer, grown, whole⟩ :=
        ordered.fetch faithful found cached fetched
      refine ⟨kept.record ⟨id, id⟩ id ?_ (by simp), extended.trans (Extends.record w₁ _ trivial),
        .answered scope key reply₁ :: newer, by rw [record, grown, List.cons_append], whole⟩
      cases reply₁ with
      | error fault => trivial
      | ok x => exact stocked x rfl

theorem get_faithful (conduct : Conduct H K P V) (depth : Nat) :
    Faithful conduct (get conduct depth) := by
  induction depth with
  | zero => exact Faithful.getVia fun _ _ _ _ _ _ answered => by cases answered
  | succ depth ih => exact Faithful.getVia ih

end World
end Registrar
