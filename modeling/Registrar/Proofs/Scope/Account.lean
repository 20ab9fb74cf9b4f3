import Registrar.Proofs.Scope.Settlement
import Registrar.Proofs.Scope.Slots
import Registrar.Scope.Step

/-!
# The account of a world

A world is in order if its history is lawful, its caches hold the stock of the history and no
request is half done. Every operation keeps a world in order. What providers and instances do on
the way only adds to the caches, so a request finds its scope again when its provider is done.
-/

namespace Registrar

open History

variable {H K P V α : Type}

/-- Whatever the replies, the result has a property. -/
def Errand.Ends {R : Type} (Q : α → Prop) : Errand H K R α → Prop
  | .done result => Q result
  | .request _ _ next => ∀ reply, (next reply).Ends Q
  | .report _ next => next.Ends Q

/-- No provider hands out an instance that is there already. -/
def Conduct.AlwaysFresh (conduct : Conduct H K P V) : Prop :=
  ∀ maker number, (conduct.produce maker number).Ends fun result =>
    ∀ other, result ≠ .ok (.known other)

namespace Happening

/-- A call of a provider has brought an instance. -/
def Bringing : Happening H K P V → Prop
  | produced _ _ _ | shared _ _ _ _ => True
  | _ => False

/-- A request settles what a call has brought. -/
def Settling : Happening H K P V → Prop
  | stored _ _ _ _ | confirmed _ _ _ _ | discarded _ _ _ _ => True
  | _ => False

/-- It neither brings an instance nor settles what a call has brought. -/
def Aside (h : Happening H K P V) : Prop := ¬h.Bringing ∧ ¬h.Settling

/-- Instances leave the caches. -/
def Taking : Happening H K P V → Prop
  | removed _ _ _ | cleared _ _ _ | drained _ _ | abandoned _ _ => True
  | _ => False

/-- What may happen while a provider or an instance is at work: caches only fill, and no disposal
begins, goes on or ends. -/
def Passing : Happening H K P V → Prop
  | opened _ _ | removed _ _ _ | cleared _ _ _ | drained _ _ | notified _ | disposed _ _ _
  | abandoned _ _ => False
  | _ => True

variable {h : Happening H K P V}

theorem yields_eq_none (other : ¬h.Bringing) : h.yields = none := by
  cases h <;> first | rfl | exact absurd trivial other

theorem made?_eq_none (other : ¬h.Bringing) : h.made? = none := by
  cases h <;> first | rfl | exact absurd trivial other

theorem ne_shared (other : ¬h.Bringing) (maker : P) (number : Nat) (purpose : Option (H × K))
    (x : Instance P V) : h ≠ .shared maker number purpose x := by
  rintro rfl
  exact other trivial

theorem settles_eq_none (other : ¬h.Settling) : h.settles = none := by
  cases h <;> first | rfl | exact absurd trivial other

theorem puts_eq_nil (other : ¬h.Settling) : h.puts = [] := by
  cases h <;> first | rfl | exact absurd trivial other

theorem leaving_eq_nil (still : ¬h.Taking) : h.leaving = [] := by
  cases h <;> first | rfl | exact absurd trivial still

theorem takes_eq_false [DecidableEq H] [DecidableEq K] (still : ¬h.Taking) (place : H × K) :
    h.takes place = false := by
  cases h <;> first | rfl | exact absurd trivial still

theorem Bringing.not_settling (bringing : h.Bringing) : ¬h.Settling := by
  intro settling
  cases h <;> first | exact bringing | exact settling

theorem Bringing.passing (bringing : h.Bringing) : h.Passing := by
  cases h <;> trivial

theorem Settling.passing (settling : h.Settling) : h.Passing := by
  cases h <;> trivial

theorem Passing.not_taking (passing : h.Passing) : ¬h.Taking := by
  intro taking
  cases h <;> first | exact passing | exact taking

end Happening

namespace History

variable {h : Happening H K P V} {newer older : List (Happening H K P V)}

theorem awaiting_append (passing : ∀ h ∈ newer, h.Passing) :
    awaiting (newer ++ older) = awaiting older := by
  induction newer with
  | nil => rfl
  | cons h rest ih =>
    rw [List.forall_mem_cons] at passing
    obtain ⟨first, others⟩ := passing
    cases h <;> first | exact first.elim | exact ih others

variable [DecidableEq H] [DecidableEq K]

theorem stock_cons (unsettling : ¬h.Settling) (still : ¬h.Taking) :
    stock (h :: older) = stock older := by
  simp [stock, Happening.puts_eq_nil unsettling, Happening.takes_eq_false still]

theorem Allowed.of_not_taking (still : ¬h.Taking) (settles : h.settles = pending older)
    (answers : ∀ scope key x, older.head? = some (.asked scope key) →
      ((scope, key), x) ∈ stock older → h = .answered scope key (.ok x))
    (fits : Fits older h) : Allowed older h := by
  refine ⟨settles, answers, ?_, fits⟩
  simp [Happening.leaving_eq_nil still, Happening.takes_eq_false still]

end History

namespace World

/-- What happened in between are whole requests. -/
def Encloses (w w' : World H K P V) : Prop :=
  ∃ newer, w'.history = newer ++ w.history ∧ Whole newer

namespace Encloses

variable {w w' w'' : World H K P V}

theorem refl (w : World H K P V) : w.Encloses w := ⟨[], rfl, whole_nil⟩

theorem trans (first : w.Encloses w') (second : w'.Encloses w'') : w.Encloses w'' := by
  obtain ⟨newer, e, whole⟩ := first
  obtain ⟨newest, e', whole'⟩ := second
  exact ⟨newest ++ newer, by rw [e', e, List.append_assoc], whole'.append whole⟩

theorem of_cons {h : Happening H K P V} (history : w'.history = h :: w.history)
    (other : ∀ scope name key x, h ≠ .stored scope name key x) : w.Encloses w' :=
  ⟨[h], history, whole_nil.cons other⟩

end Encloses

variable [DecidableEq H]

/-- The later world comes from the earlier one by happenings that pass. -/
structure Extends (w w' : World H K P V) : Prop where
  history : ∃ newer, w'.history = newer ++ w.history ∧ ∀ h ∈ newer, h.Passing
  scopes : ∀ scope, (w.findScope scope).isSome → (w'.findScope scope).isSome

namespace Extends

variable {w w' w'' : World H K P V}

theorem refl (w : World H K P V) : w.Extends w := ⟨⟨[], rfl, by simp⟩, fun _ open_ => open_⟩

theorem trans (first : w.Extends w') (second : w'.Extends w'') : w.Extends w'' := by
  obtain ⟨newer, e, passing⟩ := first.history
  obtain ⟨newest, e', passing'⟩ := second.history
  refine ⟨⟨newest ++ newer, by rw [e', e, List.append_assoc], ?_⟩, ?_⟩
  · intro h mem
    rcases List.mem_append.1 mem with mem | mem
    · exact passing' h mem
    · exact passing h mem
  · intro scope open_
    exact second.scopes scope (first.scopes scope open_)

theorem of_cons {h : Happening H K P V} (history : w'.history = h :: w.history)
    (passing : h.Passing) (scopes : w'.scopes = w.scopes) : w.Extends w' := by
  refine ⟨⟨[h], history, by simpa using passing⟩, ?_⟩
  intro scope open_
  rwa [findScope, scopes]

theorem record (w : World H K P V) (h : Happening H K P V) (passing : h.Passing) :
    w.Extends (w.record h) :=
  of_cons rfl passing rfl

theorem awaiting_eq (extended : w.Extends w') : awaiting w'.history = awaiting w.history := by
  obtain ⟨newer, e, passing⟩ := extended.history
  rw [e, awaiting_append passing]

end Extends

variable [DecidableEq K]

structure Sound (conduct : Conduct H K P V) (w : World H K P V) : Prop where
  lawful : Lawful w.history
  slots : w.slots.Perm (stock w.history)
  serials : ∀ x ∈ w.history.filterMap (·.made?), x.serial ≤ w.produced
  fresh : conduct.AlwaysFresh → Fresh w.history

/-- Between two happenings of different requests. -/
structure InOrder (conduct : Conduct H K P V) (w : World H K P V) : Prop
    extends Sound conduct w where
  settled : pending w.history = none
  unasked : Unasked w.history

variable {conduct : Conduct H K P V} {w w' : World H K P V} {h : Happening H K P V}

theorem Sound.mem_stock_iff (sound : Sound conduct w) {scope : H} {key : K} {x : Instance P V} :
    ((scope, key), x) ∈ stock w.history ↔
      ∃ s, w.findScope scope = some s ∧ s.cache.find? key = some x := by
  rw [← sound.slots.mem_iff, mem_slots_iff]

theorem Sound.vacant (sound : Sound conduct w) {scope : H} {s : Scope K P V} {key : K}
    (found : w.findScope scope = some s) (absent : s.cache.find? key = none) :
    Vacant w.history (scope, key) := by
  intro x mem
  obtain ⟨s', found', cached⟩ := sound.mem_stock_iff.1 mem
  rw [found] at found'
  cases found'
  rw [absent] at cached
  cases cached

/-- One more happening, with what it does to the caches. -/
theorem Sound.add (sound : Sound conduct w) (allowed : Allowed w.history h)
    (history : w'.history = h :: w.history)
    (slots : w'.slots.Perm (h.puts ++ w.slots.filter fun slot => !h.takes slot.1))
    (produced : w.produced ≤ w'.produced) (serial : ∀ x, h.made? = some x → x.serial ≤ w'.produced)
    (fresh : conduct.AlwaysFresh → ∀ maker number purpose other,
      h ≠ .shared maker number purpose other) : Sound conduct w' := by
  refine ⟨?_, ?_, ?_, ?_⟩
  · rw [history]
    exact Lawful.cons allowed sound.lawful
  · rw [history]
    exact slots.trans ((sound.slots.filter _).append_left _)
  · intro x mem
    rw [history] at mem
    obtain ⟨other, hmem, made⟩ := List.mem_filterMap.1 mem
    rcases List.mem_cons.1 hmem with rfl | old
    · exact serial x made
    · have bound := sound.serials x (List.mem_filterMap.2 ⟨other, old, made⟩)
      omega
  · intro always maker number purpose other mem
    rw [history] at mem
    rcases List.mem_cons.1 mem with same | old
    · exact fresh always maker number purpose other same.symm
    · exact sound.fresh always maker number purpose other old

/-- Nothing is taken out of the caches. -/
theorem Sound.grow (sound : Sound conduct w) (still : ¬h.Taking) (allowed : Allowed w.history h)
    (history : w'.history = h :: w.history) (slots : w'.slots.Perm (h.puts ++ w.slots))
    (produced : w.produced ≤ w'.produced) (serial : ∀ x, h.made? = some x → x.serial ≤ w'.produced)
    (fresh : conduct.AlwaysFresh → ∀ maker number purpose other,
      h ≠ .shared maker number purpose other) : Sound conduct w' := by
  refine sound.add allowed history ?_ produced serial fresh
  simpa [Happening.takes_eq_false still] using slots

theorem Sound.record (sound : Sound conduct w) (aside : h.Aside) (still : ¬h.Taking)
    (allowed : Allowed w.history h) : Sound conduct (w.record h) := by
  obtain ⟨idle, unsettling⟩ := aside
  refine sound.grow still allowed rfl ?_ (Nat.le_refl _) ?_ ?_
  · rw [Happening.puts_eq_nil unsettling]
    exact List.Perm.refl _
  · intro x made
    rw [Happening.made?_eq_none idle] at made
    cases made
  · intro _
    exact Happening.ne_shared idle

namespace InOrder

theorem answers (ordered : InOrder conduct w) (h : Happening H K P V) (scope : H) (key : K)
    (x : Instance P V) (asked : w.history.head? = some (.asked scope key))
    (mem : ((scope, key), x) ∈ stock w.history) : h = .answered scope key (.ok x) :=
  absurd mem (ordered.unasked scope key asked x)

/-- A happening that neither brings nor settles an instance. -/
theorem add (ordered : InOrder conduct w) (aside : h.Aside) (history : w'.history = h :: w.history)
    (produced : w'.produced = w.produced) (fits : Fits w.history h)
    (unasked : ∀ scope key, h = .asked scope key → Vacant w'.history (scope, key))
    (slots : w'.slots.Perm (w.slots.filter fun slot => !h.takes slot.1))
    (leaving : h.leaving.Perm ((w.slots.filter fun slot => h.takes slot.1).map Prod.snd)) :
    InOrder conduct w' := by
  obtain ⟨idle, unsettling⟩ := aside
  have allowed : Allowed w.history h := by
    refine ⟨?_, ordered.answers h, leaving.trans ((ordered.slots.filter _).map _), fits⟩
    rw [ordered.settled, Happening.settles_eq_none unsettling]
  refine ⟨ordered.toSound.add allowed history ?_ (Nat.le_of_eq produced.symm) ?_ ?_, ?_, ?_⟩
  · rwa [Happening.puts_eq_nil unsettling, List.nil_append]
  · intro x made
    rw [Happening.made?_eq_none idle] at made
    cases made
  · intro _
    exact Happening.ne_shared idle
  · rw [history]
    exact Happening.yields_eq_none idle
  · intro scope key asked
    apply unasked scope key
    rw [history] at asked
    exact Option.some.inj asked

/-- A happening that does not concern the caches. -/
theorem record (ordered : InOrder conduct w) (aside : h.Aside) (still : ¬h.Taking)
    (fits : Fits w.history h)
    (vacant : ∀ scope key, h = .asked scope key → Vacant w.history (scope, key)) :
    InOrder conduct (w.record h) := by
  refine ordered.add aside rfl rfl fits ?_ ?_ ?_
  · intro scope key asked x mem
    rw [World.record, stock_cons aside.2 still] at mem
    exact vacant scope key asked x mem
  · change w.slots.Perm _
    simp [Happening.takes_eq_false still]
  · simp [Happening.leaving_eq_nil still, Happening.takes_eq_false still]

end InOrder

end World
end Registrar
