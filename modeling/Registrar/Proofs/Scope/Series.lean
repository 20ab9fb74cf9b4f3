import Registrar.Proofs.Scope.Nested

/-!
# Requests in series

A provider makes no requests and fails its first calls. As long as it is called for one place only,
and nothing takes an instance out of that place, the requests for the place fail as often as the
provider does, and then get its first instance for good. The invariant ties the replies so far to
what the place holds and to the number of calls; requests keep it, whatever they are for.
-/

namespace Registrar

open History

variable {H K P V α : Type}

/-- The errand makes no requests. -/
def Errand.Alone {R : Type} : Errand H K R α → Prop
  | .done _ => True
  | .request _ _ _ => False
  | .report _ next => next.Alone

/-- A provider without requests whose first calls fail, each in its own way, and the next succeeds. -/
structure Conduct.FailsFirst (conduct : Conduct H K P V) (maker : P) (failures : Nat)
    (fault : Nat → Fault) : Prop where
  alone : ∀ number, (conduct.produce maker number).Alone
  fails : ∀ number, 0 < number → number ≤ failures →
    (conduct.produce maker number).Ends (· = .error (fault number))
  succeeds : (conduct.produce maker (failures + 1)).Ends fun result => ∃ y, result = .ok y

/-- Requests for a place from some moment on, before which `older` happened, with the binding that
serves them. Its provider fails `failures` times. -/
structure Series (H K P V : Type) where
  scope : H
  key : K
  binding : Binding K P
  failures : Nat
  fault : Nat → Fault
  older : List (Happening H K P V)

namespace Happening

variable [DecidableEq H] [DecidableEq K]

/-- The reply to a request for a place. -/
def reply? (place : H × K) : Happening H K P V → Option (Reply P V)
  | answered scope key reply => if (scope, key) = place then some reply else none
  | _ => none

end Happening

namespace History

variable [DecidableEq H] [DecidableEq K]

/-- The replies to requests for a place, newest first. -/
def replies (place : H × K) (history : List (Happening H K P V)) : List (Reply P V) :=
  history.filterMap (·.reply? place)

end History

namespace Series

variable (t : Series H K P V)

def place : H × K := (t.scope, t.key)

variable [Key K]

/-- The replies to the first requests, newest first, as long as these fail. -/
def failed : Nat → List (Reply P V)
  | 0 => []
  | count + 1 =>
    .error (.provider (Key.label t.binding.key) (t.fault (count + 1))) :: failed count

/-- Replies, newest first: so many failures at most, and behind the last of them one instance. -/
inductive Retried : List (Reply P V) → Prop
  | failing {count : Nat} (few : count ≤ t.failures) : Retried (t.failed count)
  | settled {count : Nat} {x : Instance P V} :
      Retried (List.replicate (count + 1) (.ok x) ++ t.failed t.failures)

/-- How far the series is, from the replies, what the place holds and the calls of the provider. -/
inductive Progress : List (Reply P V) → Option (Instance P V) → Nat → Prop
  | failing {count : Nat} (few : count ≤ t.failures) : Progress (t.failed count) none count
  | settled {count : Nat} {x : Instance P V} :
      Progress (List.replicate (count + 1) (.ok x) ++ t.failed t.failures) (some x) (t.failures + 1)

theorem Progress.retried {t : Series H K P V} {told : List (Reply P V)}
    {held : Option (Instance P V)} {calls : Nat} (progress : t.Progress told held calls) :
    t.Retried told := by
  cases progress with
  | failing few => exact .failing few
  | settled => exact .settled

theorem Progress.cases {t : Series H K P V} {told : List (Reply P V)}
    {held : Option (Instance P V)} {calls : Nat} (progress : t.Progress told held calls) :
    (calls ≤ t.failures ∧ told = t.failed calls ∧ held = none) ∨
      ∃ count x, told = List.replicate (count + 1) (.ok x) ++ t.failed t.failures ∧
        held = some x ∧ calls = t.failures + 1 := by
  cases progress with
  | failing few => exact .inl ⟨few, rfl, rfl⟩
  | @settled count x => exact .inr ⟨count, x, rfl, rfl, rfl⟩

/-- After the first success nothing changes. -/
theorem Retried.again {t : Series H K P V} {reply : Reply P V} {x : Instance P V}
    {told : List (Reply P V)} (retried : t.Retried (reply :: .ok x :: told)) : reply = .ok x := by
  have unlike (count : Nat) (rest : List (Reply P V)) : t.failed count ≠ .ok x :: rest := by
    cases count <;> simp [failed]
  generalize whole : reply :: .ok x :: told = all at retried
  cases retried with
  | @failing count few =>
    cases count with
    | zero => cases whole
    | succ count =>
      injection whole with _ rest
      exact absurd rest.symm (unlike count told)
  | @settled count y =>
    cases count with
    | zero =>
      injection whole with _ rest
      exact absurd rest.symm (unlike t.failures told)
    | succ count =>
      injection whole with first rest
      injection rest with second _
      rw [first, second]

variable [DecidableEq H] [DecidableEq K]

/-- Nobody else uses the provider, the scope is not opened again, and nothing takes an instance out
of the place. -/
structure Undisturbed (newer : List (Happening H K P V)) : Prop where
  only : ∀ later number earlier, newer = later ++ .called t.binding.provider number :: earlier →
    earlier.head? = some (.asked t.scope t.key)
  unopened : ∀ name, .opened t.scope name ∉ newer
  untaken : ∀ later h earlier, newer = later ++ h :: earlier → h.takes t.place = true →
    Vacant (earlier ++ t.older) t.place

variable [DecidableEq P]

/-- Between two happenings of different requests. -/
structure Underway (newer : List (Happening H K P V)) (w : World H K P V) : Prop where
  history : w.history = newer ++ t.older
  ended : ∀ scope key, newer.head? ≠ some (.asked scope key)
  served : ∃ s, w.findScope t.scope = some s ∧ s.registry.binding t.key = .ok t.binding
  progress :
    t.Progress (replies t.place newer) (w.held? t.place) (w.callsOf t.binding.provider)

end Series

namespace World

variable [DecidableEq H] [DecidableEq K] [DecidableEq P] [Key K]
variable {conduct : Conduct H K P V} {respond : Responder H K P V} {w w' : World H K P V}
variable {t : Series H K P V} {newer during : List (Happening H K P V)}
variable {scope : H} {key : K} {s : Scope K P V}

omit [DecidableEq H] [DecidableEq K] [DecidableEq P] [Key K] in
theorem carryOut_of_alone {errand : Errand H K (Reply P V) α} (alone : errand.Alone)
    (respond : Responder H K P V) (w : World H K P V) :
    ∃ result w', carryOut respond errand w = some (result, w') ∧ w'.scopes = w.scopes ∧
      ∃ reports, w'.history = reports ++ w.history ∧
        ∀ h ∈ reports, ∃ event, h = .reported event := by
  induction errand generalizing w with
  | done result => exact ⟨result, w, rfl, rfl, [], rfl, by simp⟩
  | report event next ih =>
    obtain ⟨result, w', ran, same, reports, history, only⟩ := ih alone (w.record (.reported event))
    refine ⟨result, w', ran, same, reports ++ [.reported event], ?_, ?_⟩
    · rw [history, record, List.append_assoc, List.singleton_append]
    · intro h mem
      rcases List.mem_append.1 mem with mem | mem
      · exact only h mem
      · exact ⟨event, List.mem_singleton.1 mem⟩
  | request scope key next ih => exact alone.elim

omit [DecidableEq H] [DecidableEq K] [Key K] in
theorem callsOf_append (maker : P) (grown : w'.history = during ++ w.history)
    (uncalled : ∀ number, .called maker number ∉ during) : w'.callsOf maker = w.callsOf maker := by
  unfold callsOf
  rw [grown, List.countP_append, List.countP_eq_zero.2, Nat.zero_add]
  intro h mem
  cases h with
  | called p number =>
    have other : p ≠ maker := by
      rintro rfl
      exact uncalled number mem
    simpa using other
  | _ => simp

omit [DecidableEq P] [Key K] in
theorem replies_append (place : H × K) (newer older : List (Happening H K P V)) :
    replies place (newer ++ older) = replies place newer ++ replies place older :=
  List.filterMap_append

omit [DecidableEq H] [DecidableEq K] [Key K] in
/-- The call of a provider that makes no requests. -/
theorem of_alone_call {maker : P} {number : Nat} {result : Except Fault (Yield P V)}
    (alone : (conduct.produce maker number).Alone)
    (ran : carryOut respond (conduct.produce maker number) (w.calling scope key maker) =
      some (result, w')) :
    w'.scopes = w.scopes ∧ w'.callsOf maker = w.callsOf maker + 1 ∧
      ∃ reports, w'.history =
          reports ++ .called maker (w.callsOf maker + 1) :: .asked scope key :: w.history ∧
        ∀ h ∈ reports, ∃ event, h = .reported event := by
  obtain ⟨result', w₁, ran', same, reports, history, only⟩ :=
    carryOut_of_alone alone respond (w.calling scope key maker)
  rw [ran] at ran'
  cases ran'
  refine ⟨same, ?_, reports, history, only⟩
  rw [callsOf_append maker history, calling, callsOf_called, if_pos rfl,
    callsOf_record w _ (by simp)]
  intro number mem
  obtain ⟨event, e⟩ := only _ mem
  cases e

omit [DecidableEq P] [Key K] in
theorem replies_reports {reports : List (Happening H K P V)} (place : H × K)
    (only : ∀ h ∈ reports, ∃ event, h = .reported event) : replies place reports = [] := by
  rw [replies, List.filterMap_eq_nil_iff]
  intro h mem
  obtain ⟨event, rfl⟩ := only h mem
  rfl

end World

namespace Series

open World

variable [DecidableEq H] [DecidableEq K] [DecidableEq P] [Key K]
variable {conduct : Conduct H K P V} {respond : Responder H K P V} {w w' : World H K P V}
variable {t : Series H K P V} {newer during : List (Happening H K P V)}

/-- A call of the provider of the series, and what the request makes of it. -/
theorem Underway.own_called {result : Except Fault (Yield P V)} {w₁ w₂ : World H K P V}
    (under : t.Underway newer w)
    (alone : (conduct.produce t.binding.provider (w.callsOf t.binding.provider + 1)).Alone)
    (ran : carryOut respond
      (conduct.produce t.binding.provider (w.callsOf t.binding.provider + 1))
      (w.calling t.scope t.key t.binding.provider) = some (result, w₁))
    (brought : List (Happening H K P V)) (history : w₂.history = brought ++ w₁.history)
    (silent : replies t.place brought = [])
    (uncalled : ∀ number, .called t.binding.provider number ∉ brought)
    (served : ∃ s, w₂.findScope t.scope = some s ∧ s.registry.binding t.key = .ok t.binding)
    (reply : Reply P V) (progress : t.Progress (reply :: replies t.place newer)
      (w₂.held? t.place) (w.callsOf t.binding.provider + 1)) :
    ∃ newer', t.Underway newer' (w₂.record (.answered t.scope t.key reply)) ∧
      replies t.place newer' = reply :: replies t.place newer := by
  obtain ⟨-, calls, reports, history', only⟩ := of_alone_call alone ran
  have told : replies t.place (.answered t.scope t.key reply :: (brought ++ (reports ++
      .called t.binding.provider (w.callsOf t.binding.provider + 1) ::
        .asked t.scope t.key :: newer))) = reply :: replies t.place newer := by
    rw [← List.singleton_append, replies_append, replies_append, silent, replies_append,
      replies_reports t.place only]
    simp [replies, Happening.reply?, place]
  refine ⟨_, ⟨?_, ?_, served, ?_⟩, told⟩
  · rw [record, history, history', under.history]
    simp
  · intro scope key e
    cases e
  · have same : (w₂.record (.answered t.scope t.key reply)).callsOf t.binding.provider =
        w₁.callsOf t.binding.provider := by
      rw [callsOf_record w₂ _ (by simp), callsOf_append _ history uncalled]
    rwa [told, same, calls, held?_record]

/-- A call of the provider that fails is one of the first. -/
theorem Underway.own_failed {s : Scope K P V} {fault : Fault} {w₁ : World H K P V}
    (under : t.Underway newer w)
    (fails : conduct.FailsFirst t.binding.provider t.failures t.fault)
    (found : w.findScope t.scope = some s) (bound : s.registry.binding t.key = .ok t.binding)
    (few : w.callsOf t.binding.provider ≤ t.failures)
    (told : replies t.place newer = t.failed (w.callsOf t.binding.provider))
    (vacant : w.held? t.place = none)
    (ran : carryOut respond
      (conduct.produce t.binding.provider (w.callsOf t.binding.provider + 1))
      (w.calling t.scope t.key t.binding.provider) = some (.error fault, w₁)) :
    ∃ newer', t.Underway newer' (w₁.record (.answered t.scope t.key
        (.error (.provider (Key.label t.binding.key) fault)))) ∧
      replies t.place newer' =
        .error (.provider (Key.label t.binding.key) fault) :: replies t.place newer := by
  have more : w.callsOf t.binding.provider < t.failures := by
    refine Nat.lt_of_le_of_ne few ?_
    intro last
    rw [last] at ran
    obtain ⟨y, e⟩ := carryOut_ends fails.succeeds ran
    cases e
  have own := carryOut_ends (fails.fails _ (Nat.succ_pos _) more) ran
  cases own
  obtain ⟨same, -⟩ := of_alone_call (fails.alone _) ran
  have progress : t.Progress (.error (.provider (Key.label t.binding.key)
      (t.fault (w.callsOf t.binding.provider + 1))) :: replies t.place newer)
      (w₁.held? t.place) (w.callsOf t.binding.provider + 1) := by
    rw [told, held?_of_scopes same, vacant]
    exact .failing more
  exact under.own_called (fails.alone _) ran [] rfl rfl (by simp)
    ⟨s, (findScope_of_scopes same _).trans found, bound⟩ _ progress

/-- The first call of the provider that brings an instance fills the place. -/
theorem Underway.own_made {s : Scope K P V} {y : Yield P V} {made kept : Instance P V}
    {w₁ w₂ w₃ : World H K P V} (under : t.Underway newer w)
    (fails : conduct.FailsFirst t.binding.provider t.failures t.fault)
    (found : w.findScope t.scope = some s) (bound : s.registry.binding t.key = .ok t.binding)
    (few : w.callsOf t.binding.provider ≤ t.failures)
    (told : replies t.place newer = t.failed (w.callsOf t.binding.provider))
    (absent : s.cache.find? t.key = none)
    (ran : carryOut respond
      (conduct.produce t.binding.provider (w.callsOf t.binding.provider + 1))
      (w.calling t.scope t.key t.binding.provider) = some (.ok y, w₁))
    (brought : w₁.bring (some (t.scope, t.key)) t.binding.provider
      (w.callsOf t.binding.provider + 1) y = (made, w₂))
    (stored : w₂.store t.scope t.key made = (kept, w₃)) :
    ∃ newer', t.Underway newer' (w₃.record (.answered t.scope t.key (.ok kept))) ∧
      replies t.place newer' = .ok kept :: replies t.place newer := by
  have last : w.callsOf t.binding.provider = t.failures := by
    by_contra differs
    have more : w.callsOf t.binding.provider < t.failures := Nat.lt_of_le_of_ne few differs
    have own := carryOut_ends (fails.fails _ (Nat.succ_pos _) more) ran
    cases own
  obtain ⟨called, -⟩ := of_alone_call (fails.alone _) ran
  have same : w₂.scopes = w.scopes := (scopes_of_bring brought).trans called
  have found' : w₂.findScope t.scope = some s := (findScope_of_scopes same _).trans found
  have holds : w₃.held? t.place = some kept :=
    (held?_store found' stored t.place).trans (if_pos rfl)
  have progress : t.Progress (.ok kept :: replies t.place newer) (w₃.held? t.place)
      (w.callsOf t.binding.provider + 1) := by
    rw [told, last, holds]
    exact @Progress.settled _ _ _ _ t _ 0 kept
  obtain ⟨h, history, unanswered, uncalled⟩ : ∃ h, w₂.history = h :: w₁.history ∧
      h.reply? t.place = none ∧ ∀ number, .called t.binding.provider number ≠ h := by
    cases y <;> (cases brought; exact ⟨_, rfl, rfl, by simp⟩)
  obtain ⟨-, rfl, rfl⟩ | ⟨cached, -⟩ | ⟨cached, -⟩ := store_cases found' stored
  · have silent : replies t.place [.stored t.scope s.name t.key kept, h] = [] := by
      rw [replies, List.filterMap_eq_nil_iff]
      intro h' mem
      rcases List.mem_pair.1 mem with rfl | rfl
      · rfl
      · exact unanswered
    have uncalled' : ∀ number, .called t.binding.provider number ∉
        [.stored t.scope s.name t.key kept, h] := by
      intro number mem
      rcases List.mem_pair.1 mem with e | e
      · cases e
      · exact uncalled number e
    have open_ := (findScope_setCache w₂ t.scope t.scope s (s.cache.insert t.key kept)).trans
      (if_pos rfl)
    have grown : ((w₂.setCache t.scope s (s.cache.insert t.key kept)).record
        (.stored t.scope s.name t.key kept)).history =
          [.stored t.scope s.name t.key kept, h] ++ w₁.history := congrArg _ history
    exact under.own_called (fails.alone _) ran [.stored t.scope s.name t.key kept, h] grown silent
      uncalled' ⟨_, open_, bound⟩ _ progress
  all_goals
    rw [absent] at cached
    cases cached

/-- Once the place is filled, a request finds the instance there. -/
theorem Underway.own_found {s : Scope K P V} {count : Nat} {x : Instance P V}
    (under : t.Underway newer w)
    (found : w.findScope t.scope = some s) (bound : s.registry.binding t.key = .ok t.binding)
    (told : replies t.place newer = List.replicate (count + 1) (.ok x) ++ t.failed t.failures)
    (holds : w.held? t.place = some x) (calls : w.callsOf t.binding.provider = t.failures + 1) :
    ∃ newer', t.Underway newer' ((w.record (.asked t.scope t.key)).record
        (.answered t.scope t.key (.ok x))) ∧
      replies t.place newer' = .ok x :: replies t.place newer := by
  have told' : replies t.place (.answered t.scope t.key (.ok x) ::
      .asked t.scope t.key :: newer) = .ok x :: replies t.place newer := by
    simp [replies, Happening.reply?, place]
  refine ⟨_, ⟨congrArg _ (congrArg _ under.history), ?_, ⟨s, found, bound⟩, ?_⟩, told'⟩
  · intro scope key e
    cases e
  · rw [told', told, held?_record, held?_record, holds, callsOf_record _ _ (by simp),
      callsOf_record _ _ (by simp), calls]
    exact @Progress.settled _ _ _ _ t _ (count + 1) x

/-- A request for the place itself is the next one of the series. -/
theorem Underway.own (under : t.Underway newer w)
    (fails : conduct.FailsFirst t.binding.provider t.failures t.fault)
    {answer : Option (Reply P V)}
    (answered : getVia conduct respond t.scope t.key w = some (answer, w')) :
    ∃ reply newer', answer = some reply ∧ t.Underway newer' w' ∧
      replies t.place newer' = reply :: replies t.place newer := by
  obtain ⟨s, found, bound⟩ := under.served
  obtain ⟨reply, w₁, rfl, rfl, course⟩ := of_getVia found answered
  suffices next : ∃ newer', t.Underway newer' (w₁.record (.answered t.scope t.key reply)) ∧
      replies t.place newer' = reply :: replies t.place newer by
    obtain ⟨newer', under', told⟩ := next
    exact ⟨reply, newer', rfl, under', told⟩
  have held : w.held? t.place = s.cache.find? t.key := held?_of_found found t.key
  obtain ⟨few, told, vacant⟩ | ⟨count, x, told, holds, calls⟩ := under.progress.cases
  · cases course with
    | found cached =>
      rw [held, cached] at vacant
      cases vacant
    | unserved absent unbound =>
      rw [bound] at unbound
      cases unbound
    | failed absent bound' ran =>
      rw [bound] at bound'
      cases bound'
      exact under.own_failed fails found bound few told vacant ran
    | made absent bound' ran brought stored =>
      rw [bound] at bound'
      cases bound'
      exact under.own_made fails found bound few told absent ran brought stored
  · have cached : s.cache.find? t.key = some x := held.symm.trans holds
    cases course with
    | found cached' =>
      rw [cached] at cached'
      cases cached'
      exact under.own_found found bound told holds calls
    | unserved absent unbound =>
      rw [cached] at absent
      cases absent
    | failed absent bound' ran =>
      rw [cached] at absent
      cases absent
    | made absent bound' ran brought stored =>
      rw [cached] at absent
      cases absent

/-- What happens for other places. -/
theorem Underway.extend (under : t.Underway newer w) (grown : w'.history = during ++ w.history)
    (ended : ∀ scope key, during.head? ≠ some (.asked scope key))
    (served : ∀ s, w.findScope t.scope = some s →
      ∃ s', w'.findScope t.scope = some s' ∧ s'.registry = s.registry)
    (held : w'.held? t.place = w.held? t.place) (unanswered : replies t.place during = [])
    (uncalled : ∀ number, .called t.binding.provider number ∉ during) :
    t.Underway (during ++ newer) w' := by
  refine ⟨by rw [grown, under.history, List.append_assoc], ?_, ?_, ?_⟩
  · cases during with
    | nil => exact under.ended
    | cons h rest => exact ended
  · obtain ⟨s, found, bound⟩ := under.served
    obtain ⟨s', found', same⟩ := served s found
    exact ⟨s', found', same ▸ bound⟩
  · have progress := under.progress
    rw [replies] at unanswered
    rwa [held, callsOf_append t.binding.provider grown uncalled, replies, List.filterMap_append,
      unanswered, List.nil_append]

/-- Whatever has happened since leaves the series undisturbed. -/
def Quiet (t : Series H K P V) (w : World H K P V) : Prop :=
  ∀ newer, w.history = newer ++ t.older → t.Undisturbed newer

/-- The series has come so far. -/
def On (t : Series H K P V) (w : World H K P V) : Prop := ∃ newer, t.Underway newer w

omit [DecidableEq P] [Key K] in
theorem Undisturbed.of_append (undisturbed : t.Undisturbed (during ++ newer)) :
    t.Undisturbed newer := by
  refine ⟨?_, ?_, ?_⟩
  · rintro later number earlier rfl
    exact undisturbed.only (during ++ later) number earlier (List.append_assoc ..).symm
  · intro name opened
    exact undisturbed.unopened name (List.mem_append_right _ opened)
  · rintro later h earlier rfl
    exact undisturbed.untaken (during ++ later) h earlier (List.append_assoc ..).symm

omit [DecidableEq P] [Key K] in
theorem Quiet.of_suffix (quiet : t.Quiet w') (earlier : w.history <:+ w'.history) : t.Quiet w := by
  intro newer history
  obtain ⟨later, history'⟩ := earlier
  have undisturbed := quiet (later ++ newer) (by rw [← history', history, List.append_assoc])
  exact undisturbed.of_append

/-- A happening that does not concern the series. -/
theorem On.next {h : Happening H K P V} (on : t.On w) (history : w'.history = h :: w.history)
    (scopes : w'.scopes = w.scopes) (ended : ∀ scope key, h ≠ .asked scope key)
    (unanswered : h.reply? t.place = none)
    (uncalled : ∀ number, h ≠ .called t.binding.provider number) : t.On w' := by
  obtain ⟨newer, under⟩ := on
  have grown : w'.history = [h] ++ w.history := history
  refine ⟨_, under.extend grown ?_ ?_ (held?_of_scopes scopes _) ?_ ?_⟩
  · intro scope key e
    exact ended scope key (Option.some.inj e)
  · intro s found
    exact ⟨s, (findScope_of_scopes scopes _).trans found, rfl⟩
  · rw [replies, List.filterMap_cons_none unanswered, List.filterMap_nil]
  · intro number mem
    exact uncalled number (List.mem_singleton.1 mem).symm

/-- Replies to requests keep the series going. -/
def Keeps (t : Series H K P V) (respond : Responder H K P V) : Prop :=
  ∀ ⦃scope key⦄ ⦃w : World H K P V⦄ ⦃answer w'⦄,
    respond scope key w = some (answer, w') → t.Quiet w' → t.On w → t.On w'

/-- The series goes on until the later world, if nothing disturbs it. -/
structure GoesOn (t : Series H K P V) (w w' : World H K P V) : Prop where
  grows : w.Grows w'
  on : t.Quiet w' → t.On w → t.On w'

theorem lasting_goesOn : Lasting t.GoesOn where
  refl w := ⟨.refl w, fun _ on => on⟩
  trans first second := ⟨first.grows.trans second.grows, fun quiet on =>
    second.on quiet (first.on (quiet.of_suffix second.grows.history) on)⟩
  reported w _ := ⟨.record w _, fun _ on => on.next rfl rfl (by simp) rfl (by simp)⟩
  notified w _ := ⟨.record w _, fun _ on => on.next rfl rfl (by simp) rfl (by simp)⟩

theorem On.carryOut (keeps : t.Keeps respond) (growing : Growing respond)
    {errand : Errand H K (Reply P V) α} {result : α}
    (ran : World.carryOut respond errand w = some (result, w')) (quiet : t.Quiet w')
    (on : t.On w) : t.On w' :=
  (lasting_goesOn.carryOut (fun _ _ _ _ _ answered => ⟨growing answered, keeps answered⟩) ran).on
    quiet on

theorem On.bring {purpose : Option (H × K)} {maker : P} {number : Nat} {y : Yield P V}
    {made : Instance P V} (brought : w.bring purpose maker number y = (made, w')) (on : t.On w) :
    t.On w' := by
  cases y with
  | known other =>
    cases brought
    exact on.next rfl rfl (by simp) rfl (by simp)
  | fresh value =>
    cases brought
    exact on.next rfl rfl (by simp) rfl (by simp)

/-- A call for another place is not one of the provider of the series. -/
theorem On.calling {scope : H} {key : K} {maker : P} (other : (scope, key) ≠ t.place)
    (quiet : t.Quiet (w.calling scope key maker)) (on : t.On w) :
    t.On (w.calling scope key maker) := by
  obtain ⟨newer, under⟩ := on
  have grown : (w.calling scope key maker).history =
      [.called maker (w.callsOf maker + 1), .asked scope key] ++ w.history := rfl
  refine ⟨_, under.extend grown (by simp) (fun s found => ⟨s, found, rfl⟩) rfl rfl ?_⟩
  intro number mem
  rcases List.mem_pair.1 mem with e | e
  · cases e
    have whole : (w.calling scope key t.binding.provider).history =
        [] ++ .called t.binding.provider (w.callsOf t.binding.provider + 1) ::
          (.asked scope key :: newer) ++ t.older := by
      rw [grown, under.history]
      rfl
    have first := (quiet _ whole).only [] _ _ rfl
    cases first
    exact other rfl
  · cases e

/-- What is stored at another place. -/
theorem On.store {scope : H} {key : K} {s : Scope K P V} {made kept : Instance P V}
    (other : (scope, key) ≠ t.place) (found : w.findScope scope = some s)
    (stored : w.store scope key made = (kept, w')) (on : t.On w) : t.On w' := by
  obtain ⟨-, -, rfl⟩ | ⟨-, -, rfl⟩ | ⟨-, -, rfl⟩ := store_cases found stored
  · obtain ⟨newer, under⟩ := on
    have grown : ((w.setCache scope s (s.cache.insert key made)).record
        (.stored scope s.name key made)).history = [.stored scope s.name key made] ++ w.history :=
      rfl
    refine ⟨_, under.extend grown (by simp) ?_ ?_ rfl (by simp)⟩
    · intro s' found'
      by_cases same : t.scope = scope
      · rw [same, found] at found'
        cases found'
        exact ⟨_, (findScope_setCache w scope t.scope s _).trans (if_pos same), rfl⟩
      · exact ⟨s', (findScope_setCache w scope t.scope s _).trans (by rw [if_neg same, found']), rfl⟩
    · exact (held?_store found stored t.place).trans (if_neg (Ne.symm other))
  · exact on.next rfl rfl (by simp) rfl (by simp)
  · exact on.next rfl rfl (by simp) rfl (by simp)

theorem On.other {scope : H} {key : K} {s : Scope K P V} {reply : Reply P V}
    (keeps : t.Keeps respond) (growing : Growing respond) (found : w.findScope scope = some s)
    (course : Course conduct respond scope key s w reply w') (other : (scope, key) ≠ t.place)
    (quiet : t.Quiet (w'.record (.answered scope key reply))) (on : t.On w) :
    t.On (w'.record (.answered scope key reply)) := by
  have unanswered : (Happening.answered scope key reply).reply? t.place = none := if_neg other
  have answered (on : t.On w') : t.On (w'.record (.answered scope key reply)) :=
    on.next rfl rfl (by simp) unanswered (by simp)
  have late : t.Quiet w' := quiet.of_suffix (List.suffix_cons _ _)
  have at_once : t.On ((w.record (.asked scope key)).record (.answered scope key reply)) := by
    obtain ⟨newer, under⟩ := on
    have grown : ((w.record (.asked scope key)).record (.answered scope key reply)).history =
        [.answered scope key reply, .asked scope key] ++ w.history := rfl
    refine ⟨_, under.extend grown (by simp) (fun s found => ⟨s, found, rfl⟩) rfl ?_ (by simp)⟩
    rw [replies, List.filterMap_cons_none unanswered]
    rfl
  cases course with
  | found cached => exact at_once
  | unserved absent unbound => exact at_once
  | failed absent bound ran =>
    have before := late.of_suffix (growing.carryOut ran).history
    exact answered (On.carryOut keeps growing ran late (on.calling other before))
  | @made b y made kept w₁ w₂ w' absent bound ran brought stored =>
    have done : t.Quiet w₁ := late.of_suffix
      ((history_of_bring brought).trans (grows_store stored).history)
    have before := done.of_suffix (growing.carryOut ran).history
    have begun : w.Grows (w.calling scope key b.provider) :=
      (Grows.record w (.asked scope key)).trans (Grows.record _ _)
    obtain ⟨cache, found', -⟩ := (begun.trans (growing.carryOut ran)).kept scope s found
    rw [← findScope_of_scopes (scopes_of_bring brought)] at found'
    have on₁ : t.On w₁ := On.carryOut keeps growing ran done (on.calling other before)
    exact answered ((on₁.bring brought).store other found' stored)

theorem Keeps.getVia (fails : conduct.FailsFirst t.binding.provider t.failures t.fault)
    (keeps : t.Keeps respond) (growing : Growing respond) :
    t.Keeps (World.getVia conduct respond) := by
  intro scope key w answer w' answered quiet on
  by_cases own : (scope, key) = t.place
  · cases own
    obtain ⟨newer, under⟩ := on
    obtain ⟨reply, newer', -, under', -⟩ := under.own fails answered
    exact ⟨newer', under'⟩
  · cases found : w.findScope scope with
    | none =>
      simp only [World.getVia, found, Option.some.injEq, Prod.mk.injEq] at answered
      exact answered.2 ▸ on
    | some s =>
      obtain ⟨reply, w₁, rfl, rfl, course⟩ := of_getVia found answered
      exact On.other keeps growing found course own quiet on

theorem get_keeps (fails : conduct.FailsFirst t.binding.provider t.failures t.fault)
    (depth : Nat) : t.Keeps (get conduct depth) := by
  have both : t.Keeps (below conduct (depth + 1)) ∧ Growing (below conduct (depth + 1)) := by
    apply below_induction (Q := fun respond => t.Keeps respond ∧ Growing respond)
    · constructor <;> (intro scope key w answer w' answered; cases answered)
    · intro respond both
      exact ⟨both.1.getVia fails both.2, both.2.getVia⟩
  exact both.1

end Series
end Registrar
