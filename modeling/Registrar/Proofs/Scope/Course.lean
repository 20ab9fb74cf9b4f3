import Registrar.Proofs.Scope.Growth

/-!
# The course of a request

A request finds its instance, or finds that its key is not served, or calls a provider, whose errand
ends with a fault or brings an instance that is then stored. Every request takes one of these
courses, and so do the requests that providers make on the way, one level further down.
-/

namespace Registrar
namespace World

variable {H K P V α : Type}

/-- What comes of a call when its errand has a yield. -/
def bring (purpose : Option (H × K)) (maker : P) (number : Nat) (w : World H K P V) :
    Yield P V → Instance P V × World H K P V
  | .known other => (other, w.record (.shared maker number purpose other))
  | .fresh value =>
    let made : Instance P V := ⟨w.produced + 1, maker, value⟩
    (made, { w with produced := w.produced + 1 }.record (.produced number purpose made))

section Bring

variable {w w' : World H K P V} {purpose : Option (H × K)} {maker : P} {number : Nat}
variable {y : Yield P V} {made : Instance P V}

theorem scopes_of_bring (brought : w.bring purpose maker number y = (made, w')) :
    w'.scopes = w.scopes := by
  cases y <;> (cases brought; rfl)

theorem history_of_bring (brought : w.bring purpose maker number y = (made, w')) :
    w.history <:+ w'.history := by
  cases y <;> (cases brought; exact List.suffix_cons _ _)

end Bring

variable [DecidableEq P]

/-- A request has been made and its provider is called. -/
def calling (w : World H K P V) (scope : H) (key : K) (maker : P) : World H K P V :=
  (w.record (.asked scope key)).record (.called maker (w.callsOf maker + 1))

theorem callsOf_record (w : World H K P V) (h : Happening H K P V)
    (other : ∀ maker number, h ≠ .called maker number) (maker : P) :
    (w.record h).callsOf maker = w.callsOf maker := by
  cases h with
  | called maker number => exact absurd rfl (other maker number)
  | _ => simp [callsOf, record]

theorem callsOf_called (w : World H K P V) (maker other : P) (number : Nat) :
    (w.record (.called maker number)).callsOf other =
      w.callsOf other + if maker = other then 1 else 0 := by
  simp [callsOf, record, List.countP_cons]

variable [DecidableEq H] [DecidableEq K] [Key K]

/-- The course of a request from the world in which it is made to the one in which it is replied to.
What the provider's errand asks for goes to `respond`. -/
inductive Course (conduct : Conduct H K P V) (respond : Responder H K P V) (scope : H) (key : K)
    (s : Scope K P V) (w : World H K P V) : Reply P V → World H K P V → Prop
  | found {x : Instance P V} (cached : s.cache.find? key = some x) :
      Course conduct respond scope key s w (.ok x) (w.record (.asked scope key))
  | unserved {fault : Fault} (absent : s.cache.find? key = none)
      (unbound : s.registry.binding key = .error fault) :
      Course conduct respond scope key s w (.error fault) (w.record (.asked scope key))
  | failed {b : Binding K P} {fault : Fault} {w' : World H K P V}
      (absent : s.cache.find? key = none) (bound : s.registry.binding key = .ok b)
      (ran : carryOut respond (conduct.produce b.provider (w.callsOf b.provider + 1))
        (w.calling scope key b.provider) = some (.error fault, w')) :
      Course conduct respond scope key s w (.error (.provider (Key.label b.key) fault)) w'
  | made {b : Binding K P} {y : Yield P V} {made kept : Instance P V} {w₁ w₂ w' : World H K P V}
      (absent : s.cache.find? key = none) (bound : s.registry.binding key = .ok b)
      (ran : carryOut respond (conduct.produce b.provider (w.callsOf b.provider + 1))
        (w.calling scope key b.provider) = some (.ok y, w₁))
      (brought : w₁.bring (some (scope, key)) b.provider (w.callsOf b.provider + 1) y = (made, w₂))
      (stored : w₂.store scope key made = (kept, w')) :
      Course conduct respond scope key s w (.ok kept) w'

variable {conduct : Conduct H K P V} {respond : Responder H K P V} {w w' w'' : World H K P V}
variable {scope : H} {key : K} {s : Scope K P V} {reply : Reply P V}

theorem of_getVia {answer : Option (Reply P V)} (found : w.findScope scope = some s)
    (answered : getVia conduct respond scope key w = some (answer, w')) :
    ∃ reply w₁, answer = some reply ∧ w' = w₁.record (.answered scope key reply) ∧
      Course conduct respond scope key s w reply w₁ := by
  have calls := callsOf_record w (.asked scope key) (by simp)
  simp only [getVia, found, fetch, createFrom, call, calls] at answered
  obtain ⟨⟨reply, w₁⟩, fetched, e⟩ := Option.map_eq_some_iff.1 answered
  cases e
  refine ⟨reply, w₁, rfl, rfl, ?_⟩
  cases cached : s.cache.find? key with
  | some x =>
    rw [cached] at fetched
    cases fetched
    exact .found cached
  | none =>
    rw [cached] at fetched
    cases bound : s.registry.binding key with
    | error fault =>
      rw [bound] at fetched
      cases fetched
      exact .unserved cached bound
    | ok b =>
      rw [bound] at fetched
      dsimp only at fetched
      cases ran : carryOut respond (conduct.produce b.provider (w.callsOf b.provider + 1))
          (w.calling scope key b.provider) with
      | none =>
        rw [← calling, ran] at fetched
        cases fetched
      | some done =>
        obtain ⟨result, w₂⟩ := done
        rw [← calling, ran] at fetched
        cases result with
        | error fault =>
          cases fetched
          exact .failed cached bound ran
        | ok y =>
          cases y with
          | known other =>
            cases fetched
            exact .made cached bound ran rfl rfl
          | fresh value =>
            cases fetched
            exact .made cached bound ran rfl rfl

theorem Course.getVia (found : w.findScope scope = some s)
    (course : Course conduct respond scope key s w reply w') :
    getVia conduct respond scope key w =
      some (some reply, w'.record (.answered scope key reply)) := by
  have calls := callsOf_record w (.asked scope key) (by simp)
  simp only [World.getVia, found, fetch, createFrom, call, calls]
  cases course with
  | found cached => simp [cached]
  | unserved absent unbound => simp [absent, unbound]
  | failed absent bound ran =>
    rw [calling] at ran
    simp [absent, bound, ran, Except.mapError]
  | @made b y made kept w₁ w₂ w' absent bound ran brought stored =>
    rw [calling] at ran
    cases y <;> (cases brought; simp [absent, bound, ran, Except.mapError, stored])

/-- Who replies to what the providers of a request ask for. -/
def below (conduct : Conduct H K P V) : Nat → Responder H K P V
  | 0 => fun _ _ _ => none
  | depth + 1 => get conduct depth

theorem get_eq (conduct : Conduct H K P V) (depth : Nat) :
    get conduct depth = World.getVia conduct (below conduct depth) := by
  cases depth <;> rfl

/-- What requests keep if the requests of their providers keep it is kept at every depth. -/
theorem below_induction {Q : Responder H K P V → Prop} (silent : Q fun _ _ _ => none)
    (request : ∀ respond, Q respond → Q (World.getVia conduct respond)) (depth : Nat) :
    Q (below conduct depth) := by
  induction depth with
  | zero => exact silent
  | succ depth ih =>
    rw [below, get_eq]
    exact request _ ih

theorem get_of_closed (closed : w.findScope scope = none) (depth : Nat) :
    get conduct depth scope key w = some (none, w) := by
  simp [get_eq, World.getVia, closed]

theorem Course.grows (growing : Growing respond)
    (course : Course conduct respond scope key s w reply w') : w.Grows w' := by
  have called (maker : P) : w.Grows (w.calling scope key maker) :=
    (Grows.record w (.asked scope key)).trans (Grows.record _ _)
  cases course with
  | found cached => exact .record w _
  | unserved absent unbound => exact .record w _
  | failed absent bound ran => exact (called _).trans (growing.carryOut ran)
  | @made b y made kept w₁ w₂ w' absent bound ran brought stored =>
    have bring : w₁.Grows w₂ := .of_scopes (history_of_bring brought) (scopes_of_bring brought)
    exact ((called _).trans (growing.carryOut ran)).trans (bring.trans (grows_store stored))

theorem Growing.getVia (growing : Growing respond) : Growing (World.getVia conduct respond) := by
  intro scope key w reply w' answered
  cases found : w.findScope scope with
  | none =>
    simp only [World.getVia, found, Option.some.injEq, Prod.mk.injEq] at answered
    exact answered.2 ▸ .refl w
  | some s =>
    obtain ⟨reply, w₁, -, rfl, course⟩ := of_getVia found answered
    exact (course.grows growing).trans (.record w₁ _)

theorem below_growing (conduct : Conduct H K P V) (depth : Nat) :
    Growing (below conduct depth) := by
  apply below_induction
  · intro scope key w reply w' answered
    cases answered
  · intro respond growing
    exact growing.getVia

theorem get_growing (conduct : Conduct H K P V) (depth : Nat) : Growing (get conduct depth) :=
  below_growing conduct (depth + 1)

end World
end Registrar
