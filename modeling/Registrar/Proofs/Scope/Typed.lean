import Registrar.Proofs.Scope.OneInstance
import Registrar.Proofs.Scope.Retries

/-!
# Lookups of types

A lookup of a type is the plain lookup of the key that the type is, and then a look at the instance
that was found. Nothing is undone when the instance turns out to have another type: it stays where
the plain lookup has put it, and is found there again, and refused again, until it is taken out.
-/

namespace Registrar

open History

namespace World

section Plain

variable {H P V : Type}

/-- What a lookup of a type makes of what a plain lookup comes to. -/
def Outcome.narrow [HasType V] (type : TypeKey) : Outcome P V → Outcome P V
  | .reply (.ok x) =>
    if HasType.typeOf x.value = type then .reply (.ok x)
    else .reply (.error (.typeMismatch type.full type.full))
  | outcome => outcome

namespace Step

/-- The step without its interest in a type. -/
def plain : Step H TypeKey P → Step H TypeKey P
  | .createAs registry key _ => .create registry key
  | .getAs scope key _ => .get scope key
  | s => s

def type? : Step H TypeKey P → Option TypeKey
  | .createAs _ _ type | .getAs _ _ type => some type
  | _ => none

/-- A lookup of a type asks for the type as a key. -/
def Proper : Step H TypeKey P → Prop
  | .createAs _ key type | .getAs _ key type => key = type
  | _ => True

def narrow [HasType V] (s : Step H TypeKey P) (outcome : Outcome P V) : Outcome P V :=
  match s.type? with
  | some type => outcome.narrow type
  | none => outcome

end Step

variable [HasType V]

theorem reply_narrowReply (type : TypeKey) (reply : Reply P V) :
    Outcome.reply (narrowReply type type reply) = (Outcome.reply reply).narrow type := by
  cases reply with
  | error fault => rfl
  | ok x =>
    rw [narrowReply, Registrar.narrow, Outcome.narrow]
    split <;> rfl

theorem ofReply_narrowReply (type : TypeKey) (reply : Option (Reply P V)) :
    Outcome.ofReply (reply.map (narrowReply type type)) = (Outcome.ofReply reply).narrow type := by
  cases reply with
  | none => rfl
  | some reply => exact reply_narrowReply type reply

theorem Outcome.typeOf_of_narrow {type : TypeKey} {outcome : Outcome P V} {x : Instance P V}
    (narrowed : outcome.narrow type = .reply (.ok x)) :
    outcome = .reply (.ok x) ∧ HasType.typeOf x.value = type := by
  unfold Outcome.narrow at narrowed
  split at narrowed
  · next y =>
    split at narrowed
    · next fits =>
      cases narrowed
      exact ⟨rfl, fits⟩
    · cases narrowed
  · next other =>
    subst narrowed
    exact absurd rfl (other x)

/-- A mismatch is told of an instance of another type, unless it was there before. -/
theorem Outcome.of_narrow_mismatch {type : TypeKey} {outcome : Outcome P V} {key expected : String}
    (narrowed : outcome.narrow type = .reply (.error (.typeMismatch key expected)))
    (plain : outcome ≠ .reply (.error (.typeMismatch key expected))) :
    key = type.full ∧ expected = type.full ∧
      ∃ x, outcome = .reply (.ok x) ∧ HasType.typeOf x.value ≠ type := by
  unfold Outcome.narrow at narrowed
  split at narrowed
  · next x =>
    split at narrowed
    · cases narrowed
    · next other =>
      cases narrowed
      exact ⟨rfl, rfl, x, rfl, other⟩
  · exact absurd narrowed plain

end Plain

variable {H P V : Type} [DecidableEq H] [DecidableEq P] [HasType V]
variable {conduct : Conduct H TypeKey P V} {w w' : World H TypeKey P V} {depth : Nat}

theorem step_eq_plain {s : Step H TypeKey P} (proper : s.Proper) :
    w.step conduct depth s =
      (w.step conduct depth s.plain).map fun (outcome, w) => (s.narrow outcome, w) := by
  cases s with
  | createAs registry key type =>
    cases proper
    simp only [step, Step.plain, Step.narrow, Step.type?, Option.map_map, Function.comp_def,
      reply_narrowReply]
  | getAs scope key type =>
    cases proper
    simp only [step, Step.plain, Step.narrow, Step.type?, Option.map_map, Function.comp_def,
      ofReply_narrowReply]
  | _ => simp [Step.plain, Step.narrow, Step.type?]

theorem run_eq_plain {steps : List (Step H TypeKey P)} (proper : ∀ s ∈ steps, s.Proper) :
    run conduct depth steps w = (run conduct depth (steps.map Step.plain) w).map
      fun (outcomes, w) => (List.zipWith Step.narrow steps outcomes, w) := by
  induction steps generalizing w with
  | nil => rfl
  | cons s rest ih =>
    rw [List.forall_mem_cons] at proper
    rw [List.map_cons, run, run, step_eq_plain proper.1]
    cases w.step conduct depth s.plain with
    | none => rfl
    | some stepped =>
      obtain ⟨outcome, w₁⟩ := stepped
      simp only [Option.map_some]
      rw [ih proper.2, Option.map_map, Option.map_map]
      rfl

/-- Whatever a lookup of a type is answered with has the type. -/
theorem typeOf_of_step {s : Step H TypeKey P} {type : TypeKey} {x : Instance P V}
    (proper : s.Proper) (typed : s.type? = some type)
    (stepped : w.step conduct depth s = some (.reply (.ok x), w')) :
    HasType.typeOf x.value = type := by
  rw [step_eq_plain proper] at stepped
  obtain ⟨⟨outcome, w₁⟩, -, e⟩ := Option.map_eq_some_iff.1 stepped
  obtain ⟨narrowed, -⟩ := Prod.mk.inj e
  rw [Step.narrow, typed] at narrowed
  exact (Outcome.typeOf_of_narrow narrowed).2

section Requests

variable {K : Type} [DecidableEq K] [Key K] {conduct : Conduct H K P V} {w w' w₀ : World H K P V}

omit [HasType V] in
/-- A request fails with the fault of the registry or of a provider, never with a mismatch. -/
theorem ne_mismatch_of_get {scope : H} {key : K} {fault : Fault}
    (failed : get conduct depth scope key w = some (some (.error fault), w'))
    (name expected : String) : fault ≠ .typeMismatch name expected := by
  rw [get_eq] at failed
  cases found : w.findScope scope with
  | none => simp [getVia, found] at failed
  | some s =>
    obtain ⟨reply, w₁, e, -, course⟩ := of_getVia found failed
    cases e
    cases course with
    | unserved absent unbound =>
      obtain ⟨b, -, served⟩ | unknown | ⟨candidates, ambiguous⟩ := s.registry.binding_cases key
      · rw [unbound] at served
        cases served
      · rw [unbound] at unknown
        cases unknown
        simp [Registry.unknown]
      · rw [unbound] at ambiguous
        cases ambiguous
        simp
    | failed absent bound ran => simp

theorem Runs.history_suffix {trace : List (Step H K P × Outcome P V)}
    (begins : Reachable conduct w₀) (runs : Runs conduct w₀ trace w) :
    w₀.history <:+ w.history := by
  induction runs with
  | refl => exact List.suffix_rfl
  | step runs stepped ih =>
    exact ih.trans ((runs.reachable begins).atRest.history_of_step stepped)
  | disposeIn runs found all disposed ih => exact ih.trans (history_of_disposeIn disposed)

/-- What is left for requests to do after one was answered with an instance, as long as nothing
takes the instance out: a request in the meantime has had the same answer at once, and so has the
next one. -/
theorem answered_alike {newer older : List (Happening H K P V)} {scope : H} {key : K}
    {x : Instance P V} (reachable : Reachable conduct w)
    (history : w.history = newer ++ .answered scope key (.ok x) :: older) :
    (∀ later between, newer = later ++ .asked scope key :: between →
      (∀ h ∈ between, h.takes (scope, key) = false) →
        ∃ latest, later = latest ++ [.answered scope key (.ok x)]) ∧
    ((∀ h ∈ newer, h.takes (scope, key) = false) →
      w.held? (scope, key) = some x ∧ ∀ depth, get conduct depth scope key w = some (some (.ok x),
        (w.record (.asked scope key)).record (.answered scope key (.ok x)))) := by
  have rest : AtRest conduct w := reachable.atRest
  have lawful := rest.lawful
  constructor
  · rintro later between rfl untaken
    have unasked := rest.unasked
    rw [history, List.append_assoc, List.cons_append] at lawful unasked
    exact answered_at_once lawful unasked (mem_stock_of_answered lawful.of_append.tail untaken)
  · intro untaken
    have stocked : ((scope, key), x) ∈ stock w.history := by
      rw [history] at lawful ⊢
      exact mem_stock_of_answered lawful untaken
    obtain ⟨s, found, cached⟩ := rest.toSound.mem_stock_iff.1 stocked
    exact ⟨(held?_of_found found key).trans cached, get_of_cached found cached⟩

end Requests

variable {scope : H} {type : TypeKey}

/-- A mismatch leaves behind the instance that has the other type, as the answer to the request. -/
theorem of_getAs_mismatch {key expected : String}
    (mismatched : w.step conduct depth (.getAs scope type type) =
      some (.reply (.error (.typeMismatch key expected)), w')) :
    key = type.full ∧ expected = type.full ∧ ∃ x older, HasType.typeOf x.value ≠ type ∧
      w.step conduct depth (.get scope type) = some (.reply (.ok x), w') ∧
      w'.history = .answered scope type (.ok x) :: older := by
  rw [step_eq_plain (s := .getAs scope type type) rfl] at mismatched
  obtain ⟨⟨outcome, w₁⟩, plain, e⟩ := Option.map_eq_some_iff.1 mismatched
  obtain ⟨narrowed, rfl⟩ := Prod.mk.inj e
  obtain ⟨⟨reply, w₂⟩, got, e⟩ := Option.map_eq_some_iff.1 plain
  cases e
  -- the request itself has no mismatch to tell, so there is an instance behind it
  have other : Outcome.ofReply reply ≠ .reply (.error (.typeMismatch key expected)) := by
    intro same
    rcases reply with _ | fault | x
    · cases same
    · cases same
      exact ne_mismatch_of_get got key expected rfl
    · cases same
  obtain ⟨keyed, asked, x, found, otherType⟩ := Outcome.of_narrow_mismatch narrowed other
  rcases reply with _ | fault | y
  · cases found
  · cases found
  · cases found
    obtain ⟨older, history⟩ := get_answered got
    exact ⟨keyed, asked, x, older, otherType, plain, history⟩

/-- Lookups of types refine plain ones. A lookup of a type does to a world what the plain lookup of
the type as a key does, and so do whole runs in which some lookups are of types. It fails as the
plain one does, and an instance that the plain one finds is handed out if it has the type and
refused otherwise, so that no lookup of a type is answered with an instance of another type. After
such a refusal by a scope, and until something takes the instance out, requests for it that are
made on the way are answered at once, the next lookup of the type is refused again without a call
of a provider, and the next plain one is answered with the instance. -/
theorem typed_lookups_refine_plain_ones (reachable : Reachable conduct w) (type : TypeKey) :
    (∀ depth registry, w.step conduct depth (.createAs registry type type) =
      (w.step conduct depth (.create registry type)).map fun (outcome, w') =>
        (outcome.narrow type, w')) ∧
    (∀ depth scope, w.step conduct depth (.getAs scope type type) =
      (w.step conduct depth (.get scope type)).map fun (outcome, w') =>
        (outcome.narrow type, w')) ∧
    (∀ depth (steps : List (Step H TypeKey P)), (∀ s ∈ steps, s.Proper) →
      run conduct depth steps w = (run conduct depth (steps.map Step.plain) w).map
        fun (outcomes, w') => (List.zipWith Step.narrow steps outcomes, w')) ∧
    (∀ trace w', Runs conduct w trace w' → ∀ s x, (s, .reply (.ok x)) ∈ trace → s.Proper →
      s.type? = some type → HasType.typeOf x.value = type) ∧
    ∀ depth scope key expected w₁, w.step conduct depth (.getAs scope type type) =
        some (.reply (.error (.typeMismatch key expected)), w₁) →
      key = type.full ∧ expected = type.full ∧ ∃ x, HasType.typeOf x.value ≠ type ∧
        w₁.held? (scope, type) = some x ∧ ∀ trace w₂, Runs conduct w₁ trace w₂ →
          ∃ newer, w₂.history = newer ++ w₁.history ∧
            (∀ later between, newer = later ++ .asked scope type :: between →
              (∀ h ∈ between, h.takes (scope, type) = false) →
                ∃ latest, later = latest ++ [.answered scope type (.ok x)]) ∧
            ((∀ h ∈ newer, h.takes (scope, type) = false) →
              let answered := (w₂.record (.asked scope type)).record (.answered scope type (.ok x))
              w₂.held? (scope, type) = some x ∧ ∀ depth',
                w₂.step conduct depth' (.get scope type) = some (.reply (.ok x), answered) ∧
                w₂.step conduct depth' (.getAs scope type type) =
                  some (.reply (.error (.typeMismatch type.full type.full)), answered)) := by
  refine ⟨fun depth registry => step_eq_plain rfl, fun depth scope => step_eq_plain rfl,
    fun depth steps => run_eq_plain, ?_, ?_⟩
  · intro trace w' runs s x mem proper typed
    induction runs with
    | refl => cases mem
    | step _ stepped ih =>
      rcases List.mem_cons.1 mem with e | mem
      · obtain ⟨rfl, rfl⟩ := Prod.mk.inj e
        exact typeOf_of_step proper typed stepped
      · exact ih mem
    | disposeIn _ _ _ _ ih =>
      rcases List.mem_cons.1 mem with e | mem
      · cases e
      · exact ih mem
  · intro depth scope key expected w₁ mismatched
    have reachable₁ : Reachable conduct w₁ := reachable.step mismatched
    obtain ⟨keyed, asked, x, older, otherType, -, history⟩ := of_getAs_mismatch mismatched
    have history₁ : w₁.history = [] ++ .answered scope type (.ok x) :: older := history
    have held : w₁.held? (scope, type) = some x :=
      ((answered_alike reachable₁ history₁).2 (by simp)).1
    refine ⟨keyed, asked, x, otherType, held, ?_⟩
    intro trace w₂ runs
    obtain ⟨newer, grown⟩ := runs.history_suffix reachable₁
    have history₂ : w₂.history = newer ++ .answered scope type (.ok x) :: older := by
      rw [← grown, history]
    obtain ⟨onTheWay, next⟩ := answered_alike (runs.reachable reachable₁) history₂
    refine ⟨newer, grown.symm, onTheWay, ?_⟩
    intro untaken answered
    obtain ⟨still, again⟩ := next untaken
    have plain (depth' : Nat) :
        w₂.step conduct depth' (.get scope type) = some (.reply (.ok x), answered) := by
      rw [step, again]
      rfl
    refine ⟨still, fun depth' => ⟨plain depth', ?_⟩⟩
    rw [step_eq_plain (s := .getAs scope type type) rfl, Step.plain, plain]
    simp [Step.narrow, Step.type?, Outcome.narrow, otherType]

def detailKey : TypeKey := ⟨⟨"Detail"⟩, 0⟩

def baseKey : TypeKey := ⟨⟨"Base"⟩, 1⟩

/-- The only binding stands in for a more general type. -/
def standIn : Catalogue Nat TypeKey := [.recipe ⟨⟨"detail", detailKey⟩, none, 0, none, none⟩]

def standInOpened : World Nat TypeKey Supplier Item :=
  empty.openScope 0 none (.ofSteps [.registerServing detailKey [baseKey] ⟨0, none⟩])

theorem standIn_mismatch :
    (standInOpened.step standIn.conduct 1 (.getAs 0 baseKey baseKey)).map (·.1) =
      some (.reply (.error (.typeMismatch "Base" "Base"))) := by
  cbv

/-- What stands in for a type is refused as the type again and again, and found as a key. -/
theorem standIn_refused : Reachable standIn.conduct standInOpened ∧ ∃ w₁ x,
    standInOpened.step standIn.conduct 1 (.getAs 0 baseKey baseKey) =
        some (.reply (.error (.typeMismatch "Base" "Base")), w₁) ∧
      HasType.typeOf x.value ≠ baseKey ∧ ∃ w₂, ∀ depth,
        w₁.step standIn.conduct depth (.get 0 baseKey) = some (.reply (.ok x), w₂) ∧
        w₁.step standIn.conduct depth (.getAs 0 baseKey baseKey) =
          some (.reply (.error (.typeMismatch "Base" "Base")), w₂) := by
  have opened : empty.step standIn.conduct 0 (.openScope 0 none
      (.ofSteps [.registerServing detailKey [baseKey] ⟨0, none⟩])) =
        some (.done, standInOpened) := rfl
  have reachable : Reachable standIn.conduct standInOpened := Reachable.empty.step opened
  obtain ⟨⟨outcome, w₁⟩, mismatched, e⟩ := Option.map_eq_some_iff.1 standIn_mismatch
  cases e
  obtain ⟨-, -, -, -, refused⟩ := typed_lookups_refine_plain_ones reachable baseKey
  obtain ⟨-, -, x, otherType, -, later⟩ := refused 1 0 _ _ w₁ mismatched
  obtain ⟨newer, grown, -, next⟩ := later [] w₁ .refl
  have none : newer = [] := by simpa using grown
  obtain ⟨-, again⟩ := next (by simp [none])
  exact ⟨reachable, w₁, x, mismatched, otherType, _, again⟩

end World
end Registrar
