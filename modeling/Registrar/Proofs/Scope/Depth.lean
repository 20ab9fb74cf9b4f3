import Registrar.Proofs.Scope.Disposal
import Registrar.Proofs.Scope.Course

/-!
# Depths

The depth only bounds how deeply requests may nest. Where something has an outcome at one depth, it
has the same outcome at every greater one.
-/

namespace Registrar
namespace World

variable {H K P V α : Type}

/-- Where the one has an outcome, the other has the same. -/
def Refines (respond respond' : Responder H K P V) : Prop :=
  ∀ ⦃scope key w result⦄, respond scope key w = some result → respond' scope key w = some result

namespace Refines

variable {conduct : Conduct H K P V} {respond respond' : Responder H K P V} {w : World H K P V}

theorem refl (respond : Responder H K P V) : Refines respond respond := fun _ _ _ _ => id

theorem trans {respond'' : Responder H K P V} (first : Refines respond respond')
    (second : Refines respond' respond'') : Refines respond respond'' :=
  fun _ _ _ _ answered => second (first answered)

theorem carryOut (refines : Refines respond respond') {errand : Errand H K (Reply P V) α}
    {result : α × World H K P V} (ran : World.carryOut respond errand w = some result) :
    World.carryOut respond' errand w = some result := by
  induction errand generalizing w with
  | done value => exact ran
  | report event next ih => exact ih ran
  | request scope key next ih =>
    rw [World.carryOut] at ran ⊢
    cases answered : respond scope key w with
    | none => simp [answered] at ran
    | some reply =>
      rw [answered] at ran
      rw [refines answered]
      exact ih _ ran

theorem notifyAll (refines : Refines respond respond') {held : List (Instance P V)}
    {w' : World H K P V} (told : World.notifyAll conduct respond held w = some w') :
    World.notifyAll conduct respond' held w = some w' := by
  induction held generalizing w with
  | nil => exact told
  | cons x rest ih =>
    unfold World.notifyAll at told ⊢
    dsimp only at told ⊢
    split at told
    · cases told
    · next ran =>
      rw [refines.carryOut ran]
      exact ih told

variable [DecidableEq P]

theorem call (refines : Refines respond respond') {purpose : Option (H × K)} {maker : P}
    {result : Reply P V × World H K P V}
    (called : World.call conduct respond purpose maker w = some result) :
    World.call conduct respond' purpose maker w = some result := by
  unfold World.call at called ⊢
  dsimp only at called ⊢
  cases ran : World.carryOut respond (conduct.produce maker (w.callsOf maker + 1))
      (w.record (.called maker (w.callsOf maker + 1))) with
  | none => simp [ran] at called
  | some done =>
    rw [ran] at called
    rw [refines.carryOut ran]
    exact called

variable [DecidableEq K] [Key K]

theorem createFrom (refines : Refines respond respond') {purpose : Option (H × K)}
    {registry : Registry K P} {key : K} {result : Reply P V × World H K P V}
    (created : World.createFrom conduct respond purpose registry key w = some result) :
    World.createFrom conduct respond' purpose registry key w = some result := by
  unfold World.createFrom at created ⊢
  split at created
  · exact created
  · obtain ⟨answer, called, e⟩ := Option.map_eq_some_iff.1 created
    exact Option.map_eq_some_iff.2 ⟨answer, refines.call called, e⟩

variable [DecidableEq H]

theorem getVia (refines : Refines respond respond') :
    Refines (World.getVia conduct respond) (World.getVia conduct respond') := by
  rintro scope key w ⟨answer, w'⟩ answered
  cases found : w.findScope scope with
  | none => simpa [World.getVia, found] using answered
  | some s =>
    obtain ⟨reply, w₁, rfl, rfl, course⟩ := of_getVia found answered
    apply Course.getVia found
    cases course with
    | found cached => exact .found cached
    | unserved absent unbound => exact .unserved absent unbound
    | failed absent bound ran => exact .failed absent bound (refines.carryOut ran)
    | made absent bound ran brought stored =>
      exact .made absent bound (refines.carryOut ran) brought stored

end Refines

variable [DecidableEq H] [DecidableEq K] [DecidableEq P] [Key K]
variable {conduct : Conduct H K P V} {w : World H K P V} {depth depth' : Nat}

theorem below_refines (conduct : Conduct H K P V) (depth : Nat) :
    Refines (below conduct depth) (below conduct (depth + 1)) := by
  induction depth with
  | zero =>
    intro scope key w result answered
    cases answered
  | succ depth ih =>
    rw [below, below, get_eq, get_eq]
    exact ih.getVia

theorem get_refines (conduct : Conduct H K P V) (deeper : depth ≤ depth') :
    Refines (get conduct depth) (get conduct depth') := by
  induction deeper with
  | refl => exact .refl _
  | @step deep _ ih => exact ih.trans (below_refines conduct (deep + 1))

theorem disposeIn_of_le {scope : H} {s : Scope K P V} {order : List (Instance P V)}
    {result : List (Instance P V) × World H K P V} (deeper : depth ≤ depth')
    (disposed : w.disposeIn conduct depth scope s order = some result) :
    w.disposeIn conduct depth' scope s order = some result := by
  obtain ⟨w₁, told, e⟩ := Option.map_eq_some_iff.1 disposed
  exact Option.map_eq_some_iff.2 ⟨w₁, (get_refines conduct deeper).notifyAll told, e⟩

variable [HasType V]

theorem step_of_le {s : Step H K P} {result : Outcome P V × World H K P V}
    (deeper : depth ≤ depth') (stepped : w.step conduct depth s = some result) :
    w.step conduct depth' s = some result := by
  have refines := get_refines conduct deeper
  cases s with
  | call maker =>
    obtain ⟨answer, called, e⟩ := Option.map_eq_some_iff.1 stepped
    exact Option.map_eq_some_iff.2 ⟨answer, refines.call called, e⟩
  | create registry key =>
    obtain ⟨answer, created, e⟩ := Option.map_eq_some_iff.1 stepped
    exact Option.map_eq_some_iff.2 ⟨answer, refines.createFrom created, e⟩
  | createAs registry key type =>
    obtain ⟨answer, created, e⟩ := Option.map_eq_some_iff.1 stepped
    exact Option.map_eq_some_iff.2 ⟨answer, refines.createFrom created, e⟩
  | get scope key =>
    obtain ⟨answer, answered, e⟩ := Option.map_eq_some_iff.1 stepped
    exact Option.map_eq_some_iff.2 ⟨answer, refines answered, e⟩
  | getAs scope key type =>
    obtain ⟨answer, answered, e⟩ := Option.map_eq_some_iff.1 stepped
    exact Option.map_eq_some_iff.2 ⟨answer, refines answered, e⟩
  | dispose scope =>
    obtain ⟨answer, disposed, e⟩ := Option.map_eq_some_iff.1 stepped
    refine Option.map_eq_some_iff.2 ⟨answer, ?_, e⟩
    cases found : w.findScope scope with
    | none => simpa [dispose, found] using disposed
    | some s =>
      rw [dispose_eq_disposeIn found] at disposed ⊢
      obtain ⟨told, disposed, e⟩ := Option.map_eq_some_iff.1 disposed
      exact Option.map_eq_some_iff.2 ⟨told, disposeIn_of_le deeper disposed, e⟩
  | _ => exact stepped

theorem run_of_le {steps : List (Step H K P)} {result : List (Outcome P V) × World H K P V}
    (deeper : depth ≤ depth') (ran : run conduct depth steps w = some result) :
    run conduct depth' steps w = some result := by
  induction steps generalizing w result with
  | nil => exact ran
  | cons s rest ih =>
    rw [run] at ran ⊢
    split at ran
    · cases ran
    · next stepped =>
      rw [step_of_le deeper stepped]
      obtain ⟨later, others, e⟩ := Option.map_eq_some_iff.1 ran
      exact Option.map_eq_some_iff.2 ⟨later, ih others, e⟩

end World
end Registrar
