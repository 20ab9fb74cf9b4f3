import Registrar.Proofs.Scope.Conservation
import Registrar.Registry.Step

/-!
# One instance per scope and key

An answer to a request is in stock, where it stays until something takes it out. A request that
finds its place taken is answered at once, so nothing happens between the request and the answer.
-/

namespace Registrar

open History

variable {H K P V : Type} [DecidableEq H] [DecidableEq K]

namespace History

variable {newer between older : List (Happening H K P V)} {scope : H} {key : K} {x y : Instance P V}

/-- What a request was answered with stays in stock. -/
theorem mem_stock_of_answered (lawful : Lawful (between ++ .answered scope key (.ok x) :: older))
    (untaken : ∀ h ∈ between, h.takes (scope, key) = false) :
    ((scope, key), x) ∈ stock (between ++ .answered scope key (.ok x) :: older) := by
  have stocked : ((scope, key), x) ∈ stock older := lawful.of_append.head.fits
  exact mem_stock_append (mem_stock_cons.2 (Or.inr ⟨stocked, rfl⟩)) untaken

/-- The next happening after a request whose place is taken is the answer. -/
theorem answered_at_once (lawful : Lawful (newer ++ .asked scope key :: older))
    (unasked : Unasked (newer ++ .asked scope key :: older))
    (stocked : ((scope, key), x) ∈ stock older) :
    ∃ newest, newer = newest ++ [.answered scope key (.ok x)] := by
  have mem : ((scope, key), x) ∈ stock (.asked scope key :: older) :=
    mem_stock_cons.2 (Or.inr ⟨stocked, rfl⟩)
  rcases List.eq_nil_or_concat newer with rfl | ⟨newest, h, rfl⟩
  · exact absurd mem (unasked scope key rfl x)
  · rw [List.concat_eq_append, List.append_assoc, List.singleton_append] at lawful
    rw [List.concat_eq_append, lawful.of_append.head.answers scope key x rfl mem]
    exact ⟨newest, rfl⟩

end History

namespace World

variable [DecidableEq P] [Key K] {conduct : Conduct H K P V} {w w' : World H K P V}

theorem get_of_cached {scope : H} {key : K} {s : Scope K P V} {x : Instance P V}
    (found : w.findScope scope = some s) (cached : s.cache.find? key = some x) (depth : Nat) :
    get conduct depth scope key w = some (some (.ok x),
      (w.record (.asked scope key)).record (.answered scope key (.ok x))) := by
  cases depth with
  | zero => exact getVia_of_cached found cached
  | succ depth => exact getVia_of_cached found cached

/-- A reply is the newest happening when a request is done. -/
theorem get_answered {depth : Nat} {scope : H} {key : K} {reply : Reply P V}
    (answered : get conduct depth scope key w = some (some reply, w')) :
    ∃ older, w'.history = .answered scope key reply :: older := by
  have via {respond : Responder H K P V}
      (answered : getVia conduct respond scope key w = some (some reply, w')) :
      ∃ older, w'.history = .answered scope key reply :: older := by
    unfold getVia at answered
    split at answered
    · cases answered
    · obtain ⟨⟨reply₁, w₁⟩, -, e⟩ := Option.map_eq_some_iff.1 answered
      cases e
      exact ⟨w₁.history, rfl⟩
  cases depth with
  | zero => exact via answered
  | succ depth => exact via answered

variable [HasType V]

end World

end Registrar
