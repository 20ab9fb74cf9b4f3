import Registrar.Proofs.Scope.History

/-!
# Settlements and notices

What calls of providers bring is settled by the requests they serve, in the same order. If no call
brings an instance that is there already, every serial number is settled at most once, and nothing
is confirmed. A disposal tells what it has taken out, and nothing else is told.
-/

namespace Registrar
namespace History

variable {H K P V : Type}
variable {h : Happening H K P V} {history newer older : List (Happening H K P V)}

/-- Every call that succeeded brought an instance of its own. -/
def Fresh (history : List (Happening H K P V)) : Prop :=
  ∀ maker number purpose other, .shared maker number purpose other ∉ history

theorem Fresh.tail (fresh : Fresh (h :: older)) : Fresh older := by
  intro maker number purpose other mem
  exact fresh maker number purpose other (List.mem_cons_of_mem _ mem)

theorem Fresh.of_append (fresh : Fresh (newer ++ older)) : Fresh older := by
  intro maker number purpose other mem
  exact fresh maker number purpose other (List.mem_append_right _ mem)

theorem yields_sublist (fresh : Fresh history) :
    ((history.filterMap (·.yields)).map Prod.snd).Sublist (history.filterMap (·.made?)) := by
  induction history with
  | nil => exact List.Sublist.refl _
  | cons h older ih =>
    have rest := ih fresh.tail
    cases h with
    | produced number purpose made =>
      cases purpose with
      | none => exact rest.cons _
      | some place => exact rest.cons_cons _
    | shared maker number purpose other =>
      exact absurd List.mem_cons_self (fresh maker number purpose other)
    | _ => exact rest

theorem puts_sublist (history : List (Happening H K P V)) :
    (history.flatMap (·.puts)).Sublist (history.filterMap (·.settles)) := by
  induction history with
  | nil => exact List.Sublist.refl _
  | cons h older ih =>
    cases h with
    | stored scope name key made => exact ih.cons_cons _
    | confirmed scope name key made => exact ih.cons _
    | discarded scope name key made => exact ih.cons _
    | _ => exact ih

/-- The disposal that took an instance out is under way. -/
def InDisposal (history : List (Happening H K P V)) (x : Instance P V) : Prop :=
  ∃ during scope held before, history = during ++ .drained scope held :: before ∧ x ∈ held ∧
    ∀ h ∈ during, h.fated .disposed = [] ∧ ∀ s name all, h ≠ .disposed s name all

theorem InDisposal.cons {x : Instance P V} (under : InDisposal older x)
    (quiet : h.fated .disposed = []) (unfinished : ∀ s name all, h ≠ .disposed s name all) :
    InDisposal (h :: older) x := by
  obtain ⟨during, scope, held, before, rfl, hx, since⟩ := under
  exact ⟨h :: during, scope, held, before, rfl, hx,
    List.forall_mem_cons.2 ⟨⟨quiet, unfinished⟩, since⟩⟩

variable [DecidableEq H] [DecidableEq K]

theorem yields_eq (lawful : Lawful history) :
    history.filterMap (·.yields) =
      (pending history).toList ++ history.filterMap (·.settles) := by
  induction lawful with
  | nil => rfl
  | @cons h older allowed _ ih =>
    -- what was pending before is settled by `h`, and what `h` brings is pending now
    have brought : (h :: older).filterMap (·.yields) =
        h.yields.toList ++ older.filterMap (·.yields) := by
      cases e : h.yields <;> simp [e]
    have settled : (h :: older).filterMap (·.settles) =
        h.settles.toList ++ older.filterMap (·.settles) := by
      cases e : h.settles <;> simp [e]
    rw [brought, ih, settled, allowed.settles]
    rfl

theorem made_nodup (lawful : Lawful history) :
    ((history.filterMap (·.made?)).map (·.serial)).Nodup := by
  induction lawful with
  | nil => exact List.nodup_nil
  | @cons h older allowed _ ih =>
    cases h with
    | produced number purpose made =>
      obtain ⟨later, -⟩ := allowed.fits
      change ((made :: older.filterMap (·.made?)).map (·.serial)).Nodup
      rw [List.map_cons, List.nodup_cons]
      refine ⟨?_, ih⟩
      intro mem
      obtain ⟨earlier, hearlier, same⟩ := List.mem_map.1 mem
      have less := later earlier hearlier
      omega
    | _ => exact ih

theorem yields_nodup (lawful : Lawful history) (fresh : Fresh history) :
    ((history.filterMap (·.yields)).map Slot.serial).Nodup := by
  have sub := (yields_sublist fresh).map (·.serial)
  rw [List.map_map] at sub
  exact (made_nodup lawful).sublist sub

theorem settles_nodup (lawful : Lawful history) (fresh : Fresh history) :
    ((history.filterMap (·.settles)).map Slot.serial).Nodup := by
  have all := yields_nodup lawful fresh
  rw [yields_eq lawful, List.map_append] at all
  exact all.of_append_right

theorem mem_settles_of_mem_stock {slot : Slot H K P V} (lawful : Lawful history)
    (mem : slot ∈ stock history) : slot ∈ history.filterMap (·.settles) := by
  induction lawful with
  | nil => exact absurd mem List.not_mem_nil
  | @cons h older _ _ ih =>
    rcases mem_stock_cons.1 mem with put | ⟨kept, -⟩
    · have puts : slot ∈ (h :: older).flatMap (·.puts) :=
        List.mem_flatMap.2 ⟨h, List.mem_cons_self, put⟩
      exact (puts_sublist _).subset puts
    · cases e : h.settles <;> simp [e, ih kept]

/-- What is new cannot be in stock already. -/
theorem not_confirmed (lawful : Lawful history) (fresh : Fresh history) (scope : H)
    (name : String) (key : K) (made : Instance P V) :
    .confirmed scope name key made ∉ history := by
  induction lawful with
  | nil => exact List.not_mem_nil
  | @cons h older allowed rest ih =>
    intro mem
    rcases List.mem_cons.1 mem with rfl | mem
    · obtain ⟨earlier, stocked, same⟩ := allowed.fits
      have once := yields_nodup rest fresh.tail
      rw [yields_eq rest, ← allowed.settles, Happening.settles, Option.toList_some,
        List.singleton_append, List.map_cons, List.nodup_cons] at once
      exact once.1 (List.mem_map.2 ⟨_, mem_settles_of_mem_stock rest stocked, same⟩)
    · exact ih fresh.tail mem

theorem settles_perm (lawful : Lawful history) (fresh : Fresh history) :
    ((history.filterMap (·.settles)).map Prod.snd).Perm
      ((history.flatMap (·.puts)).map Prod.snd ++ history.flatMap (·.fated .discarded)) := by
  have unconfirmed := not_confirmed lawful fresh
  clear lawful
  induction history with
  | nil => exact List.Perm.refl _
  | cons h older ih =>
    have rest := ih fresh.tail fun scope name key made mem =>
      unconfirmed scope name key made (List.mem_cons_of_mem _ mem)
    cases h with
    | stored scope name key made => exact rest.cons _
    | confirmed scope name key made =>
      exact absurd List.mem_cons_self (unconfirmed scope name key made)
    | discarded scope name key made => exact (rest.cons _).trans List.perm_middle.symm
    | _ => exact rest

/-- What a disposal takes out is told, or still waits for it. -/
theorem tells_awaiting_perm (lawful : Lawful history) :
    (history.flatMap (·.tells) ++ awaiting history).Perm (history.flatMap (·.fated .disposed)) := by
  induction lawful with
  | nil => exact List.Perm.refl _
  | @cons h older allowed _ ih =>
    cases h with
    | drained scope held =>
      have none : awaiting older = [] := allowed.fits
      rw [none, List.append_nil] at ih
      exact List.perm_append_comm.trans (ih.append_left held)
    | notified held =>
      have next : (awaiting older).head? = some held := allowed.fits
      obtain ⟨rest, e⟩ := List.head?_eq_some_iff.1 next
      rw [e] at ih
      have moved : ((Happening.notified held :: older).flatMap (·.tells) ++ rest).Perm
          (older.flatMap (·.tells) ++ held :: rest) := List.perm_middle.symm
      have left : awaiting (.notified held :: older) = rest := by
        rw [awaiting, e, List.tail_cons]
      rw [left]
      exact moved.trans ih
    | _ => exact ih

theorem inDisposal_of_awaiting {x : Instance P V} (lawful : Lawful history)
    (mem : x ∈ awaiting history) : InDisposal history x := by
  induction lawful with
  | nil => exact absurd mem List.not_mem_nil
  | @cons h older allowed _ ih =>
    cases h with
    | drained scope held => exact ⟨[], scope, held, older, rfl, mem, by simp⟩
    | notified held => exact (ih (List.mem_of_mem_tail mem)).cons rfl (by simp)
    | disposed scope name held =>
      -- a disposal is not done before everything it took out is told
      have none : awaiting older = [] := allowed.fits
      change x ∈ awaiting older at mem
      rw [none] at mem
      exact absurd mem List.not_mem_nil
    | _ => exact (ih mem).cons rfl (by simp)

end History
end Registrar
