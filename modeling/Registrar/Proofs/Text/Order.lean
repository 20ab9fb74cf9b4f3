import Mathlib.Data.List.Perm.Basic
import Registrar.Text.Order

/-!
# Sorted texts

Sorting keeps every text as often as it was there and puts the texts into ascending order.
-/

namespace Registrar.Text

@[simp] theorem atMost_iff {a b : String} : atMost a b = true ↔ a ≤ b := by
  rw [atMost, Bool.not_eq_true', decide_eq_false_iff_not, String.not_lt]

theorem atMost_trans (a b c : String) (hab : atMost a b = true) (hbc : atMost b c = true) :
    atMost a c = true := by
  rw [atMost_iff] at *
  exact String.le_trans hab hbc

theorem atMost_total (a b : String) : (atMost a b || atMost b a) = true := by
  rw [Bool.or_eq_true, atMost_iff, atMost_iff]
  exact String.le_total a b

section Sorting

variable {α : Type} (text : α → String)

theorem sortBy_perm (items : List α) : (sortBy text items).Perm items := List.mergeSort_perm _ _

theorem sortBy_ascending (items : List α) :
    (sortBy text items).Pairwise fun a b => text a ≤ text b := by
  have trans (a b c : α) := atMost_trans (text a) (text b) (text c)
  have total (a b : α) := atMost_total (text a) (text b)
  simpa [sortBy] using List.pairwise_mergeSort trans total items

/-- The texts of sorted items are the sorted texts of the items. -/
theorem map_sortBy (items : List α) : (sortBy text items).map text = sort (items.map text) :=
  List.map_mergeSort fun _ _ _ _ => rfl

end Sorting

theorem sort_perm (items : List String) : (sort items).Perm items := sortBy_perm id items

theorem sort_ascending (items : List String) : (sort items).Pairwise (· ≤ ·) :=
  sortBy_ascending id items

/-- Sorting forgets the order that items come in, as long as no two of them share a text. -/
theorem sortBy_eq_of_perm {α : Type} {text : α → String} {items others : List α}
    (distinct : ∀ a ∈ items, ∀ b ∈ items, text a = text b → a = b) (same : items.Perm others) :
    sortBy text items = sortBy text others := by
  apply List.Perm.eq_of_pairwise _ (sortBy_ascending text items) (sortBy_ascending text others)
  · exact (sortBy_perm text items).trans (same.trans (sortBy_perm text others).symm)
  · intro a b ha hb hab hba
    have ha' : a ∈ items := (sortBy_perm text items).mem_iff.1 ha
    have hb' : b ∈ items := same.mem_iff.2 ((sortBy_perm text others).mem_iff.1 hb)
    exact distinct a ha' b hb' (String.le_antisymm hab hba)

theorem sort_eq_of_perm {items others : List String} (same : items.Perm others) :
    sort items = sort others :=
  sortBy_eq_of_perm (fun _ _ _ _ e => e) same

end Registrar.Text
