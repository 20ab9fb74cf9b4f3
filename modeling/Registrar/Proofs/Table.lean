import Mathlib.Data.List.Perm.Basic
import Mathlib.Data.List.Basic
import Mathlib.Data.List.Nodup
import Registrar.Table

/-!
# Lookup in tables

A table is looked at key by key through `find?`, or as a whole through its entries. Writing a key
puts one entry in the place of all earlier ones under that key, up to the order of entries. What is
looked up in a list of pairs comes from the first pair with that key.
-/

namespace Registrar

namespace Pairs

variable {α β : Type} [BEq α] [LawfulBEq α]

theorem lookup_cons [DecidableEq α] (e : α × β) (l : List (α × β)) (x : α) :
    (e :: l).lookup x = if x = e.1 then some e.2 else l.lookup x := by
  rw [List.lookup_cons]
  by_cases same : x = e.1
  · simp [same]
  · rw [beq_eq_false_iff_ne.2 same, if_neg same]

theorem lookup_eq_none {l : List (α × β)} {x : α} (absent : x ∉ l.map Prod.fst) :
    l.lookup x = none := by
  rw [List.lookup_eq_none_iff]
  intro e mem
  simpa using fun same : x = e.1 => absent (List.mem_map.2 ⟨e, mem, same.symm⟩)

end Pairs

namespace Table

variable {α β : Type}

@[simp] theorem entries_empty : (empty : Table α β).entries = [] := rfl

@[simp] theorem values_empty : (empty : Table α β).values = [] := rfl

theorem entries_nodup (t : Table α β) : t.entries.Nodup := t.nodup.of_map _

variable [DecidableEq α]

@[simp] theorem find?_empty (a : α) : (empty : Table α β).find? a = none := rfl

theorem mem_entries_iff {t : Table α β} {a : α} {b : β} :
    (a, b) ∈ t.entries ↔ t.find? a = some b := by
  obtain ⟨l, nodup⟩ := t
  simp only [find?]
  induction l with
  | nil => simp
  | cons e rest ih =>
    obtain ⟨x, y⟩ := e
    rw [List.map_cons, List.nodup_cons] at nodup
    rw [List.mem_cons]
    by_cases h : a = x
    · subst h
      have absent : (a, b) ∉ rest := fun m => nodup.1 (List.mem_map.2 ⟨_, m, rfl⟩)
      simp [absent, eq_comm]
    · rw [Pairs.lookup_cons, if_neg h, ← ih nodup.2]
      simp [h]

theorem mem_keys_iff {t : Table α β} {a : α} : a ∈ t.keys ↔ ∃ b, t.find? a = some b := by
  simp [keys, mem_entries_iff]

theorem mem_values_iff {t : Table α β} {b : β} : b ∈ t.values ↔ ∃ a, t.find? a = some b := by
  simp [values, mem_entries_iff]

theorem find?_eq_none_iff {t : Table α β} {a : α} : t.find? a = none ↔ a ∉ t.keys := by
  rw [mem_keys_iff]
  cases t.find? a <;> simp

theorem contains_iff {t : Table α β} {a : α} : t.contains a = true ↔ a ∈ t.keys := by
  rw [mem_keys_iff, contains, Option.isSome_iff_exists]

theorem find?_insert (t : Table α β) (a x : α) (b : β) :
    (t.insert a b).find? x = if x = a then some b else t.find? x := by
  obtain ⟨l, nodup⟩ := t
  simp only [find?, insert]
  clear nodup
  induction l with
  | nil =>
    by_cases hx : x = a
    · simp [put, hx]
    · simp [put, hx, Pairs.lookup_cons]
  | cons e rest ih =>
    obtain ⟨y, c⟩ := e
    by_cases hy : y = a
    · subst hy
      by_cases hx : x = y
      · simp [put, hx]
      · simp [put, hx, Pairs.lookup_cons]
    · by_cases hx : x = y
      · subst hx
        simp [put, hy]
      · simp [put, hy, Pairs.lookup_cons, hx, ih]

@[simp] theorem find?_insert_self (t : Table α β) (a : α) (b : β) :
    (t.insert a b).find? a = some b := by
  simp [find?_insert]

theorem find?_insert_of_ne {t : Table α β} {a x : α} {b : β} (h : x ≠ a) :
    (t.insert a b).find? x = t.find? x := by
  simp [find?_insert, h]

theorem find?_of_find?_erase {t : Table α β} {a x : α} {b : β} (h : (t.erase a).find? x = some b) :
    t.find? x = some b := by
  rw [← mem_entries_iff] at h ⊢
  exact (List.mem_filter.1 h).1

theorem find?_erase (t : Table α β) (a x : α) :
    (t.erase a).find? x = if x = a then none else t.find? x := by
  apply Option.ext
  intro b
  rw [← mem_entries_iff, erase, List.mem_filter]
  by_cases h : x = a
  · simp [h]
  · simp [h, mem_entries_iff]

/-- Up to order, writing a key is adding an entry after all entries under the key are gone. -/
theorem entries_insert_perm (t : Table α β) (a : α) (b : β) :
    (t.insert a b).entries.Perm ((a, b) :: t.entries.filter (·.1 ≠ a)) := by
  rw [List.perm_ext_iff_of_nodup (entries_nodup _)]
  · intro ⟨x, y⟩
    by_cases h : x = a
    · subst h
      simp [mem_entries_iff, eq_comm]
    · simp [mem_entries_iff, find?_insert_of_ne h, h]
  · rw [List.nodup_cons]
    exact ⟨by simp, t.entries_nodup.filter _⟩

theorem entries_perm_of_find? {t : Table α β} {a : α} {b : β} (h : t.find? a = some b) :
    t.entries.Perm ((a, b) :: t.entries.filter (·.1 ≠ a)) := by
  rw [List.perm_ext_iff_of_nodup (entries_nodup _)]
  · intro ⟨x, y⟩
    by_cases hx : x = a
    · subst hx
      simp [mem_entries_iff, h, eq_comm]
    · simp [mem_entries_iff, hx]
  · rw [List.nodup_cons]
    exact ⟨by simp, t.entries_nodup.filter _⟩

theorem filter_entries_of_find?_eq_none {t : Table α β} {a : α} (h : t.find? a = none) :
    t.entries.filter (·.1 ≠ a) = t.entries := by
  rw [List.filter_eq_self]
  rintro ⟨x, y⟩ m
  have ne : x ≠ a := by
    rintro rfl
    rw [mem_entries_iff, h] at m
    cases m
  simpa using ne

/-- A lookup does not depend on the order of entries. -/
theorem find?_eq_of_perm {t t' : Table α β} (same : t.entries.Perm t'.entries) (a : α) :
    t.find? a = t'.find? a := by
  apply Option.ext
  intro b
  rw [← mem_entries_iff, ← mem_entries_iff, same.mem_iff]

theorem entries_insert_perm_of_absent {t : Table α β} {a : α} (absent : t.find? a = none) (b : β) :
    (t.insert a b).entries.Perm ((a, b) :: t.entries) := by
  have all := entries_insert_perm t a b
  rwa [filter_entries_of_find?_eq_none absent] at all

end Table
end Registrar
