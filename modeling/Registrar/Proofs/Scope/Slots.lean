import Registrar.Proofs.Scope.History
import Registrar.Proofs.Table

/-!
# What the caches of a world hold

The slots of a world are the entries of all its caches, each with its scope. An operation replaces
one scope, so each lemma splits the slots into those of that scope and those elsewhere.
-/

namespace Registrar

variable {H K P V : Type}

def Scope.slotsAt (scope : H) (s : Scope K P V) : List (Slot H K P V) :=
  s.cache.entries.map fun entry => ((scope, entry.1), entry.2)

namespace Scope

theorem map_snd_slotsAt (scope : H) (s : Scope K P V) :
    (s.slotsAt scope).map Prod.snd = s.cache.values := by
  simp [slotsAt, Table.values]

theorem scope_eq_of_mem_slotsAt {scope : H} {s : Scope K P V} {slot : Slot H K P V}
    (mem : slot ∈ s.slotsAt scope) : slot.1.1 = scope := by
  obtain ⟨_, _, rfl⟩ := List.mem_map.1 mem
  rfl

end Scope

namespace World

def slots (w : World H K P V) : List (Slot H K P V) :=
  w.scopes.entries.flatMap fun entry => entry.2.slotsAt entry.1

variable [DecidableEq H]

def elsewhere (w : World H K P V) (scope : H) : List (Slot H K P V) :=
  w.slots.filter fun slot => !decide (slot.1.1 = scope)

theorem ne_of_mem_elsewhere {w : World H K P V} {scope : H} {slot : Slot H K P V}
    (mem : slot ∈ w.elsewhere scope) (key : K) : slot.1 ≠ (scope, key) := by
  intro same
  have away : slot.1.1 ≠ scope := by simpa using (List.mem_filter.1 mem).2
  exact away (congrArg Prod.fst same)

theorem elsewhere_eq (w : World H K P V) (scope : H) :
    w.elsewhere scope =
      (w.scopes.entries.filter (·.1 ≠ scope)).flatMap fun entry => entry.2.slotsAt entry.1 := by
  unfold elsewhere slots
  induction w.scopes.entries with
  | nil => rfl
  | cons entry rest ih =>
    rw [List.flatMap_cons, List.filter_append, ih]
    by_cases here : entry.1 = scope
    · have gone :
          (entry.2.slotsAt entry.1).filter (fun slot => !decide (slot.1.1 = scope)) = [] := by
        rw [List.filter_eq_nil_iff]
        intro slot mem
        simp [Scope.scope_eq_of_mem_slotsAt mem, here]
      rw [gone, List.nil_append, List.filter_cons_of_neg (by simpa using here)]
    · have kept : (entry.2.slotsAt entry.1).filter (fun slot => !decide (slot.1.1 = scope)) =
          entry.2.slotsAt entry.1 := by
        rw [List.filter_eq_self]
        intro slot mem
        simp [Scope.scope_eq_of_mem_slotsAt mem, here]
      rw [kept, List.filter_cons_of_pos (by simpa using here), List.flatMap_cons]

theorem slots_perm_of_find? {w : World H K P V} {scope : H} {s : Scope K P V}
    (found : w.findScope scope = some s) : w.slots.Perm (s.slotsAt scope ++ w.elsewhere scope) := by
  rw [elsewhere_eq]
  exact (Table.entries_perm_of_find? found).flatMap_right _

theorem slots_eq_elsewhere {w : World H K P V} {scope : H} (closed : w.findScope scope = none) :
    w.slots = w.elsewhere scope := by
  rw [elsewhere_eq, Table.filter_entries_of_find?_eq_none closed, slots]

theorem slots_insert_perm (w : World H K P V) (scope : H) (s : Scope K P V) :
    ({ w with scopes := w.scopes.insert scope s }.slots).Perm
      (s.slotsAt scope ++ w.elsewhere scope) := by
  rw [elsewhere_eq]
  exact (Table.entries_insert_perm w.scopes scope s).flatMap_right _

/-- The slots of one scope among all slots. -/
theorem slotsAt_perm {w : World H K P V} {scope : H} {s : Scope K P V}
    (found : w.findScope scope = some s) :
    (s.slotsAt scope).Perm (w.slots.filter fun slot => slot.1.1 = scope) := by
  have here : (s.slotsAt scope).filter (fun slot => slot.1.1 = scope) = s.slotsAt scope := by
    rw [List.filter_eq_self]
    intro slot mem
    simp [Scope.scope_eq_of_mem_slotsAt mem]
  have away : (w.elsewhere scope).filter (fun slot => slot.1.1 = scope) = [] := by
    simp [elsewhere]
  have split := (slots_perm_of_find? found).filter fun slot => slot.1.1 = scope
  rw [List.filter_append, here, away, List.append_nil] at split
  exact split.symm

theorem slots_emptied_perm (w : World H K P V) (scope : H) (s : Scope K P V)
    (vacant : s.cache = .empty) :
    ({ w with scopes := w.scopes.insert scope s }.slots).Perm (w.elsewhere scope) := by
  have none : s.slotsAt scope = [] := by simp [Scope.slotsAt, vacant]
  have split := slots_insert_perm w scope s
  rwa [none, List.nil_append] at split

theorem values_perm {w : World H K P V} {scope : H} {s : Scope K P V}
    (found : w.findScope scope = some s) :
    s.cache.values.Perm ((w.slots.filter fun slot => slot.1.1 = scope).map Prod.snd) := by
  rw [← Scope.map_snd_slotsAt scope s]
  exact (slotsAt_perm found).map _

variable [DecidableEq K]

theorem mem_slots_iff {w : World H K P V} {scope : H} {key : K} {x : Instance P V} :
    ((scope, key), x) ∈ w.slots ↔
      ∃ s, w.findScope scope = some s ∧ s.cache.find? key = some x := by
  simp only [slots, Scope.slotsAt, List.mem_flatMap, List.mem_map, Prod.mk.injEq]
  constructor
  · rintro ⟨⟨_, s⟩, mem, ⟨_, _⟩, cached, ⟨rfl, rfl⟩, rfl⟩
    exact ⟨s, Table.mem_entries_iff.1 mem, Table.mem_entries_iff.1 cached⟩
  · rintro ⟨s, found, cached⟩
    exact ⟨(scope, s), Table.mem_entries_iff.2 found, (key, x), Table.mem_entries_iff.2 cached,
      ⟨rfl, rfl⟩, rfl⟩

theorem slots_store_perm {w : World H K P V} {scope : H} {s : Scope K P V} {key : K}
    (found : w.findScope scope = some s) (vacant : s.cache.find? key = none) (x : Instance P V) :
    (w.setCache scope s (s.cache.insert key x)).slots.Perm (((scope, key), x) :: w.slots) := by
  have cached : (s.cache.insert key x).entries.Perm ((key, x) :: s.cache.entries) :=
    Table.entries_insert_perm_of_absent vacant x
  calc (w.setCache scope s (s.cache.insert key x)).slots
      |>.Perm (({ s with cache := s.cache.insert key x } : Scope K P V).slotsAt scope ++
          w.elsewhere scope) := slots_insert_perm w scope _
    _ |>.Perm (((scope, key), x) :: s.slotsAt scope ++ w.elsewhere scope) :=
        (cached.map _).append_right _
    _ |>.Perm (((scope, key), x) :: w.slots) := (slots_perm_of_find? found).symm.cons _

theorem slots_erase_perm {w : World H K P V} {scope : H} {s : Scope K P V}
    (found : w.findScope scope = some s) (key : K) :
    (w.setCache scope s (s.cache.erase key)).slots.Perm
      (w.slots.filter fun slot => !decide (slot.1 = (scope, key))) := by
  have cached : (({ s with cache := s.cache.erase key } : Scope K P V).slotsAt scope) =
      (s.slotsAt scope).filter fun slot => !decide (slot.1 = (scope, key)) := by
    simp [Scope.slotsAt, Table.erase, List.filter_map, Function.comp_def]
  have away : (w.elsewhere scope).filter (fun slot => !decide (slot.1 = (scope, key))) =
      w.elsewhere scope := by
    rw [List.filter_eq_self]
    intro slot mem
    simpa using ne_of_mem_elsewhere mem key
  have split := (slots_perm_of_find? found).filter fun slot => !decide (slot.1 = (scope, key))
  rw [List.filter_append, away, ← cached] at split
  exact (slots_insert_perm w scope _).trans split.symm

theorem slots_at_place {w : World H K P V} {scope : H} {s : Scope K P V} {key : K}
    {x : Instance P V} (found : w.findScope scope = some s) (cached : s.cache.find? key = some x) :
    ((w.slots.filter fun slot => slot.1 = (scope, key)).map Prod.snd).Perm [x] := by
  have away : (w.elsewhere scope).filter (fun slot => slot.1 = (scope, key)) = [] := by
    rw [List.filter_eq_nil_iff]
    intro slot mem
    simpa using ne_of_mem_elsewhere mem key
  have here : (s.slotsAt scope).Perm (((scope, key), x) ::
      (s.cache.entries.filter (·.1 ≠ key)).map fun entry => ((scope, entry.1), entry.2)) :=
    (Table.entries_perm_of_find? cached).map _
  have split := ((slots_perm_of_find? found).trans (here.append_right _)).filter
    fun slot => slot.1 = (scope, key)
  rw [List.filter_append, away, List.append_nil, List.filter_cons_of_pos (by simp)] at split
  have rest : ((s.cache.entries.filter (·.1 ≠ key)).map fun entry =>
      (((scope, entry.1), entry.2) : Slot H K P V)).filter (fun slot => slot.1 = (scope, key)) =
        [] := by
    simp [List.filter_map, Function.comp_def]
  rw [rest] at split
  exact split.map Prod.snd

end World
end Registrar
