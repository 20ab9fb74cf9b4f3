import Registrar.Dict
import Registrar.Proofs.Table

/-!
# Writing into dictionaries

What is written under a key is found there, and nowhere else. A dictionary is built again from its
own entries, one after the other: each of them belongs behind all that are there already.
-/

namespace Registrar.Dict

variable {β : Type}

theorem nodup (d : Dict β) : (d.entries.map Prod.fst).Nodup := by
  refine d.ascending.imp ?_
  rintro x y less rfl
  exact String.lt_irrefl x less

theorem eq_of_entries_eq {d d' : Dict β} (same : d.entries = d'.entries) : d = d' := by
  cases d
  cases d'
  cases same
  rfl

theorem mem_entries_iff {d : Dict β} {k : String} {b : β} :
    (k, b) ∈ d.entries ↔ d.find? k = some b :=
  Table.mem_entries_iff (t := ⟨d.entries, d.nodup⟩)

/-- A dictionary is known from what is found in it. -/
theorem ext_find? {d d' : Dict β} (same : ∀ k, d.find? k = d'.find? k) : d = d' := by
  have less (d : Dict β) : d.entries.Pairwise fun e e' => e.1 < e'.1 :=
    List.pairwise_map.1 d.ascending
  have mem (e : String × β) : e ∈ d.entries ↔ e ∈ d'.entries := by
    obtain ⟨k, b⟩ := e
    rw [mem_entries_iff, mem_entries_iff, same]
  have perm : d.entries.Perm d'.entries :=
    (List.perm_ext_iff_of_nodup (d.nodup.of_map _) (d'.nodup.of_map _)).2 mem
  refine eq_of_entries_eq (perm.eq_of_pairwise ?_ (less d) (less d'))
  exact fun e e' _ _ before after => absurd after (String.lt_asymm before)

theorem mem_put {k : String} {b : β} {l : List (String × β)} {e : String × β}
    (mem : e ∈ put k b l) : e = (k, b) ∨ e ∈ l := by
  induction l with
  | nil => exact .inl (List.mem_singleton.1 mem)
  | cons x rest ih =>
    unfold put at mem
    split at mem
    · exact List.mem_cons.1 mem
    · split at mem
      · rcases List.mem_cons.1 mem with here | later
        · exact .inr (here ▸ List.mem_cons_self)
        · exact (ih later).imp_right (List.mem_cons_of_mem x)
      · exact (List.mem_cons.1 mem).imp_right (List.mem_cons_of_mem x)

theorem lookup_put (k : String) (b : β) (l : List (String × β)) (x : String) :
    (put k b l).lookup x = if x = k then some b else l.lookup x := by
  induction l with
  | nil => rw [put, Pairs.lookup_cons]
  | cons e rest ih =>
    obtain ⟨y, c⟩ := e
    unfold put
    split
    · rw [Pairs.lookup_cons]
    · next notLess =>
      split
      · next greater =>
        rw [Pairs.lookup_cons, Pairs.lookup_cons, ih]
        by_cases here : x = k
        · have other : ¬ x = y := by
            rintro rfl
            exact String.lt_irrefl x (here ▸ greater)
          rw [if_neg other, if_pos here, if_pos here]
        · rw [if_neg here, if_neg here]
      · next notGreater =>
        have same : k = y := (String.le_antisymm notLess notGreater).symm
        rw [Pairs.lookup_cons, Pairs.lookup_cons, ← same]
        by_cases here : x = k
        · rw [if_pos here, if_pos here]
        · rw [if_neg here, if_neg here, if_neg here]

theorem find?_insert (d : Dict β) (k : String) (b : β) (x : String) :
    (d.insert k b).find? x = if x = k then some b else d.find? x :=
  lookup_put k b d.entries x

theorem put_of_greater {k : String} {b : β} {l : List (String × β)}
    (greater : ∀ x ∈ l.map Prod.fst, x < k) : put k b l = l ++ [(k, b)] := by
  induction l with
  | nil => rfl
  | cons e l ih =>
    have less : e.1 < k := greater e.1 (by simp)
    have later := ih fun x mem => greater x (by simp [mem])
    rw [put, if_neg (String.lt_asymm less), if_pos less, later, List.cons_append]

end Registrar.Dict
