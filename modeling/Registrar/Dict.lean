/-!
# Finite maps in order of their text keys

The entries of a dictionary are strictly ascending by key, so two dictionaries with the same
content are equal.
-/

namespace Registrar

structure Dict (β : Type) where
  entries : List (String × β)
  ascending : (entries.map Prod.fst).Pairwise (· < ·)
deriving DecidableEq

namespace Dict

variable {β γ : Type}

def empty : Dict β := ⟨[], .nil⟩

instance : Inhabited (Dict β) := ⟨empty⟩

def keys (d : Dict β) : List String := d.entries.map Prod.fst

def size (d : Dict β) : Nat := d.entries.length

def isEmpty (d : Dict β) : Bool := d.entries.isEmpty

/-- Writes `b` at the key `k`, before the first greater key. -/
def put (k : String) (b : β) : List (String × β) → List (String × β)
  | [] => [(k, b)]
  | (x, y) :: rest =>
    if k < x then (k, b) :: (x, y) :: rest
    else if x < k then (x, y) :: put k b rest
    else (k, b) :: rest

theorem mem_keys_put {k : String} {b : β} {l : List (String × β)} {z : String}
    (h : z ∈ (put k b l).map Prod.fst) : z = k ∨ z ∈ l.map Prod.fst := by
  induction l with
  | nil => simpa [put] using h
  | cons p rest ih =>
    obtain ⟨x, y⟩ := p
    unfold put at h
    split at h
    · simpa using h
    · split at h
      · rw [List.map_cons, List.mem_cons] at h
        rcases h with h | h
        · exact .inr (by simp [h])
        · exact (ih h).imp id (by simp +contextual)
      · rw [List.map_cons, List.mem_cons] at h
        exact h.imp id (by simp +contextual)

theorem ascending_put {l : List (String × β)} (h : (l.map Prod.fst).Pairwise (· < ·))
    (k : String) (b : β) : ((put k b l).map Prod.fst).Pairwise (· < ·) := by
  induction l with
  | nil => simp [put]
  | cons p rest ih =>
    obtain ⟨x, y⟩ := p
    rw [List.map_cons, List.pairwise_cons] at h
    unfold put
    split
    · next lt =>
      rw [List.map_cons, List.pairwise_cons]
      refine ⟨fun z hz => ?_, List.pairwise_cons.2 h⟩
      rw [List.map_cons, List.mem_cons] at hz
      rcases hz with rfl | hz
      · exact lt
      · exact String.lt_trans lt (h.1 z hz)
    · next notLt =>
      split
      · next gt =>
        rw [List.map_cons, List.pairwise_cons]
        refine ⟨fun z hz => ?_, ih h.2⟩
        rcases mem_keys_put hz with rfl | hz
        · exact gt
        · exact h.1 z hz
      · next notGt =>
        have same : x = k := String.le_antisymm notLt notGt
        subst same
        exact List.pairwise_cons.2 h

def insert (d : Dict β) (k : String) (b : β) : Dict β := ⟨put k b d.entries, ascending_put d.ascending k b⟩

def find? (d : Dict β) (k : String) : Option β := d.entries.lookup k

def ofList (l : List (String × β)) : Dict β := l.foldl (fun d e => d.insert e.1 e.2) empty

end Dict

end Registrar
