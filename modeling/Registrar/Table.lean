/-!
# Finite maps in order of insertion

A table holds one entry per key. Writing to a key that is already there changes its value and
leaves its place.
-/

namespace Registrar

structure Table (α β : Type) where
  entries : List (α × β)
  nodup : (entries.map Prod.fst).Nodup

namespace Table

variable {α β γ : Type}

def empty : Table α β := ⟨[], .nil⟩

instance : Inhabited (Table α β) := ⟨empty⟩

def keys (t : Table α β) : List α := t.entries.map Prod.fst

def values (t : Table α β) : List β := t.entries.map Prod.snd

def size (t : Table α β) : Nat := t.entries.length

def isEmpty (t : Table α β) : Bool := t.entries.isEmpty

variable [DecidableEq α]

/-- Writes `b` at the first entry of `a`, or at the end. -/
def put (a : α) (b : β) : List (α × β) → List (α × β)
  | [] => [(a, b)]
  | (x, y) :: rest => if x = a then (x, b) :: rest else (x, y) :: put a b rest

theorem keys_put (a : α) (b : β) (l : List (α × β)) :
    (put a b l).map Prod.fst =
      if a ∈ l.map Prod.fst then l.map Prod.fst else l.map Prod.fst ++ [a] := by
  induction l with
  | nil => simp [put]
  | cons p rest ih =>
    obtain ⟨x, y⟩ := p
    by_cases h : x = a
    · simp [put, h]
    · have h' : ¬ a = x := fun e => h e.symm
      by_cases m : a ∈ rest.map Prod.fst
      · simp only [put, h, if_false, List.map_cons, ih, m, if_true, List.mem_cons, or_true]
      · simp only [put, h, if_false, List.map_cons, ih, m, List.mem_cons, h', or_self,
          List.cons_append]

theorem nodup_put {l : List (α × β)} (h : (l.map Prod.fst).Nodup) (a : α) (b : β) :
    ((put a b l).map Prod.fst).Nodup := by
  rw [keys_put]
  split
  · exact h
  · next m =>
    refine List.nodup_append.2 ⟨h, by simp, ?_⟩
    intro x hx y hy
    rw [List.mem_singleton] at hy
    subst hy
    exact fun e => m (e ▸ hx)

def insert (t : Table α β) (a : α) (b : β) : Table α β := ⟨put a b t.entries, nodup_put t.nodup a b⟩

def find? (t : Table α β) (a : α) : Option β := t.entries.lookup a

def contains (t : Table α β) (a : α) : Bool := (t.find? a).isSome

def erase (t : Table α β) (a : α) : Table α β :=
  ⟨t.entries.filter (·.1 ≠ a), (List.filter_sublist.map _).nodup t.nodup⟩

end Table

end Registrar
