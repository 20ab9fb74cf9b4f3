import Mathlib.Data.List.Perm.Basic
import Mathlib.Data.List.Nodup
import Mathlib.Data.List.Count
import Registrar.Scope.World

/-!
# Histories

What scopes keep can be told from the history alone: an instance stays where it was stored until
something takes it from its place. This file says which histories are lawful, one happening after
the other, and what follows for every lawful history, whatever world it comes from. Histories run
from the newest happening to the oldest.
-/

namespace Registrar

/-- A place in the cache of a scope, and what it holds. -/
abbrev Slot (H K P V : Type) := (H × K) × Instance P V

variable {H K P V : Type}

def Slot.serial (slot : Slot H K P V) : Nat := slot.2.serial

/-- What becomes of an instance that was made for a request. -/
inductive Fate where
  | kept
  | handedBack
  | cleared
  | disposed
  | dropped
  | discarded
deriving DecidableEq

namespace Happening

/-- What goes into a cache. -/
def puts : Happening H K P V → List (Slot H K P V)
  | stored scope _ key made => [((scope, key), made)]
  | _ => []

/-- What a call of a provider brings to the request it serves. -/
def yields : Happening H K P V → Option (Slot H K P V)
  | produced _ purpose made => purpose.map (·, made)
  | shared _ _ purpose other => purpose.map (·, other)
  | _ => none

/-- What a request does with what a call has brought. -/
def settles : Happening H K P V → Option (Slot H K P V)
  | stored scope _ key made | confirmed scope _ key made | discarded scope _ key made =>
    some ((scope, key), made)
  | _ => none

/-- The instances that leave the caches. -/
def leaving : Happening H K P V → List (Instance P V)
  | removed _ _ held => [held]
  | cleared _ _ held | drained _ held | abandoned _ held => held
  | _ => []

def made? : Happening H K P V → Option (Instance P V)
  | produced _ _ made => some made
  | _ => none

def tells : Happening H K P V → List (Instance P V)
  | notified held => [held]
  | _ => []

/-- The instances that meet a fate. -/
def fated : Fate → Happening H K P V → List (Instance P V)
  | .handedBack, removed _ _ held => [held]
  | .cleared, cleared _ _ held => held
  | .disposed, drained _ held => held
  | .dropped, abandoned _ held => held
  | .discarded, discarded _ _ _ made => [made]
  | _, _ => []

theorem mem_puts_iff {h : Happening H K P V} {place : H × K} {x : Instance P V} :
    (place, x) ∈ h.puts ↔ ∃ name, h = .stored place.1 name place.2 x := by
  obtain ⟨scope, key⟩ := place
  cases h with
  | stored s name k made =>
    simp only [puts, List.mem_singleton, Prod.mk.injEq, stored.injEq]
    constructor
    · rintro ⟨⟨rfl, rfl⟩, rfl⟩
      exact ⟨name, rfl, rfl, rfl, rfl⟩
    · rintro ⟨_, rfl, rfl, rfl, rfl⟩
      exact ⟨⟨rfl, rfl⟩, rfl⟩
  | _ => simp [puts]

variable [DecidableEq H] [DecidableEq K]

/-- Whether the instance at a place is taken from it. -/
def takes : Happening H K P V → H × K → Bool
  | removed scope key _, place => place = (scope, key)
  | cleared scope _ _, place | drained scope _, place | abandoned scope _, place => place.1 = scope
  | _, _ => false

end Happening

namespace History

/-- What a call has brought that its request has not settled yet. -/
def pending (history : List (Happening H K P V)) : Option (Slot H K P V) :=
  history.head?.bind (·.yields)

/-- The instances that a disposal still has to tell. -/
def awaiting : List (Happening H K P V) → List (Instance P V)
  | [] => []
  | .drained _ held :: _ => held
  | .notified _ :: older => (awaiting older).tail
  | _ :: older => awaiting older

/-- A request that stores an instance is made and answered among the same happenings. -/
def Whole (newer : List (Happening H K P V)) : Prop :=
  ∀ ⦃scope name key x⦄, .stored scope name key x ∈ newer →
    .asked scope key ∈ newer ∧ .answered scope key (.ok x) ∈ newer

section Whole

variable {newest newer : List (Happening H K P V)} {h : Happening H K P V}

theorem whole_nil : Whole ([] : List (Happening H K P V)) :=
  fun _ _ _ _ stored => absurd stored List.not_mem_nil

theorem Whole.append (later : Whole newest) (first : Whole newer) : Whole (newest ++ newer) := by
  intro scope name key x stored
  rcases List.mem_append.1 stored with stored | stored
  · obtain ⟨asked, answered⟩ := later stored
    exact ⟨List.mem_append_left _ asked, List.mem_append_left _ answered⟩
  · obtain ⟨asked, answered⟩ := first stored
    exact ⟨List.mem_append_right _ asked, List.mem_append_right _ answered⟩

theorem Whole.cons (whole : Whole newer)
    (other : ∀ scope name key x, h ≠ .stored scope name key x) : Whole (h :: newer) := by
  have first : Whole [h] := by
    intro scope name key x stored
    exact absurd (List.mem_singleton.1 stored).symm (other scope name key x)
  exact first.append whole

/-- A request that stores at most what it is answered with. -/
theorem Whole.request {scope : H} {key : K} {x : Instance P V} (whole : Whole newer)
    (stores : ∀ s name k y, h = .stored s name k y → s = scope ∧ k = key ∧ y = x) :
    Whole (.answered scope key (.ok x) :: h :: (newer ++ [.asked scope key])) := by
  have asked : Whole (newer ++ [.asked scope key]) :=
    whole.append (whole_nil.cons (by simp))
  intro s name k y stored
  rcases List.mem_cons.1 stored with e | stored
  · cases e
  · rcases List.mem_cons.1 stored with e | stored
    · obtain ⟨rfl, rfl, rfl⟩ := stores s name k y e.symm
      exact ⟨by simp, by simp⟩
    · obtain ⟨first, last⟩ := asked stored
      exact ⟨List.mem_cons_of_mem _ (List.mem_cons_of_mem _ first),
        List.mem_cons_of_mem _ (List.mem_cons_of_mem _ last)⟩

end Whole

variable [DecidableEq H] [DecidableEq K]

/-- What the caches hold after a history. -/
def stock : List (Happening H K P V) → List (Slot H K P V)
  | [] => []
  | h :: older => h.puts ++ (stock older).filter fun slot => !h.takes slot.1

def Vacant (history : List (Happening H K P V)) (place : H × K) : Prop :=
  ∀ x, (place, x) ∉ stock history

/-- A call of a provider is under way for a request that found its place vacant, and all requests
that were made on the way are done. -/
def Begun (history : List (Happening H K P V)) (maker : P) (number : Nat) (place : H × K) : Prop :=
  ∃ during before,
    history = during ++ .called maker number :: .asked place.1 place.2 :: before ∧
      Whole during ∧ Vacant before place

/-- No request could be answered from the stock at once. -/
def Unasked (history : List (Happening H K P V)) : Prop :=
  ∀ scope key, history.head? = some (.asked scope key) → Vacant history (scope, key)

/-- What a happening presupposes, constructor by constructor. -/
def Fits (older : List (Happening H K P V)) : Happening H K P V → Prop
  | .produced number purpose made =>
    (∀ earlier ∈ older.filterMap (·.made?), earlier.serial < made.serial) ∧
      ∀ place, purpose = some place → Begun older made.maker number place
  | .shared maker number purpose _ =>
    ∀ place, purpose = some place → Begun older maker number place
  | .stored scope _ key _ => Vacant older (scope, key)
  | .confirmed scope _ key made =>
    ∃ earlier, ((scope, key), earlier) ∈ stock older ∧ earlier.serial = made.serial
  | .discarded scope _ key made =>
    ∃ earlier, ((scope, key), earlier) ∈ stock older ∧ earlier.serial ≠ made.serial
  | .answered scope key (.ok x) => ((scope, key), x) ∈ stock older
  | .drained _ _ | .disposed _ _ _ => awaiting older = []
  | .notified held => (awaiting older).head? = some held
  | _ => True

/-- What may happen after a history. A call that has brought something is settled at once, and a
request is answered at once if its place is taken. -/
structure Allowed (older : List (Happening H K P V)) (h : Happening H K P V) : Prop where
  settles : h.settles = pending older
  answers : ∀ scope key x, older.head? = some (.asked scope key) →
    ((scope, key), x) ∈ stock older → h = .answered scope key (.ok x)
  leaving : h.leaving.Perm (((stock older).filter fun slot => h.takes slot.1).map Prod.snd)
  fits : Fits older h

inductive Lawful : List (Happening H K P V) → Prop
  | nil : Lawful []
  | cons {h older} : Allowed older h → Lawful older → Lawful (h :: older)

namespace Lawful

variable {h : Happening H K P V} {history newer older : List (Happening H K P V)}

theorem head (lawful : Lawful (h :: older)) : Allowed older h := by
  cases lawful with
  | cons allowed _ => exact allowed

theorem tail (lawful : Lawful (h :: older)) : Lawful older := by
  cases lawful with
  | cons _ rest => exact rest

theorem of_append (lawful : Lawful (newer ++ older)) : Lawful older := by
  induction newer with
  | nil => exact lawful
  | cons _ _ ih => exact ih lawful.tail

end Lawful

section Stock

variable {h : Happening H K P V} {history newer older : List (Happening H K P V)}
variable {place : H × K} {x y : Instance P V}

theorem mem_stock_cons :
    (place, x) ∈ stock (h :: older) ↔
      (place, x) ∈ h.puts ∨ (place, x) ∈ stock older ∧ h.takes place = false := by
  simp [stock]

theorem mem_stock_append (mem : (place, x) ∈ stock older)
    (left : ∀ h ∈ newer, h.takes place = false) : (place, x) ∈ stock (newer ++ older) := by
  induction newer with
  | nil => exact mem
  | cons h rest ih =>
    rw [List.forall_mem_cons] at left
    exact mem_stock_cons.2 (Or.inr ⟨ih left.2, left.1⟩)

/-- What a place holds after it was vacant has been stored there in between. -/
theorem stored_of_mem_stock (mem : (place, x) ∈ stock (newer ++ older))
    (vacant : Vacant older place) : ∃ name, .stored place.1 name place.2 x ∈ newer := by
  induction newer with
  | nil => exact absurd mem (vacant x)
  | cons h rest ih =>
    rcases mem_stock_cons.1 mem with put | ⟨kept, -⟩
    · obtain ⟨name, rfl⟩ := Happening.mem_puts_iff.1 put
      exact ⟨name, List.mem_cons_self⟩
    · obtain ⟨name, stored⟩ := ih kept
      exact ⟨name, List.mem_cons_of_mem _ stored⟩

theorem places_nodup (lawful : Lawful history) : ((stock history).map Prod.fst).Nodup := by
  induction lawful with
  | nil => exact List.nodup_nil
  | @cons h older allowed _ ih =>
    have kept : (((stock older).filter fun slot => !h.takes slot.1).map Prod.fst).Nodup :=
      ih.sublist (List.filter_sublist.map _)
    rw [stock, List.map_append]
    cases h with
    | stored scope name key made =>
      have vacant : Vacant older (scope, key) := allowed.fits
      simp only [Happening.puts, List.map_cons, List.map_nil, List.singleton_append,
        List.nodup_cons]
      refine ⟨?_, kept⟩
      intro mem
      obtain ⟨⟨_, y⟩, stocked, rfl⟩ := List.mem_map.1 mem
      exact vacant y (List.mem_filter.1 stocked).1
    | _ => simpa only [Happening.puts, List.map_nil, List.nil_append] using kept

/-- A place holds one instance. -/
theorem eq_of_mem_stock (lawful : Lawful history) (hx : (place, x) ∈ stock history)
    (hy : (place, y) ∈ stock history) : x = y := by
  have same := List.inj_on_of_nodup_map (places_nodup lawful) hx hy rfl
  exact congrArg Prod.snd same

/-- Nothing is lost: what was stored is in stock or has left. -/
theorem stock_leaving_perm (lawful : Lawful history) :
    ((stock history).map Prod.snd ++ history.flatMap (·.leaving)).Perm
      ((history.flatMap (·.puts)).map Prod.snd) := by
  induction lawful with
  | nil => exact List.Perm.refl _
  | @cons h older allowed _ ih =>
    -- what is taken from the stock is what leaves, so the two halves of the stock are all of it
    have split : (((stock older).filter fun slot => !h.takes slot.1).map Prod.snd ++
        h.leaving).Perm ((stock older).map Prod.snd) := by
      refine (allowed.leaving.append_left _).trans ?_
      rw [← List.map_append]
      exact (List.perm_append_comm.trans (List.filter_append_perm _ _)).map _
    calc (stock (h :: older)).map Prod.snd ++ (h :: older).flatMap (·.leaving)
        = h.puts.map Prod.snd ++ (((stock older).filter fun slot => !h.takes slot.1).map Prod.snd ++
            h.leaving ++ older.flatMap (·.leaving)) := by simp [stock]
      _ |>.Perm (h.puts.map Prod.snd ++
            ((stock older).map Prod.snd ++ older.flatMap (·.leaving))) :=
          (split.append_right _).append_left _
      _ |>.Perm (h.puts.map Prod.snd ++ (older.flatMap (·.puts)).map Prod.snd) :=
          ih.append_left _
      _ = ((h :: older).flatMap (·.puts)).map Prod.snd := by simp

end Stock

end History
end Registrar
