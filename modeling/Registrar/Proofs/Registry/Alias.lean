import Mathlib
import Registrar.Proofs.Registry.Past
import Registrar.Proofs.Text.Order

/-!
# Resolution of aliases

A key without a binding of its own is looked up in the index of aliases. What the index holds under
a key is told by the bindings themselves: the owner of every listing of the key, so an owner counts
as often as it lists the key. A plain scan of the bindings counts each owner once. The two agree at
a key exactly if no binding lists it twice.
-/

namespace Registrar
namespace Registry

section Choice

variable {K P : Type} [Key K]

/-- What a list of bindings that list a key comes to: it has to be a single one. -/
def choose (r : Registry K P) (key : K) : List (Binding K P) → Except Fault (Binding K P)
  | [] => .error (r.unknown key)
  | [b] => .ok b
  | bindings =>
    .error (.ambiguousKey (Key.label key) (Text.sort (Key.labels (bindings.map (·.key)))))

theorem choose_eq_ok_iff {r : Registry K P} {key : K} {bindings : List (Binding K P)}
    {b : Binding K P} : r.choose key bindings = .ok b ↔ bindings = [b] := by
  match bindings with
  | [] => simp [choose]
  | [a] => simp [choose]
  | a :: c :: rest => simp [choose]

theorem choose_eq_unknown_iff {r : Registry K P} {key : K} {bindings : List (Binding K P)} :
    r.choose key bindings = .error (r.unknown key) ↔ bindings = [] := by
  match bindings with
  | [] => simp [choose]
  | [a] => simp [choose]
  | a :: c :: rest => simp [choose, unknown]

theorem choose_eq_ambiguous_iff {r : Registry K P} {key : K} {bindings : List (Binding K P)}
    {name : String} {candidates : List String} :
    r.choose key bindings = .error (.ambiguousKey name candidates) ↔
      2 ≤ bindings.length ∧ name = Key.label key ∧
        candidates = Text.sort (Key.labels (bindings.map (·.key))) := by
  match bindings with
  | [] => simp [choose, unknown]
  | [a] => simp [choose]
  | a :: c :: rest => simp [choose, eq_comm]

theorem length_eq_of_choose_eq {r : Registry K P} {key : K} {bindings others : List (Binding K P)}
    (h : r.choose key bindings = r.choose key others) : bindings.length = others.length := by
  match bindings with
  | [] =>
    have none := choose_eq_unknown_iff.1 h.symm
    rw [none]
  | [b] =>
    have single := choose_eq_ok_iff.1 h.symm
    rw [single]
  | a :: c :: rest =>
    obtain ⟨-, -, candidates⟩ := choose_eq_ambiguous_iff.1 h.symm
    have same := congrArg List.length candidates
    simpa [(Text.sort_perm _).length_eq, Key.labels] using same

end Choice

variable {K P : Type} [DecidableEq K]

/-- The bindings that list a key, each once. -/
def claimants (r : Registry K P) (key : K) : List (Binding K P) :=
  r.bindings.values.filter (key ∈ ·.aliases)

/-- The bindings that list a key, each once per time it does. -/
def listings (r : Registry K P) (key : K) : List (Binding K P) :=
  r.bindings.values.flatMap fun b => List.replicate (b.aliases.count key) b

def owners (r : Registry K P) (key : K) : List K := (r.aliases.find? key).getD []

theorem getD_fileAlias (owner : K) (index : Table K (List K)) (a key : K) :
    ((fileAlias owner index a).find? key).getD [] =
      (index.find? key).getD [] ++ if a = key then [owner] else [] := by
  rw [fileAlias, Table.find?_insert]
  by_cases h : key = a
  · subst h
    simp
  · have h' : ¬ a = key := fun e => h e.symm
    simp [h, h']

theorem getD_foldl_fileAlias (owner key : K) (aliases : List K) (index : Table K (List K)) :
    ((aliases.foldl (fileAlias owner) index).find? key).getD [] =
      (index.find? key).getD [] ++ List.replicate (aliases.count key) owner := by
  induction aliases generalizing index with
  | nil => simp
  | cons a rest ih =>
    rw [List.foldl_cons, ih, getD_fileAlias, List.append_assoc]
    by_cases h : a = key
    · subst h
      simp [List.replicate_succ]
    · simp [h]

theorem getD_foldl_fileAliases (key : K) (bindings : List (Binding K P))
    (index : Table K (List K)) :
    ((bindings.foldl fileAliases index).find? key).getD [] = (index.find? key).getD [] ++
      bindings.flatMap fun b => List.replicate (b.aliases.count key) b.key := by
  induction bindings generalizing index with
  | nil => simp
  | cons b rest ih =>
    rw [List.foldl_cons, ih, fileAliases, getD_foldl_fileAlias, List.append_assoc,
      List.flatMap_cons]

theorem owners_ofBindings (bindings : Table K (Binding K P)) (key : K) :
    (ofBindings bindings).owners key = ((ofBindings bindings).listings key).map (·.key) := by
  rw [owners, ofBindings, getD_foldl_fileAliases]
  simp [listings, List.map_flatMap]

theorem mem_listings_iff {r : Registry K P} {key : K} {b : Binding K P} :
    b ∈ r.listings key ↔ b ∈ r.bindings.values ∧ key ∈ b.aliases := by
  simp only [listings, List.mem_flatMap, List.mem_replicate]
  constructor
  · rintro ⟨a, ha, listed, rfl⟩
    exact ⟨ha, List.count_pos_iff.1 (Nat.pos_of_ne_zero listed)⟩
  · rintro ⟨hb, listed⟩
    exact ⟨b, hb, (List.count_pos_iff.2 listed).ne', rfl⟩

theorem mem_claimants_iff {r : Registry K P} {key : K} {b : Binding K P} :
    b ∈ r.claimants key ↔ b ∈ r.bindings.values ∧ key ∈ b.aliases := by
  simp [claimants]

theorem length_listings (r : Registry K P) (key : K) :
    (r.listings key).length = (r.bindings.values.map (·.aliases.count key)).sum := by
  simp [listings, List.length_flatMap]

theorem listings_eq_claimants {r : Registry K P} {key : K}
    (once : ∀ b ∈ r.bindings.values, b.aliases.count key ≤ 1) :
    r.listings key = r.claimants key := by
  rw [listings, claimants]
  generalize r.bindings.values = bindings at once
  induction bindings with
  | nil => rfl
  | cons b rest ih =>
    rw [List.forall_mem_cons] at once
    rw [List.flatMap_cons, ih once.2]
    by_cases listed : key ∈ b.aliases
    · have one : b.aliases.count key = 1 :=
        Nat.le_antisymm once.1 (List.count_pos_iff.2 listed)
      simp [one, listed]
    · simp [listed, List.count_eq_zero_of_not_mem listed]

theorem length_claimants (r : Registry K P) (key : K) : (r.claimants key).length =
    (r.bindings.values.map fun b => min (b.aliases.count key) 1).sum := by
  rw [claimants]
  induction r.bindings.values with
  | nil => rfl
  | cons b rest ih =>
    rw [List.map_cons, List.sum_cons, ← ih]
    by_cases listed : key ∈ b.aliases
    · have positive := List.count_pos_iff.2 listed
      rw [List.filter_cons_of_pos (by simpa using listed), List.length_cons]
      omega
    · rw [List.filter_cons_of_neg (by simpa using listed), List.count_eq_zero_of_not_mem listed]
      omega

theorem length_claimants_lt {r : Registry K P} {key : K} {b : Binding K P}
    (hb : b ∈ r.bindings.values) (twice : 1 < b.aliases.count key) :
    (r.claimants key).length < (r.listings key).length := by
  rw [length_claimants, length_listings]
  apply List.sum_lt_sum
  · intro a _
    exact Nat.min_le_left _ _
  · exact ⟨b, hb, by omega⟩

variable [Key K]

/-- A lookup without an index. -/
def scan (r : Registry K P) (key : K) : Except Fault (Binding K P) :=
  r.choose key (r.claimants key)

/-- Keys of registries that come from a builder lead back to their bindings. -/
theorem find?_key {steps : List (Builder.Step K P)} {b : Binding K P}
    (hb : b ∈ (ofSteps steps).bindings.values) :
    (ofSteps steps).bindings.find? b.key = some b := by
  have remembers := Builder.remembers_run (P := P) steps
  obtain ⟨k, found⟩ := Table.mem_values_iff.1 hb
  have same : b.key = k := by
    rw [show (ofSteps steps).bindings.find? k = _ from remembers.find? k] at found
    exact (Builder.mem_of_latest found).2
  rw [same, found]

theorem binding_eq_choose {steps : List (Builder.Step K P)} {key : K}
    (unbound : key ∉ (ofSteps steps).keys) :
    (ofSteps steps).binding key = (ofSteps steps).choose key ((ofSteps steps).listings key) := by
  have absent : (ofSteps steps).bindings.find? key = none := Table.find?_eq_none_iff.2 unbound
  have indexed : (ofSteps steps).owners key = ((ofSteps steps).listings key).map (·.key) :=
    owners_ofBindings _ _
  unfold owners at indexed
  unfold binding
  rw [absent]
  dsimp only
  rw [indexed]
  have bound : ∀ b ∈ (ofSteps steps).listings key,
      (ofSteps steps).bindings.find? b.key = some b :=
    fun b hb => find?_key (mem_listings_iff.1 hb).1
  match h : (ofSteps steps).listings key with
  | [] => rfl
  | [b] =>
    have found := bound b (by simp [h])
    simp [choose, found]
  | a :: c :: rest => rfl

/-- The index and a plain scan agree at a key without a binding of its own exactly if no binding
lists the key twice. In any case: a binding is found exactly if it alone lists the key, and does so
once; the key is ambiguous exactly if it is listed twice or more, be it by one binding, and the
candidates are the sorted labels of the owners, one for each listing; it is unknown exactly if no
binding lists it. -/
theorem alias_resolution {steps : List (Builder.Step K P)} {key : K}
    (unbound : key ∉ (ofSteps steps).keys) :
    let r := ofSteps steps
    (r.binding key = r.scan key ↔ ∀ b ∈ r.bindings.values, b.aliases.count key ≤ 1) ∧
    (∀ b, r.binding key = .ok b ↔ r.claimants key = [b] ∧ b.aliases.count key = 1) ∧
    ((∃ candidates, r.binding key = .error (.ambiguousKey (Key.label key) candidates)) ↔
      2 ≤ (r.bindings.values.map (·.aliases.count key)).sum) ∧
    (∀ name candidates, r.binding key = .error (.ambiguousKey name candidates) →
      name = Key.label key ∧ candidates.Pairwise (· ≤ ·) ∧
        candidates.Perm (Key.labels ((r.listings key).map (·.key)))) ∧
    (r.binding key = .error (.unknownKey (Key.label key) r.sortedLabels) ↔
      ∀ b ∈ r.bindings.values, key ∉ b.aliases) := by
  intro r
  have lookup : r.binding key = r.choose key (r.listings key) := binding_eq_choose unbound
  rw [lookup]
  refine ⟨⟨?_, ?_⟩, ?_, ?_, ?_, ?_⟩
  · intro same b hb
    by_contra often
    have fewer := length_claimants_lt hb (Nat.lt_of_not_le often)
    have equal := length_eq_of_choose_eq same
    omega
  · intro once
    rw [listings_eq_claimants once, scan]
  · intro b
    rw [choose_eq_ok_iff]
    constructor
    · intro single
      have total := length_listings r key
      rw [single, List.length_singleton] at total
      have once : ∀ a ∈ r.bindings.values, a.aliases.count key ≤ 1 := by
        intro a ha
        have part := List.single_le_sum (fun _ _ => Nat.zero_le _) _
          (List.mem_map_of_mem (f := fun a : Binding K P => a.aliases.count key) ha)
        omega
      have listed : b ∈ r.listings key := by simp [single]
      obtain ⟨hb, mem⟩ := mem_listings_iff.1 listed
      exact ⟨by rw [← listings_eq_claimants once, single],
        Nat.le_antisymm (once b hb) (List.count_pos_iff.2 mem)⟩
    · rintro ⟨only, once⟩
      have others : ∀ a ∈ r.bindings.values, a.aliases.count key ≤ 1 := by
        intro a ha
        by_cases listed : key ∈ a.aliases
        · have claims := mem_claimants_iff.2 ⟨ha, listed⟩
          rw [only, List.mem_singleton] at claims
          rw [claims, once]
        · rw [List.count_eq_zero_of_not_mem listed]
          exact Nat.zero_le _
      rw [listings_eq_claimants others, only]
  · rw [← length_listings]
    constructor
    · rintro ⟨candidates, h⟩
      exact (choose_eq_ambiguous_iff.1 h).1
    · intro many
      exact ⟨_, choose_eq_ambiguous_iff.2 ⟨many, rfl, rfl⟩⟩
  · intro name candidates h
    obtain ⟨-, rfl, rfl⟩ := choose_eq_ambiguous_iff.1 h
    exact ⟨rfl, Text.sort_ascending _, Text.sort_perm _⟩
  · rw [show Fault.unknownKey (Key.label key) r.sortedLabels = r.unknown key from rfl,
      choose_eq_unknown_iff, List.eq_nil_iff_forall_not_mem]
    simp only [mem_listings_iff, not_and]

/-- Two bindings share an alias, and one of them names another alias twice. -/
def sharedAliases : List (Builder.Step String Nat) :=
  [.add ⟨"p", 0, none, ["a"]⟩, .add ⟨"q", 1, none, ["b", "a", "b"]⟩]

theorem binding_sharedAliases : "a" ∉ (ofSteps sharedAliases).keys ∧
    ∃ candidates, (ofSteps sharedAliases).binding "a" = .error (.ambiguousKey "a" candidates) := by
  have keys : (ofSteps sharedAliases).keys = ["p", "q"] := by cbv
  have unbound : "a" ∉ (ofSteps sharedAliases).keys := by simp [keys]
  exact ⟨unbound, (alias_resolution unbound).2.2.1.2 (by cbv)⟩

/-- A binding that names an alias twice stands in its own way, though it is the only one that a
scan finds. -/
theorem binding_of_repeated_alias :
    let r := ofSteps [.add (⟨"p", 0, none, ["a", "a"]⟩ : Binding String Nat)]
    r.claimants "a" = [⟨"p", 0, none, ["a", "a"]⟩] ∧
      r.binding "a" = .error (.ambiguousKey "a" ["p", "p"]) := by
  constructor <;> cbv

end Registry
end Registrar
