import Registrar.Proofs.Registry.Isolation

/-!
# Registering a list of entries

Entries are registered in their order until one of them offends. Whether an entry offends depends on
the entry itself, on what the builder holds and on the entries before it. The first offender is
refused for the first thing that is wrong with it, and the builder is left as the entries before it
have made it.
-/

namespace Registrar

variable {K F P : Type}

namespace Entry

variable [Key K]

/-- An entry that an empty builder takes. -/
def Sound (e : Entry K F) : Prop :=
  Key.objection e.key = none ∧ ∀ a ∈ e.aliases, Key.objection a = none ∧ a ≠ e.key

/-- A key or an alias of the entry cannot be bound, or the entry lists its own key, or keys are not
bound again and the key is bound in the builder or belongs to an earlier entry. -/
def Offends (e : Entry K F) (builder : Builder K P) (earlier : List (Entry K F)) : Prop :=
  (∃ k ∈ e.key :: e.aliases, Key.objection k ≠ none) ∨ e.key ∈ e.aliases ∨
    builder.policy = .reject ∧
      (e.key ∈ builder.bindings.keys ∨ ∃ other ∈ earlier, other.key = e.key)

/-- What is said about an entry that offends: the objection to its key goes before all others, the
aliases are gone through in their order, and a key that is taken is noticed last. -/
inductive Complaint (e : Entry K F) : Fault → Prop
  | badKey {reason : String} (objection : Key.objection e.key = some reason) :
      Complaint e (.invalidArgument ("invalid key '" ++ Key.name e.key ++ "': " ++ reason))
  | badAlias {before after : List K} {a : K} {reason : String}
      (bindable : Key.objection e.key = none) (listed : e.aliases = before ++ a :: after)
      (fine : ∀ c ∈ before, Key.objection c = none ∧ c ≠ e.key)
      (objection : Key.objection a = some reason) :
      Complaint e (.invalidArgument
        ("invalid alias '" ++ Key.name a ++ "' of '" ++ Key.name e.key ++ "': " ++ reason))
  | ownKey {before after : List K} (bindable : Key.objection e.key = none)
      (listed : e.aliases = before ++ e.key :: after)
      (fine : ∀ c ∈ before, Key.objection c = none ∧ c ≠ e.key) :
      Complaint e (.invalidArgument
        ("binding '" ++ Key.name e.key ++ "' lists itself as an alias"))
  | takenKey (sound : e.Sound) : Complaint e (.duplicateKey (Key.label e.key))

theorem offends_iff {e : Entry K F} {builder : Builder K P} {earlier : List (Entry K F)} :
    e.Offends builder earlier ↔ ¬ e.Sound ∨ builder.policy = .reject ∧
      (e.key ∈ builder.bindings.keys ∨ ∃ other ∈ earlier, other.key = e.key) := by
  have unsound : ¬ e.Sound ↔
      (∃ k ∈ e.key :: e.aliases, Key.objection k ≠ none) ∨ e.key ∈ e.aliases := by
    rw [Sound, List.exists_mem_cons_iff]
    constructor
    · intro wrong
      by_contra none
      push Not at none
      apply wrong
      refine ⟨none.1.1, fun a listed => ⟨none.1.2 a listed, fun same => none.2 (same ▸ listed)⟩⟩
    · rintro ((bad | ⟨a, listed, bad⟩) | own) ⟨key, aliases⟩
      · exact bad key
      · exact bad (aliases a listed).1
      · exact (aliases _ own).2 rfl
  rw [Offends, unsound, or_assoc]

end Entry

variable [DecidableEq K] [Key K]

namespace Binding

/-- The aliases before the one that is objected to are fine. -/
theorem of_aliasObjection {key : K} {aliases : List K} {text : String}
    (objected : aliasObjection key aliases = some text) :
    ∃ before a after, aliases = before ++ a :: after ∧
      (∀ c ∈ before, Key.objection c = none ∧ c ≠ key) ∧
      ((∃ reason, Key.objection a = some reason ∧
          text = "invalid alias '" ++ Key.name a ++ "' of '" ++ Key.name key ++ "': " ++ reason) ∨
        a = key ∧ text = "binding '" ++ Key.name key ++ "' lists itself as an alias") := by
  induction aliases with
  | nil => cases objected
  | cons a rest ih =>
    rw [aliasObjection] at objected
    cases objection : Key.objection a with
    | some reason =>
      rw [objection] at objected
      cases objected
      exact ⟨[], a, rest, rfl, by simp, .inl ⟨reason, objection, rfl⟩⟩
    | none =>
      rw [objection] at objected
      by_cases own : a = key
      · simp only [own, if_true, Option.some.injEq] at objected
        exact ⟨[], a, rest, rfl, by simp, .inr ⟨own, objected.symm⟩⟩
      · simp only [own, if_false] at objected
        obtain ⟨before, c, after, rfl, fine, wrong⟩ := ih objected
        refine ⟨a :: before, c, after, rfl, ?_, wrong⟩
        exact List.forall_mem_cons.2 ⟨⟨objection, own⟩, fine⟩

theorem aliasObjection_append {key : K} {before : List K}
    (fine : ∀ c ∈ before, Key.objection c = none ∧ c ≠ key) (after : List K) :
    aliasObjection key (before ++ after) = aliasObjection key after := by
  induction before with
  | nil => rfl
  | cons c rest ih =>
    rw [List.forall_mem_cons] at fine
    rw [List.cons_append, aliasObjection, fine.1.1]
    simp only [fine.1.2, if_false]
    exact ih fine.2

end Binding

namespace Entry

/-- There is only one thing to say about an entry. -/
theorem Complaint.unique {e : Entry K F} {fault other : Fault} (first : e.Complaint fault)
    (second : e.Complaint other) : fault = other := by
  have said {fault : Fault} (complaint : e.Complaint fault) : fault =
      match Key.objection e.key, Binding.aliasObjection e.key e.aliases with
      | some reason, _ => .invalidArgument ("invalid key '" ++ Key.name e.key ++ "': " ++ reason)
      | none, some text => .invalidArgument text
      | none, none => .duplicateKey (Key.label e.key) := by
    cases complaint with
    | badKey objection => rw [objection]
    | badAlias bindable listed fine objection =>
      rw [bindable, listed, Binding.aliasObjection_append fine, Binding.aliasObjection, objection]
    | ownKey bindable listed fine =>
      rw [bindable, listed, Binding.aliasObjection_append fine, Binding.aliasObjection, bindable]
      simp
    | takenKey sound => rw [sound.1, Binding.aliasObjection_eq_none_iff.2 sound.2]
  rw [said first, said second]

end Entry

namespace Builder

theorem add_of_objection (builder : Builder K P) {b : Binding K P} {reason : String}
    (objected : b.objection = some reason) :
    builder.add b = .error (.invalidArgument reason) := by
  rw [add, Binding.check, objected]
  rfl

theorem addAll_append_of_added {builder : Builder K P} {first : List (Binding K P)}
    (added : (builder.addAll first).2.2 = none) (second : List (Binding K P)) :
    builder.addAll (first ++ second) =
      (((builder.addAll first).1.addAll second).1,
        (builder.addAll first).2.1 ++ ((builder.addAll first).1.addAll second).2.1,
        ((builder.addAll first).1.addAll second).2.2) := by
  induction first generalizing builder with
  | nil => rfl
  | cons b rest ih =>
    rw [List.cons_append]
    rw [addAll] at added ⊢
    rw [addAll]
    cases one : builder.add b with
    | error fault => simp [one] at added
    | ok result =>
      rw [one] at added
      dsimp only at added ⊢
      rw [ih added]
      rfl

theorem addAll_append_of_failed {builder : Builder K P} {first : List (Binding K P)}
    {fault : Fault} (failed : (builder.addAll first).2.2 = some fault)
    (second : List (Binding K P)) :
    builder.addAll (first ++ second) = builder.addAll first := by
  induction first generalizing builder with
  | nil => cases failed
  | cons b rest ih =>
    rw [List.cons_append]
    rw [addAll] at failed ⊢
    rw [addAll]
    cases one : builder.add b with
    | error fault => rfl
    | ok result =>
      rw [one] at failed
      dsimp only at failed ⊢
      rw [ih failed]

omit [Key K] in
theorem latest_cons (b : Binding K P) (rest : List (Binding K P)) (k : K) :
    latest (b :: rest) k = (latest rest k).or (if k = b.key then some b else none) := by
  by_cases same : k = b.key
  · rw [latest, List.filter_cons_of_pos (by simpa using same.symm), List.getLast?_cons, if_pos same,
      latest]
    cases (rest.filter (·.key = k)).getLast? <;> rfl
  · have other : ¬ b.key = k := fun e => same e.symm
    rw [latest, List.filter_cons_of_neg (by simpa using other), if_neg same, Option.or_none, latest]

/-- Under each key there is the latest binding that was added, or else what was there before. -/
theorem find?_addAll {builder : Builder K P} {bindings : List (Binding K P)}
    (added : (builder.addAll bindings).2.2 = none) (k : K) :
    (builder.addAll bindings).1.bindings.find? k =
      (latest bindings k).or (builder.bindings.find? k) := by
  induction bindings generalizing builder with
  | nil => rfl
  | cons b rest ih =>
    rw [addAll] at added ⊢
    cases one : builder.add b with
    | error fault => simp [one] at added
    | ok result =>
      rw [one] at added
      dsimp only at added ⊢
      obtain ⟨-, -, next⟩ := of_add_eq_ok one
      rw [ih added, next, Table.find?_insert, latest_cons, Option.or_assoc]
      split <;> rfl

variable {make : Furnished F → P} {settings : SettingsTable} {builder : Builder K P}
  {entries : List (Entry K F)} {e : Entry K F}

theorem complaint_of_add {fault : Fault}
    (failed : builder.add (e.toBinding make settings) = .error fault) : e.Complaint fault := by
  have key := Entry.key_toBinding e make settings
  have aliases := Entry.aliases_toBinding e make settings
  by_cases valid : (e.toBinding make settings).Valid
  · rw [fault_of_add valid failed, key]
    rw [Binding.Valid, key, aliases] at valid
    exact .takenKey valid
  · cases objected : (e.toBinding make settings).objection with
    | none =>
      rw [← Binding.check_eq_ok_iff, Binding.check, objected] at valid
      exact absurd rfl valid
    | some text =>
      rw [add_of_objection builder objected] at failed
      cases failed
      rw [Binding.objection, key, aliases] at objected
      cases objection : Key.objection e.key with
      | some reason =>
        rw [objection] at objected
        cases objected
        exact .badKey objection
      | none =>
        rw [objection] at objected
        obtain ⟨before, a, after, listed, fine, wrong⟩ := Binding.of_aliasObjection objected
        rcases wrong with ⟨reason, bad, rfl⟩ | ⟨rfl, rfl⟩
        · exact .badAlias objection listed fine bad
        · exact .ownKey objection listed fine

/-- The entry at a place of a list offends. -/
def OffendsAt (builder : Builder K P) (entries : List (Entry K F)) (i : Nat) : Prop :=
  ∃ e, entries[i]? = some e ∧ e.Offends builder (entries.take i)

omit [DecidableEq K] in
theorem offendsAt_take {i j : Nat} :
    OffendsAt builder (entries.take i) j ↔ j < i ∧ OffendsAt builder entries j := by
  unfold OffendsAt
  rw [List.getElem?_take, List.take_take]
  by_cases below : j < i
  · simp [below, Nat.min_eq_left (Nat.le_of_lt below)]
  · simp [below]

omit [DecidableEq K] in
theorem offendsAt_append_singleton {i : Nat} :
    OffendsAt builder (entries ++ [e]) i ↔
      OffendsAt builder entries i ∨ i = entries.length ∧ e.Offends builder entries := by
  unfold OffendsAt
  rcases Nat.lt_trichotomy i entries.length with below | rfl | above
  · simp [List.getElem?_append_left below, List.take_append_of_le_length (Nat.le_of_lt below),
      Nat.ne_of_lt below]
  · simp
  · have past : (entries ++ [e])[i]? = none := by simpa using above
    have beyond : entries[i]? = none := by simpa using Nat.le_of_lt above
    simp [past, beyond, Nat.ne_of_gt above]

/-- An entry is refused after others exactly if it offends. -/
theorem exists_add_iff_not_offends
    (added : (builder.addEntries make settings entries).2.2 = none) :
    (∃ result, (builder.addEntries make settings entries).1.add (e.toBinding make settings) =
      .ok result) ↔ ¬ e.Offends builder entries := by
  have valid : (e.toBinding make settings).Valid ↔ e.Sound := by
    rw [Binding.Valid, Entry.key_toBinding, Entry.aliases_toBinding, Entry.Sound]
  have replaces : builder.policy = .replace ↔ builder.policy ≠ .reject := by
    cases builder.policy <;> simp
  unfold addEntries at added ⊢
  rw [exists_add_eq_ok_iff, valid, addAll_policy, find?_addAll added, Option.or_eq_none_iff,
    latest_eq_none_iff, Table.find?_eq_none_iff, Entry.key_toBinding, Entry.offends_iff, replaces]
  simp only [List.forall_mem_map, Entry.key_toBinding]
  push Not
  tauto

/-- All entries before `e` are added. So `e` is added too, or the registration ends with it. -/
theorem addEntries_append_singleton
    (added : (builder.addEntries make settings entries).2.2 = none) (e : Entry K F) :
    builder.addEntries make settings (entries ++ [e]) =
      match (builder.addEntries make settings entries).1.add (e.toBinding make settings) with
      | .error fault => ((builder.addEntries make settings entries).1,
          (builder.addEntries make settings entries).2.1, some fault)
      | .ok (next, event) =>
          (next, (builder.addEntries make settings entries).2.1 ++ [event], none) := by
  unfold addEntries at added ⊢
  rw [List.map_append, List.map_singleton, addAll_append_of_added added, addAll]
  cases (builder.addAll (entries.map (·.toBinding make settings))).1.add
    (e.toBinding make settings) <;> simp [addAll]

theorem addEntries_append_of_failed {fault : Fault}
    (failed : (builder.addEntries make settings entries).2.2 = some fault)
    (more : List (Entry K F)) :
    builder.addEntries make settings (entries ++ more) =
      builder.addEntries make settings entries := by
  unfold addEntries at failed ⊢
  rw [List.map_append, addAll_append_of_failed failed]

theorem added_iff_not_offendsAt (make : Furnished F → P) (settings : SettingsTable) :
    (builder.addEntries make settings entries).2.2 = none ↔
      ∀ i, ¬ OffendsAt builder entries i := by
  induction entries using List.reverseRecOn with
  | nil => simp [addEntries, addAll, OffendsAt]
  | append_singleton entries e ih =>
    simp only [offendsAt_append_singleton, not_or, forall_and, ← ih]
    cases first : (builder.addEntries make settings entries).2.2 with
    | some fault =>
      rw [addEntries_append_of_failed first, first]
      simp
    | none =>
      have takes := exists_add_iff_not_offends (e := e) first
      rw [addEntries_append_singleton first]
      simp only [true_and, not_and, forall_eq, ← takes]
      cases (builder.addEntries make settings entries).1.add (e.toBinding make settings) <;> simp

theorem registerEntries_eq (builder : Builder K P) (make : Furnished F → P)
    (settings : SettingsTable) (entries : List (Entry K F)) :
    builder.registerEntries make settings entries =
      ((builder.addEntries make settings entries).1,
        (builder.addEntries make settings entries).2.1,
        match (builder.addEntries make settings entries).2.2 with
        | some fault => .error fault
        | none => .ok entries.length) := by
  unfold registerEntries
  split
  · next failed => rw [failed]
  · next added => rw [added]

/-- The first offender ends a registration and is complained about. -/
theorem registerEntries_of_least (make : Furnished F → P) (settings : SettingsTable) {i : Nat}
    (at_i : entries[i]? = some e) (least : IsLeast {j | OffendsAt builder entries j} i) :
    (builder.addEntries make settings (entries.take i)).2.2 = none ∧ ∃ fault, e.Complaint fault ∧
      builder.registerEntries make settings entries =
        ((builder.addEntries make settings (entries.take i)).1,
          (builder.addEntries make settings (entries.take i)).2.1, .error fault) := by
  obtain ⟨⟨e', found, offends⟩, before⟩ := least
  obtain rfl : e' = e := Option.some.inj (found.symm.trans at_i)
  obtain ⟨below, here⟩ := List.getElem?_eq_some_iff.1 at_i
  have parts : entries = entries.take i ++ [e'] ++ entries.drop (i + 1) := by
    rw [List.append_assoc, List.singleton_append, ← here, ← List.drop_eq_getElem_cons below,
      List.take_append_drop]
  -- nothing offends before the least place
  have added : (builder.addEntries make settings (entries.take i)).2.2 = none := by
    rw [added_iff_not_offendsAt]
    intro j there
    obtain ⟨less, offendsThere⟩ := offendsAt_take.1 there
    exact absurd (before offendsThere) (Nat.not_le.2 less)
  refine ⟨added, ?_⟩
  have refused := exists_add_iff_not_offends (e := e') added
  have next := addEntries_append_singleton added e'
  cases one : (builder.addEntries make settings (entries.take i)).1.add
      (e'.toBinding make settings) with
  | ok result => exact absurd offends (refused.1 ⟨result, one⟩)
  | error fault =>
    rw [one] at next
    have stopped :
        (builder.addEntries make settings (entries.take i ++ [e'])).2.2 = some fault := by rw [next]
    refine ⟨fault, complaint_of_add one, ?_⟩
    rw [registerEntries_eq]
    conv_lhs => rw [parts, addEntries_append_of_failed stopped, next]

/-- A list of entries is registered exactly if none of them offends. Otherwise the first offender is
complained about, and what is left behind is what the entries before it have made: under each key
the registry has the last of their bindings, or else what the builder had. A composition of the
list fails alike and gives no registry. -/
theorem batch_registration (builder : Builder K P) (make : Furnished F → P)
    (settings : SettingsTable) (entries : List (Entry K F)) :
    ((builder.registerEntries make settings entries).2.2 = .ok entries.length ↔
      ∀ i, ¬ OffendsAt builder entries i) ∧
    (∀ i e, entries[i]? = some e → IsLeast {j | OffendsAt builder entries j} i →
      let kept := builder.registerEntries make settings (entries.take i)
      kept.2.2 = .ok i ∧
      (∀ k, kept.1.build.1.bindings.find? k =
        ((Entry.last? (entries.take i) k).map (·.toBinding make settings)).or
          (builder.bindings.find? k)) ∧
      (∃ fault, e.Complaint fault) ∧ ∀ fault, e.Complaint fault →
        builder.registerEntries make settings entries = (kept.1, kept.2.1, .error fault)) ∧
    ∀ (family : String) (config : Config),
      let start : Builder K P := new.withPolicy config.registry.duplicatePolicy
      let registered := start.registerEntries make config.settings entries
      (compose make family entries config).2 =
        registered.2.2.map fun _ => registered.1.build.1 := by
  refine ⟨?_, ?_, ?_⟩
  · rw [← added_iff_not_offendsAt make settings, registerEntries_eq]
    cases (builder.addEntries make settings entries).2.2 <;> simp
  · intro i e at_i least kept
    obtain ⟨added, fault, complaint, stopped⟩ := registerEntries_of_least make settings at_i least
    have below : i ≤ entries.length := (List.getElem?_eq_some_iff.1 at_i).1.le
    have all : kept = ((builder.addEntries make settings (entries.take i)).1,
        (builder.addEntries make settings (entries.take i)).2.1, .ok i) := by
      rw [show kept = _ from registerEntries_eq .., added, List.length_take_of_le below]
    rw [all]
    refine ⟨rfl, fun k => ?_, ⟨fault, complaint⟩, fun other same => ?_⟩
    · refine (find?_addAll added k).trans ?_
      rw [latest, Entry.last?, List.filter_map, List.getLast?_map]
      rfl
    · rw [stopped, complaint.unique same]
  · intro family config start registered
    rw [compose_result, show registered = _ from registerEntries_eq ..]
    change (match (start.addEntries make config.settings entries).2.2 with
      | some fault => Except.error fault
      | none =>
        Except.ok (Registry.ofBindings
          (start.addEntries make config.settings entries).1.bindings)) = _
    cases (start.addEntries make config.settings entries).2.2 <;> rfl

/-- Of two entries that fail, the first one is told. -/
example : ((new : Builder String (Furnished Nat)).registerEntries id .empty
    [⟨"a", [], "", 0⟩, ⟨"b", [], "", 1⟩, ⟨"a", [], "", 2⟩, ⟨"", [], "", 3⟩]).2.2 =
      .error (.duplicateKey "a") := by
  cbv

end Builder
end Registrar
