import Registrar.Proofs.Registry.Lookup
import Registrar.Proofs.Scope.Served

/-!
# What every finished registry is like

The bindings of a registry and its index of aliases are filled at different times. In a registry
that a builder leaves behind they agree: each binding is kept under its own key, and the index lists
each owner as often as its binding lists the alias, and nothing besides. So the owner that the index
has for an alias is always bound, a binding that was replaced or refused serves no alias, and no
lookup finds anything under a key that cannot be bound.
-/

namespace Registrar

namespace Builder

variable {K P : Type} [DecidableEq K]

/-- After the latest binding under a key comes no other one. -/
theorem split_of_latest {past : List (Binding K P)} {k : K} {b : Binding K P}
    (h : latest past k = some b) :
    ∃ before after, past = before ++ b :: after ∧ ∀ later ∈ after, later.key ≠ k := by
  induction past using List.reverseRecOn with
  | nil => cases h
  | append_singleton past a ih =>
    rw [latest_append_singleton] at h
    split at h
    · cases h
      exact ⟨past, [], rfl, by simp⟩
    · next other =>
      obtain ⟨before, after, rfl, absent⟩ := ih h
      refine ⟨before, after ++ [a], by simp, ?_⟩
      intro later mem
      rcases List.mem_append.1 mem with mem | mem
      · exact absent later mem
      · rw [List.mem_singleton.1 mem]
        exact fun same => other same.symm

variable [Key K]

theorem run_append (builder : Builder K P) (first second : List (Step K P)) :
    (builder.run (first ++ second)).1 = ((builder.run first).1.run second).1 := by
  induction first generalizing builder with
  | nil => rfl
  | cons s rest ih => exact ih _

/-- A refused addition leaves no trace. -/
theorem run_of_refused {builder : Builder K P} {before : List (Step K P)} {s : Step K P}
    {b : Binding K P} {fault : Fault} (offers : s.offers = [b])
    (refused : (builder.run before).1.add b = .error fault) (after : List (Step K P)) :
    (builder.run (before ++ s :: after)).1 = (builder.run (before ++ after)).1 := by
  have unchanged : ((builder.run before).1.step s).1 = (builder.run before).1 := by
    rw [step_of_offers offers, addAll, refused]
  rw [run_append, run_append]
  change (((builder.run before).1.step s).1.run after).1 = _
  rw [unchanged]

end Builder

namespace Registry

variable {K P : Type} [DecidableEq K]

theorem mem_keys_fileAlias {owner a key : K} {index : Table K (List K)} :
    key ∈ (fileAlias owner index a).keys ↔ key = a ∨ key ∈ index.keys := by
  rw [Table.mem_keys_iff, Table.mem_keys_iff, fileAlias, Table.find?_insert]
  by_cases h : key = a <;> simp [h]

theorem mem_keys_foldl_fileAlias {owner key : K} {aliases : List K} {index : Table K (List K)} :
    key ∈ (aliases.foldl (fileAlias owner) index).keys ↔ key ∈ aliases ∨ key ∈ index.keys := by
  induction aliases generalizing index with
  | nil => simp
  | cons a rest ih =>
    rw [List.foldl_cons, ih, mem_keys_fileAlias, List.mem_cons, or_left_comm, or_assoc]

theorem mem_keys_foldl_fileAliases {key : K} {bindings : List (Binding K P)}
    {index : Table K (List K)} :
    key ∈ (bindings.foldl fileAliases index).keys ↔
      (∃ b ∈ bindings, key ∈ b.aliases) ∨ key ∈ index.keys := by
  induction bindings generalizing index with
  | nil => simp
  | cons b rest ih =>
    rw [List.foldl_cons, ih, fileAliases, mem_keys_foldl_fileAlias, List.exists_mem_cons_iff,
      or_left_comm, or_assoc]

/-- Among bindings that are kept under their own keys, only the one under `p` adds to how often `p`
is listed. -/
theorem count_listed {entries : List (K × Binding K P)} (own : ∀ e ∈ entries, e.2.key = e.1)
    (nodup : (entries.map Prod.fst).Nodup) (a p : K) :
    ((entries.map Prod.snd).flatMap fun b => List.replicate (b.aliases.count a) b.key).count p =
      ((entries.lookup p).map (·.aliases.count a)).getD 0 := by
  induction entries with
  | nil => rfl
  | cons e rest ih =>
    obtain ⟨x, b⟩ := e
    rw [List.forall_mem_cons] at own
    obtain ⟨same, others⟩ := own
    obtain rfl : b.key = x := same
    rw [List.map_cons, List.nodup_cons] at nodup
    obtain ⟨absent, distinct⟩ := nodup
    rw [List.map_cons, List.flatMap_cons, List.count_append, ih others distinct]
    by_cases h : p = b.key
    · subst h
      have unlisted : rest.lookup b.key = none := Pairs.lookup_eq_none absent
      simp [unlisted]
    · have other : ¬ b.key = p := fun e => h e.symm
      simp [Pairs.lookup_cons, h, List.count_replicate, other]

variable [Key K]

/-- The bindings and the index of a registry agree. -/
structure Consistent (r : Registry K P) : Prop where
  own : ∀ k b, r.bindings.find? k = some b → b.key = k
  valid : ∀ k b, r.bindings.find? k = some b → b.Valid
  count : ∀ a p, (r.owners a).count p = ((r.bindings.find? p).map (·.aliases.count a)).getD 0
  bound : ∀ a, ∀ p ∈ r.owners a, p ∈ r.keys ∧ p ≠ a
  indexed : ∀ a, a ∈ r.aliases.keys ↔ ∃ b ∈ r.bindings.values, a ∈ b.aliases

theorem consistent_ofBindings {bindings : Table K (Binding K P)}
    (own : ∀ k b, bindings.find? k = some b → b.key = k)
    (valid : ∀ k b, bindings.find? k = some b → b.Valid) : (ofBindings bindings).Consistent where
  own := own
  valid := valid
  count := by
    intro a p
    rw [owners_ofBindings, listings, List.map_flatMap]
    simp only [List.map_replicate]
    apply count_listed _ bindings.nodup
    rintro ⟨k, b⟩ mem
    exact own k b (Table.mem_entries_iff.1 mem)
  bound := by
    intro a p mem
    rw [owners_ofBindings] at mem
    obtain ⟨b, listed, rfl⟩ := List.mem_map.1 mem
    obtain ⟨kept, listed⟩ := mem_listings_iff.1 listed
    obtain ⟨k, found⟩ := Table.mem_values_iff.1 kept
    have same : b.key = k := own k b found
    refine ⟨Table.mem_keys_iff.2 ⟨b, by rwa [same]⟩, ?_⟩
    exact ((valid k b found).2 a listed).2.symm
  indexed := by
    intro a
    refine mem_keys_foldl_fileAliases.trans ?_
    simp [Table.mem_keys_iff, ofBindings]

theorem consistent_ofSteps (steps : List (Builder.Step K P)) : (ofSteps steps).Consistent := by
  have remembers := Builder.remembers_run (P := P) steps
  apply consistent_ofBindings
  · intro k b found
    rw [remembers.find?] at found
    exact (Builder.mem_of_latest found).2
  · intro k b found
    rw [remembers.find?] at found
    exact remembers.valid b (Builder.mem_of_latest found).1

namespace Consistent

variable {r : Registry K P}

theorem listed_of_mem_owners (consistent : r.Consistent) {a p : K} (mem : p ∈ r.owners a) :
    ∃ b, r.bindings.find? p = some b ∧ a ∈ b.aliases := by
  have often := consistent.count a p
  obtain ⟨b, found⟩ := Table.mem_keys_iff.1 (consistent.bound a p mem).1
  rw [found] at often
  refine ⟨b, found, List.count_pos_iff.1 ?_⟩
  have positive : 0 < (r.owners a).count p := List.count_pos_iff.2 mem
  simp only [Option.map_some, Option.getD_some] at often
  omega

/-- The one owner that the index has for an alias is bound, so it is found. -/
theorem binding_of_single (consistent : r.Consistent) {k owner : K} (unbound : k ∉ r.keys)
    (single : r.owners k = [owner]) :
    ∃ b, r.bindings.find? owner = some b ∧ k ∈ b.aliases ∧ r.binding k = .ok b := by
  obtain ⟨b, found, listed⟩ := consistent.listed_of_mem_owners (a := k) (p := owner)
    (by rw [single]; exact List.mem_singleton_self owner)
  refine ⟨b, found, listed, ?_⟩
  unfold owners at single
  rw [binding, Table.find?_eq_none_iff.2 unbound]
  dsimp only
  rw [single]
  dsimp only
  rw [found]

/-- An unbound key is served by the one owner that the index has for it. -/
theorem owners_of_binding (consistent : r.Consistent) {k : K} {b : Binding K P}
    (unbound : k ∉ r.keys) (served : r.binding k = .ok b) : r.owners k = [b.key] := by
  have found : r.bindings.find? k = none := Table.find?_eq_none_iff.2 unbound
  match single : r.owners k with
  | [owner] =>
    obtain ⟨b', kept, -, served'⟩ := consistent.binding_of_single unbound single
    rw [served] at served'
    cases served'
    rw [consistent.own owner b kept]
  | [] | _ :: _ :: _ =>
    unfold owners at single
    rw [binding, found] at served
    dsimp only at served
    rw [single] at served
    cases served

/-- What a lookup finds is kept under its own key, and it is found under that key or under an
alias that it lists. -/
theorem of_binding_eq_ok (consistent : r.Consistent) {k : K} {b : Binding K P}
    (served : r.binding k = .ok b) :
    r.bindings.find? b.key = some b ∧ (k = b.key ∨ k ∈ b.aliases) := by
  cases found : r.bindings.find? k with
  | some own =>
    rw [binding, found] at served
    cases served
    have same : b.key = k := consistent.own k b found
    exact ⟨by rw [same, found], .inl same.symm⟩
  | none =>
    have unbound : k ∉ r.keys := Table.find?_eq_none_iff.1 found
    have single := consistent.owners_of_binding unbound served
    obtain ⟨b', kept, listed, served'⟩ := consistent.binding_of_single unbound single
    rw [served] at served'
    cases served'
    exact ⟨kept, .inr listed⟩

/-- A key that is not bound, and that no binding lists, is unknown. -/
theorem binding_of_unlisted (consistent : r.Consistent) {k : K} (unbound : k ∉ r.keys)
    (unlisted : ∀ b ∈ r.bindings.values, k ∉ b.aliases) : r.binding k = .error (r.unknown k) := by
  have none : r.owners k = [] := by
    rw [List.eq_nil_iff_forall_not_mem]
    intro p mem
    obtain ⟨b, found, listed⟩ := consistent.listed_of_mem_owners mem
    exact unlisted b (Table.mem_values_iff.2 ⟨p, found⟩) listed
  unfold owners at none
  rw [binding, Table.find?_eq_none_iff.2 unbound]
  dsimp only
  rw [none]

theorem not_mem_keys_of_objection (consistent : r.Consistent) {k : K} {reason : String}
    (objection : Key.objection k = some reason) : k ∉ r.keys := by
  intro bound
  obtain ⟨b, found⟩ := Table.mem_keys_iff.1 bound
  have accepted := (consistent.valid k b found).1
  rw [consistent.own k b found, objection] at accepted
  cases accepted

theorem binding_of_objection (consistent : r.Consistent) {k : K} {reason : String}
    (objection : Key.objection k = some reason) : r.binding k = .error (r.unknown k) := by
  apply consistent.binding_of_unlisted (consistent.not_mem_keys_of_objection objection)
  intro b kept listed
  obtain ⟨p, found⟩ := Table.mem_values_iff.1 kept
  have accepted := ((consistent.valid p b found).2 k listed).1
  rw [objection] at accepted
  cases accepted

end Consistent

/-- Every lookup of a key says that it is unknown: in the registry itself, by creating an instance,
with or without a type, and by a request in a scope over the registry. No provider is called. -/
structure Refuses (r : Registry K P) (k : K) : Prop where
  binding : r.binding k = .error (.unknownKey (Key.label k) r.sortedLabels)
  resolve : r.resolve k = .error (.unknownKey (Key.label k) r.sortedLabels)
  contains : r.contains k = false
  serves : r.serves k = false
  describe : r.describe k = none
  create : ∀ {V : Type} (provide : P → Except Fault V),
    r.create provide k = .error (.unknownKey (Key.label k) r.sortedLabels)
  creating : ∀ {H V : Type} [DecidableEq H] [DecidableEq P] [HasType V] (conduct : Conduct H K P V)
    (depth : Nat) (w : World H K P V),
    let unknown := .reply (.error (.unknownKey (Key.label k) r.sortedLabels))
    w.step conduct depth (.create r k) = some (unknown, w) ∧
      ∀ type, w.step conduct depth (.createAs r k type) = some (unknown, w)
  requests : ∀ {H V : Type} [DecidableEq H] [DecidableEq P] [HasType V] (conduct : Conduct H K P V)
    (depth : Nat) (w : World H K P V) (scope : H) (s : Scope K P V),
    World.Reachable conduct w → w.findScope scope = some s → s.registry = r →
      let fault := .unknownKey (Key.label k) r.sortedLabels
      let answered := (w.record (.asked scope k)).record (.answered scope k (.error fault))
      w.step conduct depth (.get scope k) = some (.reply (.error fault), answered) ∧
        ∀ type, w.step conduct depth (.getAs scope k type) = some (.reply (.error fault), answered)

theorem refuses_of_unknown {r : Registry K P} {k : K} (unbound : k ∉ r.keys)
    (unknown : r.binding k = .error (r.unknown k)) : r.Refuses k where
  binding := unknown
  resolve := by rw [resolve, unknown]; rfl
  contains := by rwa [← Bool.not_eq_true, contains, Table.contains_iff]
  serves := serves_eq_false_iff.2 ⟨_, unknown⟩
  describe := by rw [describe, unknown]
  create := by
    intro V provide
    rw [create, unknown]
    rfl
  creating := by
    intro H V _ _ _ conduct depth w
    have created : World.create conduct depth r k w = some (.error (r.unknown k), w) := by
      rw [World.create, World.createFrom, unknown]
    exact ⟨by rw [World.step, created]; rfl, fun type => by rw [World.step, created]; rfl⟩
  requests := by
    rintro H V _ _ _ conduct depth w scope s reachable found rfl
    have answered := reachable.get_of_unserved found unknown depth
    exact ⟨by rw [World.step, answered]; rfl, fun type => by rw [World.step, answered]; rfl⟩

/-- What holds of the registry that a run of a builder leaves behind. Its bindings and its index
agree. An owner that stands alone in the index under an unbound key is bound and serves the key.
What a lookup finds is the binding that is kept last under its own key. If all bindings that were
accepted with an alias have been replaced, the alias is unknown unless it is bound itself; and a
refused addition might as well not have been made. A key that cannot be bound is unknown. -/
theorem representation_invariant (steps : List (Builder.Step K P)) :
    let r := ofSteps steps
    let past := Builder.new.accepted steps
    r.Consistent ∧
    (∀ k owner, k ∉ r.keys → r.owners k = [owner] →
      ∃ b, r.bindings.find? owner = some b ∧ k ∈ b.aliases ∧ r.binding k = .ok b) ∧
    (∀ k b, r.binding k = .ok b →
      r.bindings.find? b.key = some b ∧ (k = b.key ∨ k ∈ b.aliases)) ∧
    (∀ k, k ∉ r.keys →
      (∀ before b after, past = before ++ b :: after → k ∈ b.aliases →
        ∃ later ∈ after, later.key = b.key) → r.Refuses k) ∧
    (∀ before s after b fault, steps = before ++ s :: after → s.offers = [b] →
      (Builder.new.run before).1.add b = .error fault → r = ofSteps (before ++ after)) ∧
    ∀ k reason, Key.objection k = some reason → r.Refuses k := by
  intro r past
  have consistent : r.Consistent := consistent_ofSteps steps
  refine ⟨consistent, fun k owner => consistent.binding_of_single,
    fun k b => consistent.of_binding_eq_ok, ?_, ?_, ?_⟩
  · intro k unbound replaced
    apply refuses_of_unknown unbound
    apply consistent.binding_of_unlisted unbound
    intro b kept listed
    have latest : Builder.latest past b.key = some b := by
      rw [← bindings_find? steps]
      exact find?_key kept
    obtain ⟨before, after, split, absent⟩ := Builder.split_of_latest latest
    obtain ⟨later, mem, same⟩ := replaced before b after split listed
    exact absent later mem same
  · rintro before s after b fault rfl offers refused
    have same := Builder.run_of_refused offers refused after
    change ofBindings _ = ofBindings _
    rw [same]
  · intro k reason objection
    exact refuses_of_unknown (consistent.not_mem_keys_of_objection objection)
      (consistent.binding_of_objection objection)

/-- The alias of a binding that was replaced is not served. -/
example : (ofSteps [.withPolicy .replace, .add ⟨"p", 0, none, ["a"]⟩, .add ⟨"p", 1, none, ["b"]⟩] :
    Registry String Nat).binding "a" = .error (.unknownKey "a" ["p"]) := by cbv

end Registry
end Registrar
