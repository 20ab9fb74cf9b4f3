import Registrar.Proofs.Registry.Composition

/-!
# The order of entries

A registry keeps its bindings and its index of aliases in maps that may be gone through in any
order, and the index is filled by going through the bindings. None of this shows in an answer, and
neither does the order in which the entries of a family are listed: what remains of the bindings is
which one is kept under which key.
-/

namespace Registrar

variable {K F P : Type} [DecidableEq K] [Key K]

namespace Builder

/-- All bindings of a list are added exactly if each is valid in itself and none finds its key
taken, unless it may take it over. -/
theorem addAll_succeeds_iff {builder : Builder K P} {bindings : List (Binding K P)} :
    (builder.addAll bindings).2.2 = none ↔
      (∀ b ∈ bindings, b.Valid) ∧ (builder.policy = .replace ∨
        (bindings.map (·.key)).Nodup ∧ ∀ b ∈ bindings, builder.bindings.find? b.key = none) := by
  induction bindings generalizing builder with
  | nil => simp [addAll]
  | cons b rest ih =>
    rw [addAll]
    cases added : builder.add b with
    | error fault =>
      have failed : ¬ ∃ result, builder.add b = .ok result := by simp [added]
      rw [exists_add_eq_ok_iff] at failed
      simp only [reduceCtorEq, false_iff]
      rintro ⟨valid, free⟩
      apply failed
      refine ⟨valid b List.mem_cons_self, ?_⟩
      exact free.symm.imp (fun h => h.2 b List.mem_cons_self) id
    | ok result =>
      obtain ⟨next, event⟩ := result
      obtain ⟨valid, free, rfl⟩ := of_add_eq_ok added
      change (addAll _ rest).2.2 = none ↔ _
      rw [ih, List.forall_mem_cons, List.forall_mem_cons, List.map_cons, List.nodup_cons]
      -- a later binding finds its key free if it was free before and is not the key of `b`
      have untaken : (∀ a ∈ rest, (builder.bindings.insert b.key b).find? a.key = none) ↔
          b.key ∉ rest.map (·.key) ∧ ∀ a ∈ rest, builder.bindings.find? a.key = none := by
        constructor
        · intro h
          constructor
          · intro mem
            obtain ⟨a, ha, same⟩ := List.mem_map.1 mem
            have taken := h a ha
            simp [same] at taken
          · intro a ha
            have free := h a ha
            rw [Table.find?_insert] at free
            split at free
            · cases free
            · exact free
        · rintro ⟨other, h⟩ a ha
          have ne : a.key ≠ b.key := fun same => other (List.mem_map.2 ⟨a, ha, same⟩)
          rw [Table.find?_insert_of_ne ne]
          exact h a ha
      rw [untaken]
      tauto

/-- Bindings with keys of their own are all kept. -/
theorem addAll_entries_perm {builder : Builder K P} {bindings : List (Binding K P)}
    (succeeds : (builder.addAll bindings).2.2 = none) (distinct : (bindings.map (·.key)).Nodup)
    (free : ∀ b ∈ bindings, builder.bindings.find? b.key = none) :
    (builder.addAll bindings).1.bindings.entries.Perm
      (bindings.map (fun b => (b.key, b)) ++ builder.bindings.entries) := by
  induction bindings generalizing builder with
  | nil => exact List.Perm.refl _
  | cons b rest ih =>
    rw [List.map_cons, List.nodup_cons] at distinct
    rw [List.forall_mem_cons] at free
    rw [addAll] at succeeds ⊢
    cases added : builder.add b with
    | error fault => simp [added] at succeeds
    | ok result =>
      obtain ⟨next, event⟩ := result
      rw [added] at succeeds
      obtain ⟨-, -, rfl⟩ := of_add_eq_ok added
      have untaken : ∀ a ∈ rest, (builder.bindings.insert b.key b).find? a.key = none := by
        intro a ha
        have ne : a.key ≠ b.key := fun same => distinct.1 (List.mem_map.2 ⟨a, ha, same⟩)
        rw [Table.find?_insert_of_ne ne]
        exact free.2 a ha
      have first := Table.entries_insert_perm_of_absent free.1 b
      exact (ih succeeds distinct.2 untaken).trans ((first.append_left _).trans List.perm_middle)

end Builder

namespace Registry

/-- The registry `s` keeps the bindings of `r` in any order. Its index was filled by going through
them in some order, and is kept in any order itself. -/
structure Rearranges (s r : Registry K P) : Prop where
  bindings : s.bindings.entries.Perm r.bindings.entries
  aliases : ∃ t : Table K (Binding K P), t.entries.Perm r.bindings.entries ∧
    s.aliases.entries.Perm (ofBindings t).aliases.entries

/-- Nothing that is asked of the one registry is answered differently by the other. -/
structure SameAnswers (r s : Registry K P) : Prop where
  binding : ∀ k, r.binding k = s.binding k
  resolve : ∀ k, r.resolve k = s.resolve k
  describe : ∀ k, r.describe k = s.describe k
  contains : ∀ k, r.contains k = s.contains k
  serves : ∀ k, r.serves k = s.serves k
  keys : r.keys.Perm s.keys
  size : r.size = s.size
  sortedLabels : r.sortedLabels = s.sortedLabels
  sortedBindings : r.sortedBindings = s.sortedBindings
  ensureCovers : ∀ expected, r.ensureCovers expected = s.ensureCovers expected

omit [Key K] in
theorem listings_perm {r s : Registry K P} (same : r.bindings.entries.Perm s.bindings.entries)
    (k : K) : (r.listings k).Perm (s.listings k) :=
  (same.map Prod.snd).flatMap_right _

namespace Rearranges

variable {r s s' : Registry K P}

omit [Key K] in
theorem refl (bindings : Table K (Binding K P)) :
    (ofBindings bindings).Rearranges (ofBindings bindings) :=
  ⟨.refl _, bindings, .refl _, .refl _⟩

omit [Key K] in
theorem congr {r' : Registry K P} (same : r.bindings.entries.Perm r'.bindings.entries)
    (arranged : s.Rearranges r) : s.Rearranges r' := by
  obtain ⟨bindings, t, filled, aliases⟩ := arranged
  exact ⟨bindings.trans same, t, filled.trans same, aliases⟩

omit [Key K] in
theorem owners_perm (arranged : s.Rearranges r) (k : K) :
    (s.owners k).Perm ((r.listings k).map (·.key)) := by
  obtain ⟨-, t, filled, aliases⟩ := arranged
  have indexed : s.owners k = (ofBindings t).owners k := by
    rw [owners, owners, Table.find?_eq_of_perm aliases]
  rw [indexed, owners_ofBindings]
  exact (listings_perm filled k).map _

theorem sortedLabels_eq (arranged : s.Rearranges r) : s.sortedLabels = r.sortedLabels :=
  Text.sort_eq_of_perm ((arranged.bindings.map Prod.fst).map _)

theorem binding_eq (arranged : s.Rearranges r) (arranged' : s'.Rearranges r) (k : K) :
    s.binding k = s'.binding k := by
  have bound (key : K) : s.bindings.find? key = s'.bindings.find? key :=
    Table.find?_eq_of_perm (arranged.bindings.trans arranged'.bindings.symm) key
  have unknown : s.unknown k = s'.unknown k := by
    rw [Registry.unknown, Registry.unknown, arranged.sortedLabels_eq, arranged'.sortedLabels_eq]
  have owners : (s.owners k).Perm (s'.owners k) :=
    (arranged.owners_perm k).trans (arranged'.owners_perm k).symm
  unfold Registry.owners at owners
  unfold Registry.binding
  rw [bound k]
  cases s'.bindings.find? k with
  | some b => rfl
  | none =>
    dsimp only
    generalize (s.aliases.find? k).getD [] = filed at owners ⊢
    generalize (s'.aliases.find? k).getD [] = filed' at owners ⊢
    -- no owner, one owner or more: the same on both sides
    cases filed with
    | nil =>
      rw [owners.nil_eq.symm]
      dsimp only
      rw [unknown]
    | cons a more =>
      cases more with
      | nil =>
        rw [List.perm_singleton.1 owners.symm]
        dsimp only
        rw [bound a, unknown]
      | cons b rest =>
        have labels : (Key.labels (a :: b :: rest)).Perm (Key.labels filed') := owners.map _
        obtain ⟨c, d, rest', rfl⟩ : ∃ c d rest', filed' = c :: d :: rest' := by
          obtain ⟨c, later, rfl⟩ := List.exists_cons_of_length_pos
            (show 0 < filed'.length by rw [← owners.length_eq]; simp)
          obtain ⟨d, rest', rfl⟩ := List.exists_cons_of_length_pos
            (show 0 < later.length by have := owners.length_eq; simp at this; omega)
          exact ⟨c, d, rest', rfl⟩
        dsimp only
        rw [Text.sort_eq_of_perm labels]

/-- Where every binding is kept under its own key, and the keys have labels of their own. -/
theorem sortedBindings_eq (arranged : s.Rearranges r)
    (kept : ∀ b ∈ r.bindings.values, r.bindings.find? b.key = some b)
    (labels : ∀ a ∈ r.bindings.values, ∀ b ∈ r.bindings.values,
      Key.label a.key = Key.label b.key → a.key = b.key) :
    s.sortedBindings = r.sortedBindings := by
  have same : s.bindings.values.Perm r.bindings.values := arranged.bindings.map Prod.snd
  apply Text.sortBy_eq_of_perm _ same
  intro a ha b hb sameLabel
  rw [same.mem_iff] at ha hb
  have found := kept a ha
  rw [labels a ha b hb sameLabel, kept b hb] at found
  exact (Option.some.inj found).symm

theorem sameAnswers (arranged : s.Rearranges r) (arranged' : s'.Rearranges r)
    (kept : ∀ b ∈ r.bindings.values, r.bindings.find? b.key = some b)
    (labels : ∀ a ∈ r.bindings.values, ∀ b ∈ r.bindings.values,
      Key.label a.key = Key.label b.key → a.key = b.key) : s.SameAnswers s' := by
  have same : s.bindings.entries.Perm s'.bindings.entries :=
    arranged.bindings.trans arranged'.bindings.symm
  have binding := arranged.binding_eq arranged'
  have serves (k : K) : s.serves k = s'.serves k := by rw [Registry.serves, binding]; rfl
  refine ⟨binding, ?_, ?_, ?_, serves, same.map _, same.length_eq, ?_, ?_, ?_⟩
  · intro k
    rw [Registry.resolve, binding]
    rfl
  · intro k
    rw [Registry.describe, binding]
    rfl
  · intro k
    rw [Registry.contains, Table.contains, Table.find?_eq_of_perm same]
    rfl
  · rw [arranged.sortedLabels_eq, arranged'.sortedLabels_eq]
  · rw [arranged.sortedBindings_eq kept labels, arranged'.sortedBindings_eq kept labels]
  · intro expected
    have unserved : s.unserved expected = s'.unserved expected := by
      simp only [Registry.unserved, serves]
    rw [Registry.ensureCovers, unserved]
    rfl

end Rearranges

end Registry

variable {make : Furnished F → P} {family : String} {entries entries' : List (Entry K F)}
  {config : Config}

omit [DecidableEq K] in
@[simp] theorem Entry.key_toBinding (e : Entry K F) (make : Furnished F → P)
    (settings : SettingsTable) : (e.toBinding make settings).key = e.key := rfl

omit [DecidableEq K] in
theorem map_key_toBinding (make : Furnished F → P) (settings : SettingsTable)
    (entries : List (Entry K F)) :
    (entries.map (·.toBinding make settings)).map (·.key) = entries.map (·.key) := by
  simp

/-- A composition succeeds exactly if every entry gives a valid binding and no key is given twice
where that is refused. -/
theorem isOk_compose_iff : (compose make family entries config).2.isOk = true ↔
    (∀ e ∈ entries, (e.toBinding make config.settings).Valid) ∧
      (config.registry.duplicatePolicy = .replace ∨ (entries.map (·.key)).Nodup) := by
  rw [← List.forall_mem_map, ← map_key_toBinding make config.settings, compose_result]
  generalize entries.map (·.toBinding make config.settings) = bindings
  have succeeds : ((Builder.new.withPolicy config.registry.duplicatePolicy).addAll
      bindings).2.2 = none ↔ _ := Builder.addAll_succeeds_iff
  have free : ∀ b ∈ bindings,
      (Builder.new.withPolicy config.registry.duplicatePolicy).bindings.find? b.key =
        (none : Option (Binding K P)) := fun _ _ => rfl
  rw [and_iff_left free] at succeeds
  refine Iff.trans ?_ succeeds
  dsimp only
  split
  · next failed => simp [failed, Except.isOk, Except.toBool]
  · next added => simp [added, Except.isOk, Except.toBool]

/-- A composed registry keeps the binding of every entry, each under its key. -/
theorem entries_perm_of_compose {r : Registry K P}
    (composed : (compose make family entries config).2 = .ok r)
    (distinct : (entries.map (·.key)).Nodup) :
    r.bindings.entries.Perm (entries.map fun e => (e.key, e.toBinding make config.settings)) := by
  rw [compose_result] at composed
  dsimp only at composed
  split at composed
  · cases composed
  · next added =>
    cases composed
    rw [← map_key_toBinding make config.settings] at distinct
    have kept := Builder.addAll_entries_perm added distinct fun _ _ => rfl
    rw [List.map_map] at kept
    simpa [Builder.new, Builder.withPolicy, Registry.ofBindings, Function.comp_def] using kept

/-- The order of entries does not matter. Where a key that is given twice is refused, or no key is
given twice, and keys have labels of their own, a composition of the same entries in another order
succeeds as well, and the two registries give the same answers, in whatever order their maps are
filled and gone through. -/
theorem composition_of_reordered (make : Furnished F → P) (family : String) (config : Config)
    (same : entries.Perm entries')
    (policy : config.registry.duplicatePolicy = .reject ∨ (entries.map (·.key)).Nodup)
    (labels : ∀ a ∈ entries, ∀ b ∈ entries, Key.label a.key = Key.label b.key → a.key = b.key) :
    let composed : Except Fault (Registry K P) := (compose make family entries config).2
    let composed' : Except Fault (Registry K P) := (compose make family entries' config).2
    composed.isOk = composed'.isOk ∧
      ∀ r r', composed = .ok r → composed' = .ok r' →
        ∀ s s' : Registry K P, s.Rearranges r → s'.Rearranges r' → s.SameAnswers s' := by
  intro composed composed'
  constructor
  · rw [Bool.eq_iff_iff, isOk_compose_iff, isOk_compose_iff]
    have keys : (entries.map (·.key)).Perm (entries'.map (·.key)) := same.map _
    simp only [same.mem_iff, keys.nodup_iff]
  · intro r r' found found' s s' arranged arranged'
    have distinct : (entries.map (·.key)).Nodup := by
      have succeeded : composed.isOk = true := by rw [found]; rfl
      obtain ⟨-, replaced | distinct⟩ := isOk_compose_iff.1 succeeded
      · rw [replaced] at policy
        simpa using policy
      · exact distinct
    have distinct' : (entries'.map (·.key)).Nodup := (same.map _).nodup_iff.1 distinct
    have kept := entries_perm_of_compose found distinct
    have kept' := entries_perm_of_compose found' distinct'
    have entriesSame : r'.bindings.entries.Perm r.bindings.entries :=
      kept'.trans ((same.symm.map _).trans kept.symm)
    have given : ∀ b ∈ r.bindings.values, ∃ e ∈ entries, e.key = b.key := by
      intro b hb
      have mem := (kept.map Prod.snd).mem_iff.1 hb
      rw [List.map_map] at mem
      obtain ⟨e, he, rfl⟩ := List.mem_map.1 mem
      exact ⟨e, he, rfl⟩
    apply arranged.sameAnswers (arranged'.congr entriesSame)
    · intro b hb
      rw [eq_ofSteps_of_compose found] at hb ⊢
      exact Registry.find?_key hb
    · intro a ha b hb sameLabel
      obtain ⟨e, he, ea⟩ := given a ha
      obtain ⟨e', he', eb⟩ := given b hb
      rw [← ea, ← eb] at sameLabel ⊢
      exact labels e he e' he' sameLabel

/-- Two entries that share an alias, of which one has another alias to itself. -/
def sharing : List (Entry String Nat) := [⟨"p", ["a"], "first", 0⟩, ⟨"q", ["a", "b"], "second", 1⟩]

def sharingComposed (entries : List (Entry String Nat)) : Registry String (Furnished Nat) :=
  .ofSteps (compositionSteps id entries .defaults)

/-- The shared alias is ambiguous and the other one is served, whichever entry comes first. -/
theorem composition_of_sharing_reversed :
    sharing.Perm sharing.reverse ∧ Config.defaults.registry.duplicatePolicy = .reject ∧
      (∀ a ∈ sharing, ∀ b ∈ sharing, Key.label a.key = Key.label b.key → a.key = b.key) ∧
      (sharingComposed sharing).SameAnswers (sharingComposed sharing.reverse) ∧
      (sharingComposed sharing).binding "a" = .error (.ambiguousKey "a" ["p", "q"]) ∧
      (sharingComposed sharing).serves "b" = true := by
  have same : sharing.Perm sharing.reverse := (List.reverse_perm _).symm
  have labels : ∀ a ∈ sharing, ∀ b ∈ sharing, Key.label a.key = Key.label b.key → a.key = b.key :=
    fun _ _ _ _ e => e
  have found : (compose id "family" sharing .defaults).2 = .ok (sharingComposed sharing) := by cbv
  have found' : (compose id "family" sharing.reverse .defaults).2 =
      .ok (sharingComposed sharing.reverse) := by cbv
  obtain ⟨-, answers⟩ :=
    composition_of_reordered id "family" .defaults same (Or.inl rfl) labels
  refine ⟨same, rfl, labels, ?_, by cbv, by cbv⟩
  exact answers _ _ found found' _ _ (.refl _) (.refl _)

end Registrar
