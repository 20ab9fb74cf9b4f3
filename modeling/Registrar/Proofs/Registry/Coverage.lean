import Registrar.Proofs.Registry.Alias
import Registrar.Proofs.Text.Bytes
import Registrar.Scope.World

/-!
# Keys that a registry does not serve

A key is served if a lookup finds a binding for it, and then only the provider of that binding can
fail. A check of coverage collects the keys of a list that are not served, each of them once.
-/

namespace Registrar

theorem nodup_eraseDups {α : Type} [DecidableEq α] (items : List α) : items.eraseDups.Nodup := by
  cases items with
  | nil => simp
  | cons a rest =>
    rw [List.eraseDups_cons, List.nodup_cons]
    constructor
    · intro again
      simp [List.mem_eraseDups] at again
    · exact nodup_eraseDups (rest.filter fun b => !b == a)
termination_by items.length
decreasing_by
  have shorter := List.length_filter_le (fun b => !b == a) rest
  simp only [List.length_cons]
  omega

namespace Registry

variable {K P : Type} [DecidableEq K] [Key K]

theorem serves_eq_true_iff {r : Registry K P} {k : K} :
    r.serves k = true ↔ ∃ b, r.binding k = .ok b := by
  unfold serves
  cases r.binding k <;> simp [Except.isOk, Except.toBool]

theorem serves_eq_false_iff {r : Registry K P} {k : K} :
    r.serves k = false ↔ ∃ fault, r.binding k = .error fault := by
  unfold serves
  cases r.binding k <;> simp [Except.isOk, Except.toBool]

/-- A lookup finds a binding of the registry, or it fails because there is none or too many. -/
theorem binding_cases (r : Registry K P) (k : K) :
    (∃ b ∈ r.bindings.values, r.binding k = .ok b) ∨ r.binding k = .error (r.unknown k) ∨
      ∃ candidates, r.binding k = .error (.ambiguousKey (Key.label k) candidates) := by
  unfold binding
  split
  · next b own => exact .inl ⟨b, Table.mem_values_iff.2 ⟨k, own⟩, rfl⟩
  · split
    · exact .inr (.inl rfl)
    · split
      · next owner b bound => exact .inl ⟨b, Table.mem_values_iff.2 ⟨_, bound⟩, rfl⟩
      · exact .inr (.inl rfl)
    · exact .inr (.inr ⟨_, rfl⟩)

/-- A key has no binding of its own, and no binding lists it or a lookup finds too many. -/
def Unserved (r : Registry K P) (k : K) : Prop :=
  k ∉ r.keys ∧ ((∀ b ∈ r.bindings.values, k ∉ b.aliases) ∨
    ∃ candidates, r.binding k = .error (.ambiguousKey (Key.label k) candidates))

theorem unserved_iff {steps : List (Builder.Step K P)} {k : K} :
    (ofSteps steps).Unserved k ↔ (ofSteps steps).serves k = false := by
  rw [serves_eq_false_iff]
  by_cases bound : k ∈ (ofSteps steps).keys
  · obtain ⟨b, found⟩ := Table.mem_keys_iff.1 bound
    have served : (ofSteps steps).binding k = .ok b := by rw [binding, found]
    simp [Unserved, bound, served]
  · have lookup := binding_eq_choose bound
    have listed : (∀ b ∈ (ofSteps steps).bindings.values, k ∉ b.aliases) ↔
        (ofSteps steps).listings k = [] := by
      rw [List.eq_nil_iff_forall_not_mem]
      simp only [mem_listings_iff, not_and]
    rw [Unserved, listed, lookup]
    rcases (ofSteps steps).listings k with _ | ⟨a, _ | ⟨c, rest⟩⟩
    · simp [bound, choose]
    · simp [choose]
    · simp [bound, choose]

theorem create_of_found {V : Type} {r : Registry K P} {k : K} {b : Binding K P}
    (found : r.binding k = .ok b) (provide : P → Except Fault V) :
    r.create provide k = (provide b.provider).mapError (.provider (Key.label b.key)) := by
  rw [create, found]
  rfl

theorem create_eq_error_iff {V : Type} {provide : P → Except Fault V} {r : Registry K P} {k : K}
    {b : Binding K P} {fault : Fault} (found : r.binding k = .ok b) :
    r.create provide k = .error fault ↔
      ∃ source, provide b.provider = .error source ∧ fault = .provider (Key.label b.key) source := by
  rw [create_of_found found]
  cases provide b.provider <;> simp [Except.mapError, eq_comm]

/-- Whatever a provider does before it answers, its own failure is all that creating can fail
with. -/
theorem of_create_eq_error {H V : Type} [DecidableEq H] [DecidableEq P]
    {conduct : Conduct H K P V} {depth : Nat} {r : Registry K P} {k : K} {b : Binding K P}
    {w w' : World H K P V} {fault : Fault} (found : r.binding k = .ok b)
    (failed : World.create conduct depth r k w = some (.error fault, w')) :
    ∃ source, World.call conduct (World.get conduct depth) none b.provider w =
        some (.error source, w') ∧ fault = .provider (Key.label b.key) source := by
  unfold World.create World.createFrom at failed
  rw [found] at failed
  obtain ⟨⟨reply, w₁⟩, called, e⟩ := Option.map_eq_some_iff.1 failed
  cases reply with
  | error source =>
    cases e
    exact ⟨source, called, rfl⟩
  | ok made => cases e

theorem mem_unserved_iff {r : Registry K P} {expected : List K} {k : K} :
    k ∈ r.unserved expected ↔ k ∈ expected ∧ r.serves k = false := by
  simp [unserved, List.mem_eraseDups]

theorem unserved_nodup (r : Registry K P) (expected : List K) : (r.unserved expected).Nodup :=
  nodup_eraseDups _

theorem unserved_eq_nil_iff {r : Registry K P} {expected : List K} :
    r.unserved expected = [] ↔ ∀ k ∈ expected, r.serves k = true := by
  simp [List.eq_nil_iff_forall_not_mem, mem_unserved_iff]

theorem ensureCovers_eq_ok {r : Registry K P} {expected : List K}
    (covered : r.unserved expected = []) : r.ensureCovers expected = .ok () := by
  rw [ensureCovers, covered]

theorem ensureCovers_eq_error {r : Registry K P} {expected : List K}
    (uncovered : r.unserved expected ≠ []) : r.ensureCovers expected =
      .error (.incompleteRegistry (Text.sort (Key.labels (r.unserved expected)))) := by
  unfold ensureCovers
  split
  · next covered => exact absurd covered uncovered
  · rfl

theorem ensureCovers_eq_ok_iff {r : Registry K P} {expected : List K} :
    r.ensureCovers expected = .ok () ↔ ∀ k ∈ expected, r.serves k = true := by
  rw [← unserved_eq_nil_iff]
  refine ⟨fun covered => ?_, ensureCovers_eq_ok⟩
  by_contra uncovered
  rw [ensureCovers_eq_error uncovered] at covered
  cases covered

/-- Which keys are not served does not depend on the order of a list, nor on repetitions in it. -/
theorem unserved_perm {r : Registry K P} {expected others : List K}
    (same : ∀ k, k ∈ expected ↔ k ∈ others) :
    (r.unserved expected).Perm (r.unserved others) := by
  rw [List.perm_ext_iff_of_nodup (unserved_nodup r expected) (unserved_nodup r others)]
  intro k
  rw [mem_unserved_iff, mem_unserved_iff, same]

theorem ensureCovers_eq_of_same {r : Registry K P} {expected others : List K}
    (same : ∀ k, k ∈ expected ↔ k ∈ others) :
    r.ensureCovers expected = r.ensureCovers others := by
  have perm := unserved_perm (r := r) same
  by_cases covered : r.unserved expected = []
  · have coveredOthers : r.unserved others = [] := by simpa [covered] using perm.symm
    rw [ensureCovers_eq_ok covered, ensureCovers_eq_ok coveredOthers]
  · have uncoveredOthers : r.unserved others ≠ [] := fun e => covered (by simpa [e] using perm)
    have labels : (Key.labels (r.unserved expected)).Perm (Key.labels (r.unserved others)) :=
      perm.map Key.label
    rw [ensureCovers_eq_error covered, ensureCovers_eq_error uncoveredOthers,
      Text.sort_eq_of_perm labels]

theorem toFinset_unserved (r : Registry K P) (expected : List K) :
    (r.unserved expected).toFinset = {k ∈ expected.toFinset | r.serves k = false} := by
  ext k
  rw [List.mem_toFinset, mem_unserved_iff, Finset.mem_filter, List.mem_toFinset]

theorem serves_eq_true_iff_resolve {r : Registry K P} {k : K} :
    r.serves k = true ↔ ∃ p, r.resolve k = .ok p := by
  rw [serves_eq_true_iff, resolve]
  cases r.binding k <;> simp [Except.map]

/-- A key is served by a binding of its own, or else by the single time that it is listed. -/
theorem serves_ofSteps {steps : List (Builder.Step K P)} {k : K} :
    (ofSteps steps).serves k = true ↔ k ∈ (ofSteps steps).keys ∨
      ((ofSteps steps).bindings.values.flatMap (·.aliases)).count k = 1 := by
  rw [serves_eq_true_iff]
  by_cases bound : k ∈ (ofSteps steps).keys
  · obtain ⟨b, found⟩ := Table.mem_keys_iff.1 bound
    have served : (ofSteps steps).binding k = .ok b := by rw [binding, found]
    simp [bound, served]
  · have listed : ((ofSteps steps).bindings.values.flatMap (·.aliases)).count k =
        ((ofSteps steps).listings k).length := by
      rw [length_listings, List.count_flatMap]
      rfl
    rw [binding_eq_choose bound, listed, List.length_eq_one_iff]
    simp [choose_eq_ok_iff, bound]

/-- A check of coverage succeeds exactly if every expected key is served, which is to say that it
has a binding of its own or is listed exactly once. Otherwise the fault holds the labels of the
expected keys that are not served, one for each such key, in the order of their bytes. So neither
the order of the list nor repetitions in it matter, and a list is covered exactly if both of its
parts are. -/
theorem check_of_coverage (steps : List (Builder.Step K P)) (expected : List K) :
    let r := ofSteps steps
    (∀ k, (r.serves k = true ↔ ∃ p, r.resolve k = .ok p) ∧
      (r.serves k = true ↔
        k ∈ r.keys ∨ (r.bindings.values.flatMap (·.aliases)).count k = 1)) ∧
    (r.ensureCovers expected = .ok () ↔ ∀ k ∈ expected, r.serves k = true) ∧
    (∀ fault, r.ensureCovers expected = .error fault →
      ∃ missing, fault = .incompleteRegistry missing ∧
        missing.Pairwise (fun a b => Text.bytes a ≤ Text.bytes b) ∧
        (missing : Multiset String) =
          ({k ∈ expected.toFinset | r.serves k = false} : Finset K).val.map Key.label) ∧
    (∀ others, (∀ k, k ∈ expected ↔ k ∈ others) →
      r.ensureCovers expected = r.ensureCovers others) ∧
    (∀ more, r.ensureCovers (expected ++ more) = .ok () ↔
      r.ensureCovers expected = .ok () ∧ r.ensureCovers more = .ok ()) := by
  intro r
  refine ⟨fun k => ⟨serves_eq_true_iff_resolve, serves_ofSteps⟩, ensureCovers_eq_ok_iff, ?_,
    fun others => ensureCovers_eq_of_same, fun more => ?_⟩
  · intro fault failed
    have uncovered : r.unserved expected ≠ [] := by
      intro covered
      rw [ensureCovers_eq_ok covered] at failed
      cases failed
    rw [ensureCovers_eq_error uncovered] at failed
    cases failed
    refine ⟨_, rfl, ?_, ?_⟩
    · simpa only [Text.bytes_le_iff] using Text.sort_ascending _
    · rw [Multiset.coe_eq_coe.2 (Text.sort_perm _), ← toFinset_unserved, List.toFinset_val,
        (unserved_nodup r expected).dedup]
      rfl
  · simp only [ensureCovers_eq_ok_iff, List.mem_append, or_imp, forall_and]

end Registry
end Registrar
