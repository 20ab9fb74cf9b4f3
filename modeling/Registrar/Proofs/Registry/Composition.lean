import Registrar.Proofs.Registry.Coverage
import Registrar.Registry.Composition

/-!
# Composed registries

A composition is a run of a builder: the policy of the configuration is set, and then all entries
are added. A closed family passes a gate on top of that, which lets the registry through if it
serves every key of the family.
-/

namespace Registrar

variable {F P : Type}

section Compositions

variable {K : Type} [DecidableEq K] [Key K]

/-- The run of a builder that a composition makes. -/
def compositionSteps (make : Furnished F → P) (entries : List (Entry K F)) (config : Config) :
    List (Builder.Step K P) :=
  [.withPolicy config.registry.duplicatePolicy,
    .addAll (entries.map (·.toBinding make config.settings))]

variable {make : Furnished F → P} {family : String} {entries : List (Entry K F)} {config : Config}

theorem compose_result : (compose make family entries config).2 =
    let added := (Builder.new.withPolicy config.registry.duplicatePolicy).addAll
      (entries.map (·.toBinding make config.settings))
    match added.2.2 with
    | some fault => .error fault
    | none => .ok (.ofBindings added.1.bindings) := by
  unfold compose Builder.addEntries
  dsimp only
  split
  · next added => rw [added]
  · next added =>
    rw [added]
    rfl

theorem eq_ofSteps_of_compose {r : Registry K P}
    (composed : (compose make family entries config).2 = .ok r) :
    r = .ofSteps (compositionSteps make entries config) := by
  rw [compose_result] at composed
  dsimp only at composed
  split at composed
  · cases composed
  · cases composed
    rfl

variable {variants : List K}

theorem composeCovering_of_unchecked (unchecked : config.registry.requireComplete = false) :
    composeCovering variants make family entries config = compose make family entries config := by
  unfold composeCovering
  split
  · next events fault composed => rw [composed]
  · next events r composed => simp [unchecked, composed]

theorem composeCovering_of_failed {fault : Fault}
    (failed : (compose make family entries config).2 = .error fault) :
    composeCovering variants make family entries config = compose make family entries config := by
  unfold composeCovering
  split
  · next events fault composed => rw [composed]
  · next events r composed =>
    rw [composed] at failed
    cases failed

theorem composeCovering_of_composed {r : Registry K P}
    (checked : config.registry.requireComplete = true)
    (composed : (compose make family entries config).2 = .ok r) :
    (composeCovering variants make family entries config).2 =
      (r.ensureCovers variants).map fun _ => r := by
  unfold composeCovering
  split
  · next events fault failed =>
    rw [failed] at composed
    cases composed
  · next events r' found =>
    rw [found] at composed
    cases composed
    rw [if_pos checked]
    cases r.ensureCovers variants <;> rfl

theorem composeCovering_of_served {r : Registry K P}
    (composed : (compose make family entries config).2 = .ok r)
    (served : ∀ k ∈ variants, r.serves k = true) :
    (composeCovering variants make family entries config).2 = .ok r := by
  cases checked : config.registry.requireComplete with
  | false => rw [composeCovering_of_unchecked checked, composed]
  | true =>
    have covered := Registry.ensureCovers_eq_ok (Registry.unserved_eq_nil_iff.2 served)
    rw [composeCovering_of_composed checked composed, covered]
    rfl

theorem composeCovering_eq_ok {r : Registry K P} (checked : config.registry.requireComplete = true)
    (passed : (composeCovering variants make family entries config).2 = .ok r) :
    (compose make family entries config).2 = .ok r ∧ ∀ k ∈ variants, r.serves k = true := by
  cases composed : (compose make family entries config).2 with
  | error fault =>
    rw [composeCovering_of_failed composed, composed] at passed
    cases passed
  | ok r' =>
    rw [composeCovering_of_composed checked composed] at passed
    by_cases covered : r'.unserved variants = []
    · rw [Registry.ensureCovers_eq_ok covered] at passed
      cases passed
      exact ⟨rfl, Registry.unserved_eq_nil_iff.1 covered⟩
    · rw [Registry.ensureCovers_eq_error covered] at passed
      cases passed

end Compositions

variable {K : Type} [DecidableEq K] [ClosedKey K] {H V : Type} [DecidableEq H] [DecidableEq P]

/-- The gate of a closed family. With the check switched off, and where composition fails, the gate
changes nothing. Otherwise it lets the registry through or names the keys of the family that are
not served, each once and in ascending order of labels. A registry that it lets through finds a
binding for every key of the family, so creating under such a key fails only as the provider of that
binding does, and under the label of that binding. -/
theorem closed_family_gate (make : Furnished F → P) (family : String) (entries : List (Entry K F))
    (config : Config) :
    let composed := compose make family entries config
    let gated := composeClosed make family entries config
    (config.registry.requireComplete = false → gated = composed) ∧
    (∀ fault, composed.2 = .error fault → gated = composed) ∧
    (config.registry.requireComplete = true →
      (∀ r, gated.2 = .ok r → composed.2 = .ok r ∧
        ∀ k ∈ (ClosedKey.variants : List K), ∃ b, r.binding k = .ok b ∧
          (∀ (provide : P → Except Fault V) fault, r.create provide k = .error fault →
            ∃ source, provide b.provider = .error source ∧
              fault = .provider (Key.label b.key) source) ∧
          ∀ (conduct : Conduct H K P V) depth (w w' : World H K P V) fault,
            World.create conduct depth r k w = some (.error fault, w') →
              ∃ source, World.call conduct (World.get conduct depth) none b.provider w =
                some (.error source, w') ∧ fault = .provider (Key.label b.key) source) ∧
      ∀ r, composed.2 = .ok r →
        gated.2 = .ok r ∨
        ∃ (labels : List String) (missing : List K),
          gated.2 = .error (.incompleteRegistry labels) ∧ labels.Pairwise (· ≤ ·) ∧
          labels.Perm (Key.labels missing) ∧ missing ≠ [] ∧ missing.Nodup ∧
          ∀ k, k ∈ missing ↔ k ∈ (ClosedKey.variants : List K) ∧ r.Unserved k) := by
  intro composed gated
  refine ⟨composeCovering_of_unchecked, fun _ => composeCovering_of_failed, ?_⟩
  intro checked
  constructor
  · intro r passed
    obtain ⟨found, served⟩ := composeCovering_eq_ok checked passed
    refine ⟨found, ?_⟩
    intro k mem
    obtain ⟨b, bound⟩ := Registry.serves_eq_true_iff.1 (served k mem)
    refine ⟨b, bound, ?_, ?_⟩
    · intro provide fault failed
      exact (Registry.create_eq_error_iff bound).1 failed
    · intro conduct depth w w' fault failed
      exact Registry.of_create_eq_error bound failed
  · intro r found
    have result : gated.2 = (r.ensureCovers ClosedKey.variants).map fun _ => r :=
      composeCovering_of_composed checked found
    by_cases covered : r.unserved ClosedKey.variants = []
    · left
      rw [result, Registry.ensureCovers_eq_ok covered]
      rfl
    · right
      refine ⟨_, r.unserved ClosedKey.variants, ?_, Text.sort_ascending _, Text.sort_perm _,
        covered, r.unserved_nodup _, ?_⟩
      · rw [result, Registry.ensureCovers_eq_error covered]
        rfl
      · intro k
        rw [Registry.mem_unserved_iff, eq_ofSteps_of_compose found, Registry.unserved_iff]

end Registrar
