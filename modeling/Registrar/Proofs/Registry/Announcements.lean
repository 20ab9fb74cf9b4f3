import Registrar.Proofs.Registry.Isolation

/-!
# What a builder reports

Every addition is reported by one event, which can be told from the bindings that were accepted
before: it names the description that it puts an end to, if there is one. So the events of a run
account for what the builder holds, and a composition ends its events by saying how it came out.
-/

namespace Registrar

variable {K F P : Type} [DecidableEq K] [Key K]

namespace Builder

/-- The event of adding a binding to a past. -/
def announce (past : List (Binding K P)) (b : Binding K P) : Event :=
  match latest past b.key with
  | none => .bindingRegistered (Key.name b.key)
  | some previous => .bindingReplaced (Key.name b.key) previous.description

/-- The events of adding bindings to a past, one after the other. -/
def announcements (past : List (Binding K P)) : List (Binding K P) → List Event
  | [] => []
  | b :: rest => announce past b :: announcements (past ++ [b]) rest

/-- How many first bindings of a key are reported. -/
def registrations (events : List Event) : Nat :=
  events.countP fun e => match e with
    | .bindingRegistered _ => true
    | _ => false

theorem announcements_append (past first second : List (Binding K P)) :
    announcements past (first ++ second) =
      announcements past first ++ announcements (past ++ first) second := by
  induction first generalizing past with
  | nil => simp [announcements]
  | cons b rest ih => simp [announcements, ih]

theorem registrations_announce (past : List (Binding K P)) (b : Binding K P) :
    registrations [announce past b] = if b.key ∈ past.map (·.key) then 0 else 1 := by
  have taken : b.key ∈ past.map (·.key) ↔ latest past b.key ≠ none := by
    rw [Ne, latest_eq_none_iff, List.mem_map]
    push Not
    rfl
  rw [announce]
  cases found : latest past b.key <;> simp [taken, found, registrations]

/-- A key is reported as registered when it is met for the first time. -/
theorem registrations_announcements (past more : List (Binding K P)) :
    (past.map (·.key)).toFinset.card + registrations (announcements past more) =
      ((past ++ more).map (·.key)).toFinset.card := by
  induction more generalizing past with
  | nil => simp [announcements, registrations]
  | cons b rest ih =>
    have first : (past.map (·.key)).toFinset.card + registrations [announce past b] =
        ((past ++ [b]).map (·.key)).toFinset.card := by
      rw [registrations_announce, List.map_append, List.toFinset_append]
      by_cases taken : b.key ∈ past.map (·.key)
      · have known : b.key ∈ (past.map (·.key)).toFinset := List.mem_toFinset.2 taken
        rw [if_pos taken, Finset.union_eq_left.2 (by simpa using known), Nat.add_zero]
      · rw [if_neg taken, Finset.card_union_of_disjoint (by simpa using taken)]
        rfl
    have parts : registrations (announcements past (b :: rest)) =
        registrations [announce past b] + registrations (announcements (past ++ [b]) rest) := by
      rw [registrations, registrations, registrations, ← List.countP_append]
      rfl
    rw [parts, ← Nat.add_assoc, first, ih, List.append_assoc, List.singleton_append]

variable {builder next : Builder K P} {past : List (Binding K P)} {b : Binding K P} {event : Event}

theorem event_of_add (h : builder.Remembers past) (added : builder.add b = .ok (next, event)) :
    event = announce past b := by
  obtain ⟨valid, free, -⟩ := of_add_eq_ok added
  rw [announce, ← h.find?]
  cases found : builder.bindings.find? b.key with
  | none =>
    rw [add_of_absent valid found] at added
    cases added
    rfl
  | some previous =>
    have replacing : builder.policy = .replace := by simpa [found] using free
    rw [add_of_present valid found, replacing] at added
    cases added
    rfl

theorem events_addAll (h : builder.Remembers past) (bindings : List (Binding K P)) :
    (builder.addAll bindings).2.1 = announcements past (builder.admitted bindings) := by
  induction bindings generalizing builder past with
  | nil => rfl
  | cons b rest ih =>
    rw [addAll, admitted]
    cases added : builder.add b with
    | error fault => rfl
    | ok result =>
      dsimp only
      rw [ih (h.of_add added), event_of_add h added, announcements]

theorem events_step (h : builder.Remembers past) (s : Step K P) :
    (builder.step s).2.1 = announcements past (builder.admitted s.offers) := by
  cases s with
  | withPolicy policy => rfl
  | _ => exact events_addAll h _

/-- The events of a run are told from the bindings that it adds. -/
theorem events_run (h : builder.Remembers past) (steps : List (Step K P)) :
    (builder.run steps).2 = announcements past (builder.accepted steps) := by
  induction steps generalizing builder past with
  | nil => rfl
  | cons s rest ih =>
    rw [run, accepted, announcements_append]
    dsimp only
    rw [events_step h, ih (h.step s)]

theorem registrations_run (steps : List (Step K P)) :
    registrations (new.run steps : Builder K P × List Event).2 = (new.run steps).1.size := by
  have counted := registrations_announcements [] (new.accepted steps)
  have size : (new.run steps).1.size = (Registry.ofSteps steps).size := rfl
  rw [size, Registry.size_eq_card, Registry.keys_toFinset, events_run remembers_new]
  simpa using counted

theorem describe_build {previous : Binding K P}
    (found : builder.bindings.find? b.key = some previous) :
    builder.build.1.describe b.key = some previous.description := by
  have served : builder.build.1.binding b.key = .ok previous := by
    rw [Registry.binding, show builder.build.1.bindings.find? b.key = some previous from found]
  rw [Registry.describe, served]

/-- An event that says how a composition has come out. -/
def endsComposition : Event → Bool
  | .registryComposed _ _ | .compositionFailed _ _ => true
  | _ => false

theorem filter_announcements (past more : List (Binding K P)) :
    (announcements past more).filter endsComposition = [] := by
  induction more generalizing past with
  | nil => rfl
  | cons b rest ih =>
    have passed : endsComposition (announce past b) = false := by
      unfold announce
      cases latest past b.key <;> rfl
    rw [announcements, List.filter_cons_of_neg (by simp [passed]), ih]

variable {make : Furnished F → P} {family : String} {entries : List (Entry K F)} {config : Config}

/-- A composed registry has one binding for each key among the entries. -/
theorem size_of_compose {r : Registry K P}
    (composed : (compose make family entries config).2 = .ok r) :
    r.size = (entries.map (·.key)).toFinset.card := by
  have bound : r.keys.toFinset = (entries.map (·.key)).toFinset := by
    ext k
    rw [List.mem_toFinset, List.mem_toFinset, ← not_iff_not, Registry.keys,
      ← Table.find?_eq_none_iff, find?_of_compose composed]
    simp [Entry.last?]
  rw [Registry.size_eq_card, bound]

theorem filter_compose : (compose make family entries config).1.filter endsComposition =
    match (compose make family entries config).2 with
    | .ok _ => [.registryComposed family (entries.map (·.key)).toFinset.card]
    | .error fault => [.compositionFailed family fault.message] := by
  have remembers : (Builder.new.withPolicy config.registry.duplicatePolicy : Builder K P).Remembers
      [] := remembers_new.withPolicy _
  have additions := events_addAll remembers (entries.map (·.toBinding make config.settings))
  cases composed : (compose make family entries config).2 with
  | error fault =>
    unfold compose addEntries at composed ⊢
    dsimp only at composed ⊢
    split at composed
    · next builder events other failed =>
      rw [failed] at additions
      cases composed
      dsimp only at additions ⊢
      rw [additions, List.filter_append, filter_announcements]
      rfl
    · cases composed
  | ok r =>
    have size := size_of_compose composed
    unfold compose addEntries at composed ⊢
    dsimp only at composed ⊢
    split at composed
    · cases composed
    · next builder events added =>
      rw [added] at additions
      cases composed
      dsimp only at additions ⊢
      rw [additions, List.filter_append, filter_announcements, size]
      rfl

/-- The events of a run on a new builder are those of the additions that succeed, one for each: the
first binding of a key is reported as registered, and a later one as replacing what describing the
key has given before it. So at every moment the builder holds as many bindings as have been reported
as registered, and as many are reported when it is built. A composition reports exactly once how it
comes out: with the number of keys among the entries, or with the text of the fault. -/
theorem events_account_for_bindings (steps : List (Step K P)) :
    let builder : Builder K P := (new.run steps).1
    let events := (new.run steps : Builder K P × List Event).2
    (registrations events = builder.size ∧ builder.build.1.size = builder.size ∧
      builder.build.2 = .registryBuilt (registrations events) builder.policy) ∧
    events = announcements [] (new.accepted steps) ∧
    (∀ b : Binding K P,
      (∃ fault, builder.add b = .error fault ∧ builder.step (.add b) = (builder, [], some fault)) ∨
      ∃ next event, builder.add b = .ok (next, event) ∧
        builder.step (.add b) = (next, [event], none) ∧
        (b.key ∉ builder.bindings.keys ∧ event = .bindingRegistered (Key.name b.key) ∨
          b.key ∈ builder.bindings.keys ∧ ∃ previous,
            builder.build.1.describe b.key = some previous ∧
            event = .bindingReplaced (Key.name b.key) previous)) ∧
    ∀ (make : Furnished F → P) (family : String) (entries : List (Entry K F)) (config : Config),
      (compose make family entries config).1.filter endsComposition =
        match (compose make family entries config).2 with
        | .ok _ => [.registryComposed family (entries.map (·.key)).toFinset.card]
        | .error fault => [.compositionFailed family fault.message] := by
  intro builder events
  have remembers : builder.Remembers (new.accepted steps) := remembers_run steps
  have counted : registrations events = builder.size := registrations_run steps
  refine ⟨⟨counted, rfl, by rw [counted]; rfl⟩, events_run remembers_new steps, ?_,
    fun _ _ _ _ => filter_compose⟩
  intro b
  rw [step_of_offers rfl, addAll]
  cases added : builder.add b with
  | error fault => exact .inl ⟨fault, rfl, rfl⟩
  | ok result =>
    obtain ⟨next, event⟩ := result
    refine .inr ⟨next, event, rfl, rfl, ?_⟩
    rw [event_of_add remembers added, announce, ← remembers.find?, ← Table.find?_eq_none_iff,
      Table.mem_keys_iff]
    cases found : builder.bindings.find? b.key with
    | none => exact .inl ⟨rfl, rfl⟩
    | some previous => exact .inr ⟨⟨previous, rfl⟩, _, describe_build found, rfl⟩

end Builder
end Registrar
