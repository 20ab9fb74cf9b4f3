import Registrar.Proofs.Registry.Reordering
import Registrar.Proofs.Registry.Representation

/-!
# Settings are kept apart

Which entry serves a key does not depend on settings. Creating under the key calls the factory of
that entry once, with the settings filed under the label of the entry's own key. So two compositions
that agree on that one table create alike, whatever is filed under other names, be it the name of
the alias that was asked for or the short name of the key.
-/

namespace Registrar

namespace World

variable {H K P V α : Type}

/-- The providers that have been called, newest first. -/
def calls (w : World H K P V) : List P :=
  w.history.filterMap fun h => match h with
    | .called maker _ => some maker
    | _ => none

/-- Requests are answered without calling a provider. -/
def Callless (respond : Responder H K P V) : Prop :=
  ∀ ⦃scope key w reply w'⦄, respond scope key w = some (reply, w') → w'.calls = w.calls

variable {conduct : Conduct H K P V} {respond : Responder H K P V} {w w' : World H K P V}

theorem lasting_calls : Lasting fun w w' : World H K P V => w'.calls = w.calls where
  refl _ := rfl
  trans first second := second.trans first
  reported _ _ := rfl
  notified _ _ := rfl

theorem Callless.carryOut (callless : Callless respond) {errand : Errand H K (Reply P V) α}
    {result : α} (ran : World.carryOut respond errand w = some (result, w')) :
    w'.calls = w.calls :=
  lasting_calls.carryOut callless ran

variable [DecidableEq P] {purpose : Option (H × K)} {reply : Reply P V}

/-- Apart from what its requests lead to, a call is one call. -/
theorem Callless.call (callless : Callless respond) {maker : P}
    (called : World.call conduct respond purpose maker w = some (reply, w')) :
    w'.calls = maker :: w.calls := by
  have begun : (w.record (.called maker (w.callsOf maker + 1))).calls = maker :: w.calls := rfl
  unfold World.call at called
  dsimp only at called
  split at called
  · cases called
  all_goals
    next w₁ ran =>
    cases called
    exact (callless.carryOut ran).trans begun

variable [DecidableEq K] [Key K]

theorem createFrom_of_binding {registry : Registry K P} {key : K} {b : Binding K P}
    (found : registry.binding key = .ok b) (conduct : Conduct H K P V)
    (respond : Responder H K P V) (purpose : Option (H × K)) (w : World H K P V) :
    createFrom conduct respond purpose registry key w =
      (World.call conduct respond purpose b.provider w).map fun (reply, w) =>
        (reply.mapError (.provider (Key.label b.key)), w) := by
  rw [createFrom, found]

theorem Callless.createFrom (callless : Callless respond) {registry : Registry K P} {key : K}
    {b : Binding K P} (found : registry.binding key = .ok b)
    (created : World.createFrom conduct respond purpose registry key w = some (reply, w')) :
    w'.calls = b.provider :: w.calls := by
  rw [createFrom_of_binding found] at created
  obtain ⟨⟨reply₁, w₁⟩, called, e⟩ := Option.map_eq_some_iff.1 created
  cases e
  exact callless.call called

end World

variable {K F P : Type} [DecidableEq K] [Key K]

namespace Builder

theorem admitted_eq {builder : Builder K P} {bindings : List (Binding K P)}
    (succeeds : (builder.addAll bindings).2.2 = none) : builder.admitted bindings = bindings := by
  induction bindings generalizing builder with
  | nil => rfl
  | cons b rest ih =>
    rw [addAll] at succeeds
    rw [admitted]
    cases added : builder.add b with
    | error fault => simp [added] at succeeds
    | ok result =>
      rw [added] at succeeds
      dsimp only
      rw [ih succeeds]

end Builder

namespace Entry

/-- The entry of a family that comes last among those with a key. -/
def last? (entries : List (Entry K F)) (k : K) : Option (Entry K F) :=
  (entries.filter (·.key = k)).getLast?

omit [Key K] in
theorem key_of_last? {entries : List (Entry K F)} {k : K} {e : Entry K F}
    (last : last? entries k = some e) : e.key = k := by
  simpa using (List.mem_filter.1 (List.mem_of_getLast? last)).2

omit [DecidableEq K] in
theorem aliases_toBinding (e : Entry K F) (make : Furnished F → P) (settings : SettingsTable) :
    (e.toBinding make settings).aliases = e.aliases := by
  simp [toBinding, Binding.new, Binding.withDescription, Binding.withAliases]

omit [DecidableEq K] in
theorem valid_toBinding_iff (e : Entry K F) (make : Furnished F → P)
    (settings settings' : SettingsTable) :
    (e.toBinding make settings).Valid ↔ (e.toBinding make settings').Valid := by
  simp only [Binding.Valid, key_toBinding, aliases_toBinding]

end Entry

variable {make : Furnished F → P} {family : String} {entries : List (Entry K F)}
  {config config' : Config} {r r' : Registry K P}

/-- A composed registry keeps the binding of the last entry with a key. -/
theorem find?_of_compose (composed : (compose make family entries config).2 = .ok r) (k : K) :
    r.bindings.find? k = (Entry.last? entries k).map (·.toBinding make config.settings) := by
  have added : ((Builder.new.withPolicy config.registry.duplicatePolicy).addAll
      (entries.map (·.toBinding make config.settings))).2.2 = none := by
    rw [compose_result] at composed
    dsimp only at composed
    split at composed
    · cases composed
    · next added => exact added
  have accepted : (Builder.new : Builder K P).accepted (compositionSteps make entries config) =
      entries.map (·.toBinding make config.settings) := by
    change [] ++ (Builder.admitted _ _ ++ []) = _
    rw [List.nil_append, List.append_nil]
    exact Builder.admitted_eq added
  rw [eq_ofSteps_of_compose composed, Registry.bindings_find?, accepted, Builder.latest,
    Entry.last?, List.filter_map, List.getLast?_map]
  rfl

theorem isOk_compose_of_policy
    (policy : config.registry.duplicatePolicy = config'.registry.duplicatePolicy)
    (composed : (compose make family entries config).2 = .ok r) :
    ∃ r' : Registry K P, (compose make family entries config').2 = .ok r' := by
  have succeeded : (compose make family entries config).2.isOk = true := by rw [composed]; rfl
  rw [isOk_compose_iff, policy] at succeeded
  obtain ⟨valid, free⟩ := succeeded
  have valid' : ∀ e ∈ entries, (e.toBinding make config'.settings).Valid :=
    fun e mem => (e.valid_toBinding_iff make _ _).1 (valid e mem)
  have succeeds : (compose make family entries config').2.isOk = true :=
    isOk_compose_iff.2 ⟨valid', free⟩
  cases result : (compose make family entries config').2 with
  | error fault => rw [result] at succeeds; cases succeeds
  | ok r' => exact ⟨r', rfl⟩

namespace Registry

theorem consistent_of_compose (composed : (compose make family entries config).2 = .ok r) :
    r.Consistent := by
  rw [eq_ofSteps_of_compose composed]
  exact consistent_ofSteps _

/-- Settings do not change who is listed under an alias. -/
theorem owners_perm_of_compose (composed : (compose make family entries config).2 = .ok r)
    (composed' : (compose make family entries config').2 = .ok r') (k : K) :
    (r.owners k).Perm (r'.owners k) := by
  rw [List.perm_iff_count]
  intro p
  rw [(consistent_of_compose composed).count, (consistent_of_compose composed').count,
    find?_of_compose composed, find?_of_compose composed']
  cases Entry.last? entries p with
  | none => rfl
  | some e => simp [Entry.aliases_toBinding]

/-- The entry behind what a lookup finds, which other settings do not change. -/
theorem binding_of_compose {k : K} {b : Binding K P}
    (composed : (compose make family entries config).2 = .ok r)
    (composed' : (compose make family entries config').2 = .ok r') (served : r.binding k = .ok b) :
    ∃ e, Entry.last? entries b.key = some e ∧ (k = e.key ∨ k ∈ e.aliases) ∧
      r.binding k = .ok (e.toBinding make config.settings) ∧
      r'.binding k = .ok (e.toBinding make config'.settings) := by
  have consistent := consistent_of_compose composed
  obtain ⟨kept, own⟩ := consistent.of_binding_eq_ok served
  rw [find?_of_compose composed] at kept
  obtain ⟨e, last, rfl⟩ := Option.map_eq_some_iff.1 kept
  rw [Entry.key_toBinding] at last own
  rw [Entry.aliases_toBinding] at own
  refine ⟨e, last, own, served, ?_⟩
  have kept' : r'.bindings.find? e.key = some (e.toBinding make config'.settings) := by
    rw [find?_of_compose composed', last]
    rfl
  by_cases bound : k ∈ r.keys
  · -- the key is bound itself, so it is the key of the entry
    obtain ⟨b, found⟩ := Table.mem_keys_iff.1 bound
    have direct : r.binding k = .ok b := by rw [binding, found]
    rw [served] at direct
    cases direct
    have same : e.key = k := consistent.own k _ found
    rw [binding, ← same, kept']
  · have absent : r.bindings.find? k = none := Table.find?_eq_none_iff.2 bound
    rw [find?_of_compose composed, Option.map_eq_none_iff] at absent
    have unbound' : k ∉ r'.keys := by
      apply Table.find?_eq_none_iff.1
      rw [find?_of_compose composed', absent]
      rfl
    have single : r.owners k = [e.key] := consistent.owners_of_binding bound served
    have single' : r'.owners k = [e.key] := by
      have perm := owners_perm_of_compose composed composed' k
      rw [single] at perm
      exact List.perm_singleton.1 perm.symm
    obtain ⟨b', found', -, served'⟩ :=
      (consistent_of_compose composed').binding_of_single unbound' single'
    rw [kept'] at found'
    cases found'
    exact served'

end Registry

/-- The registry creates under `k`, be it for a caller or for a scope, by one call of the factory of
`e` with the settings filed under the label of the entry's own key. A failure of the factory is told
under that label. -/
structure Registry.CreatesWith (r : Registry K P) (make : Furnished F → P)
    (settings : SettingsTable) (k : K) (e : Entry K F) : Prop where
  binding : r.binding k = .ok (e.toBinding make settings)
  create : ∀ {V : Type} (provide : P → Except Fault V),
    let label := Key.label e.key
    let maker := make ⟨e.factory, ⟨label, (settings.find? label).getD .empty⟩⟩
    r.create provide k = (provide maker).mapError (.provider label)
  createFrom : ∀ {H V : Type} [DecidableEq P] (conduct : Conduct H K P V)
    (respond : World.Responder H K P V) (purpose : Option (H × K)) (w : World H K P V),
    let label := Key.label e.key
    let maker := make ⟨e.factory, ⟨label, (settings.find? label).getD .empty⟩⟩
    World.createFrom conduct respond purpose r k w =
      (World.call conduct respond purpose maker w).map (fun (reply, w) =>
        (reply.mapError (.provider label), w)) ∧
    (World.Callless respond → ∀ reply w',
      World.createFrom conduct respond purpose r k w = some (reply, w') →
        w'.calls = maker :: w.calls)

theorem Registry.createsWith_of_binding {settings : SettingsTable} {k : K} {e : Entry K F}
    (served : r.binding k = .ok (e.toBinding make settings)) :
    r.CreatesWith make settings k e where
  binding := served
  create := by
    intro V provide label maker
    rw [Registry.create, served]
    rfl
  createFrom := by
    intro H V _ conduct respond purpose w label maker
    exact ⟨World.createFrom_of_binding served conduct respond purpose w,
      fun callless _ _ created => callless.createFrom served created⟩

/-- Settings are kept apart. If a family is composed and a lookup finds a binding, then the family
is also composed with other settings under the same policy, and in both registries the key is served
by the same entry, the last one with the key of that binding. Creating under the key is one call of
its factory with what the settings at hand hold under the label of the entry's key. So where two
settings agree on that label, the two registries create alike, whatever else is asked for. -/
theorem settings_isolation
    (policy : config.registry.duplicatePolicy = config'.registry.duplicatePolicy)
    (composed : (compose make family entries config).2 = .ok r) {k : K} {b : Binding K P}
    (served : r.binding k = .ok b) :
    ∃ (r' : Registry K P) (e : Entry K F),
      (compose make family entries config').2 = .ok r' ∧
      (entries.filter (·.key = b.key)).getLast? = some e ∧ (k = e.key ∨ k ∈ e.aliases) ∧
      r.CreatesWith make config.settings k e ∧ r'.CreatesWith make config'.settings k e ∧
      ((config.settings.find? (Key.label b.key)).getD .empty =
          (config'.settings.find? (Key.label b.key)).getD .empty →
        (∀ {V : Type} (provide : P → Except Fault V), r.create provide k = r'.create provide k) ∧
        ∀ {H V : Type} [DecidableEq P] (conduct : Conduct H K P V)
          (respond : World.Responder H K P V) (purpose : Option (H × K)) (w : World H K P V),
          World.createFrom conduct respond purpose r k w =
            World.createFrom conduct respond purpose r' k w) := by
  obtain ⟨r', composed'⟩ := isOk_compose_of_policy policy composed
  obtain ⟨e, last, own, found, found'⟩ := Registry.binding_of_compose composed composed' served
  have creates := Registry.createsWith_of_binding found
  have creates' := Registry.createsWith_of_binding found'
  refine ⟨r', e, composed', last, own, creates, creates', ?_⟩
  intro agree
  rw [← Entry.key_of_last? last] at agree
  constructor
  · intro V provide
    rw [creates.create, creates'.create, agree]
  · intro H V _ conduct respond purpose w
    rw [(creates.createFrom conduct respond purpose w).1,
      (creates'.createFrom conduct respond purpose w).1, agree]

def homeKey : TypeKey := ⟨⟨"a::Home"⟩, 0⟩

def startKey : TypeKey := ⟨⟨"b::Start"⟩, 1⟩

/-- The second entry takes the place of the first, and has an alias. -/
def greeters : List (Entry TypeKey Nat) :=
  [⟨homeKey, [], "first", 0⟩, ⟨homeKey, [startKey], "second", 1⟩]

def greeting (text : String) : Dict String := .ofList [("greeting", text)]

def greetersConfig (settings : SettingsTable) : Config :=
  { Config.defaults with registry := ⟨.replace, true⟩, settings }

def plainGreeting : Config := greetersConfig (.ofList [("a::Home", greeting "hi")])

/-- Besides the settings of the entry there are some under its short name and under its alias. -/
def otherGreetings : Config :=
  greetersConfig (.ofList [("a::Home", greeting "hi"), ("Home", greeting "no"),
    ("b::Start", greeting "never")])

/-- Under its alias the entry fails with its own settings, and under its own label. -/
theorem greeters_isolated :
    plainGreeting.registry.duplicatePolicy = otherGreetings.registry.duplicatePolicy ∧
    ∃ (r r' : Registry TypeKey (Furnished Nat)) (b : Binding TypeKey (Furnished Nat)),
      (compose id "greeters" greeters plainGreeting).2 = .ok r ∧ r.binding startKey = .ok b ∧
      (compose id "greeters" greeters otherGreetings).2 = .ok r' ∧
      ∀ provide : Furnished Nat → Except Fault Nat,
        let made := (provide ⟨1, ⟨"a::Home", greeting "hi"⟩⟩).mapError (.provider "a::Home")
        r.create provide startKey = made ∧ r'.create provide startKey = made := by
  let r : Registry TypeKey (Furnished Nat) := .ofSteps (compositionSteps id greeters plainGreeting)
  have composed : (compose id "greeters" greeters plainGreeting).2 = .ok r := by cbv
  have served : r.binding startKey =
      .ok (Entry.toBinding id plainGreeting.settings ⟨homeKey, [startKey], "second", 1⟩) := by
    cbv
  have policy : plainGreeting.registry.duplicatePolicy =
      otherGreetings.registry.duplicatePolicy := rfl
  obtain ⟨r', e, composed', last, -, creates, -, same⟩ :=
    settings_isolation policy composed served
  have agree : (plainGreeting.settings.find? "a::Home").getD .empty =
      (otherGreetings.settings.find? "a::Home").getD .empty := by cbv
  obtain ⟨alike, -⟩ := same agree
  have second : e = ⟨homeKey, [startKey], "second", 1⟩ := by
    have last' : (greeters.filter (·.key = homeKey)).getLast? =
        some ⟨homeKey, [startKey], "second", 1⟩ := by cbv
    exact Option.some.inj (last.symm.trans last')
  refine ⟨policy, r, r', _, composed, served, composed', ?_⟩
  intro provide made
  have created : r.create provide startKey = made := by
    rw [creates.create, second]
    have table : plainGreeting.settings.find? "a::Home" = some (greeting "hi") := by cbv
    change (provide ⟨1, ⟨"a::Home", (plainGreeting.settings.find? "a::Home").getD .empty⟩⟩).mapError
      _ = _
    rw [table]
    rfl
  exact ⟨created, (alike provide).symm.trans created⟩

end Registrar
