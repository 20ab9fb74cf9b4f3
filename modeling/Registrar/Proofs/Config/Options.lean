import Mathlib.Data.List.Basic
import Registrar.Config.Extraction
import Registrar.Proofs.Config.Merging

/-!
# Where each option comes from

Reading the members of a dictionary one after the other gives each option what the one member of its
name says, and leaves it at its default if there is none. The items of a list do the same by their
places.
-/

namespace Registrar.Extraction

open Value (Members member? under)

variable {α β : Type}

theorem of_bind_eq_ok {ε : Type} {x : Except ε α} {f : α → Except ε β} {b : β}
    (bound : x >>= f = .ok b) : ∃ a, x = .ok a ∧ f a = .ok b := by
  cases x with
  | error m => cases bound
  | ok a => exact ⟨a, rfl, bound⟩

theorem of_mapError_eq_ok {ε ε' : Type} {f : ε → ε'} {x : Except ε α} {a : α}
    (mapped : x.mapError f = .ok a) : x = .ok a := by
  cases x with
  | error m => cases mapped
  | ok a' => cases mapped; rfl

theorem of_inside_eq_ok {step : String} {x : Extracted α} {a : α} (read : inside step x = .ok a) :
    x = .ok a := of_mapError_eq_ok read

/-- What is read from a value, if there is one; otherwise the default stays. -/
def Takes (read : β → Value → Extracted β) (v : Option Value) (default result : β) : Prop :=
  match v with
  | some v => read default v = .ok result
  | none => result = default

/-- What stands for an option in the value of its group; in a list it has its place. -/
def Group.option? (g : Group α) (v : Option Value) (name : String) : Option Value :=
  match v with
  | some (.list _ items) => items[g.names.idxOf name]?
  | v => under v name

/-- An option of a group, as `get` shows it: it is read under its own name and under no other. -/
structure GroupOption (g : Group α) (name : String) (get : α → β) (read : β → Value → Extracted β) :
    Prop where
  own : ∀ v a a', g.set name v a = .ok a' → read (get a) v = .ok (get a')
  other : ∀ name' v a a', name' ≠ name → g.set name' v a = .ok a' → get a' = get a

namespace GroupOption

variable {g : Group α} {name : String} {get : α → β} {read : β → Value → Extracted β}

theorem of_setMembers (option : GroupOption g name get read) {members : Members} {a a' : α}
    (distinct : (members.map Prod.fst).Nodup) (set : g.setMembers a members = .ok a') :
    Takes read (member? members name) (get a) (get a') := by
  induction members generalizing a with
  | nil =>
    cases set
    rfl
  | cons e rest ih =>
    obtain ⟨name', v⟩ := e
    rw [List.map_cons, List.nodup_cons] at distinct
    obtain ⟨absent, distinct⟩ := distinct
    obtain ⟨next, first, others⟩ := of_bind_eq_ok set
    have first := of_inside_eq_ok first
    have later := ih distinct others
    rw [Value.member?_cons]
    by_cases same : name = name'
    · subst same
      rw [Value.member?_eq_none absent] at later
      have kept : get a' = get next := later
      rw [if_pos rfl, Takes, kept]
      exact option.own v a next first
    · rw [if_neg same]
      rwa [option.other name' v a next (fun h => same h.symm) first] at later

theorem of_setItems_of_not_mem (option : GroupOption g name get read) {i : Nat} {names : List String}
    {items : List Value} {a a' : α} (absent : name ∉ names)
    (set : g.setItems a i names items = .ok a') : get a' = get a := by
  induction names generalizing i items a with
  | nil =>
    cases set
    rfl
  | cons name' names ih =>
    cases items with
    | nil =>
      cases set
      rfl
    | cons v rest =>
      rw [List.mem_cons, not_or] at absent
      obtain ⟨next, first, others⟩ := of_bind_eq_ok set
      rw [ih absent.2 others]
      exact option.other name' v a next (fun h => absent.1 h.symm) (of_inside_eq_ok first)

theorem of_setItems (option : GroupOption g name get read) {i : Nat} {names : List String}
    {items : List Value} {a a' : α} (distinct : names.Nodup) (listed : name ∈ names)
    (set : g.setItems a i names items = .ok a') :
    Takes read items[names.idxOf name]? (get a) (get a') := by
  induction names generalizing i items a with
  | nil => cases listed
  | cons name' names ih =>
    rw [List.nodup_cons] at distinct
    cases items with
    | nil =>
      cases set
      rw [List.getElem?_nil]
      rfl
    | cons v rest =>
      obtain ⟨next, first, others⟩ := of_bind_eq_ok set
      have first := of_inside_eq_ok first
      by_cases same : name' = name
      · subst same
        rw [List.idxOf_cons_self, List.getElem?_cons_zero, Takes,
          option.of_setItems_of_not_mem distinct.1 others]
        exact option.own v a next first
      · have later := ih distinct.2 ((List.mem_cons.1 listed).resolve_left fun h => same h.symm) others
        rw [List.idxOf_cons_ne _ same, List.getElem?_cons_succ]
        rwa [option.other name' v a next same first] at later

/-- A group that could be read was given by a dictionary or by a list. -/
theorem of_read (option : GroupOption g name get read) {v : Value} {a a' : α} (proper : v.Proper)
    (distinct : g.names.Nodup) (listed : name ∈ g.names) (taken : g.read a v = .ok a') :
    Takes read (g.option? (some v) name) (get a) (get a') := by
  cases v with
  | scalar o s => cases taken
  | list o items => exact option.of_setItems distinct listed taken
  | dict o members => exact option.of_setMembers proper.members.nodup taken

end GroupOption

/-- Storing what has been read, where `get` finds it. -/
theorem read_of_stored {x : Extracted β} {store : β → α} {get : α → β} {a : α}
    (set : (do return store (← x)) = .ok a) (found : ∀ b, get (store b) = b) : x = .ok (get a) := by
  obtain ⟨b, read, stored⟩ := of_bind_eq_ok set
  cases stored
  rw [found]
  exact read

/-- Reading under a name changes the option of that name at most. -/
theorem of_set_registry {name : String} {v : Value} {o o' : RegistryOptions}
    (set : registryGroup.set name v o = .ok o') :
    (name ≠ "duplicate_policy" → o'.duplicatePolicy = o.duplicatePolicy) ∧
      (name ≠ "require_complete" → o'.requireComplete = o.requireComplete) := by
  unfold registryGroup at set
  dsimp only at set
  split at set
  · obtain ⟨x, -, e⟩ := of_bind_eq_ok set
    cases e
    exact ⟨fun other => absurd rfl other, fun _ => rfl⟩
  · obtain ⟨x, -, e⟩ := of_bind_eq_ok set
    cases e
    exact ⟨fun _ => rfl, fun other => absurd rfl other⟩
  · cases set
    exact ⟨fun _ => rfl, fun _ => rfl⟩

theorem duplicatePolicy_option : GroupOption registryGroup "duplicate_policy"
    RegistryOptions.duplicatePolicy fun _ => readPolicy where
  own _ _ _ set := read_of_stored set fun _ => rfl
  other _ _ _ _ other set := (of_set_registry set).1 other

theorem requireComplete_option : GroupOption registryGroup "require_complete"
    RegistryOptions.requireComplete fun _ => readTruth where
  own _ _ _ set := read_of_stored set fun _ => rfl
  other _ _ _ _ other set := (of_set_registry set).2 other

theorem of_set_logging {name : String} {v : Value} {o o' : LoggingOptions}
    (set : loggingGroup.set name v o = .ok o') :
    (name ≠ "level" → o'.level = o.level) ∧
      (name ≠ "json_format" → o'.jsonFormat = o.jsonFormat) ∧
      (name ≠ "file_output" → o'.fileOutput = o.fileOutput) ∧
      (name ≠ "max_files" → o'.maxFiles = o.maxFiles) := by
  unfold loggingGroup at set
  dsimp only at set
  split at set
  · obtain ⟨x, -, e⟩ := of_bind_eq_ok set
    cases e
    exact ⟨fun other => absurd rfl other, fun _ => rfl, fun _ => rfl, fun _ => rfl⟩
  · obtain ⟨x, -, e⟩ := of_bind_eq_ok set
    cases e
    exact ⟨fun _ => rfl, fun other => absurd rfl other, fun _ => rfl, fun _ => rfl⟩
  · obtain ⟨x, -, e⟩ := of_bind_eq_ok set
    cases e
    exact ⟨fun _ => rfl, fun _ => rfl, fun other => absurd rfl other, fun _ => rfl⟩
  · obtain ⟨x, -, e⟩ := of_bind_eq_ok set
    cases e
    exact ⟨fun _ => rfl, fun _ => rfl, fun _ => rfl, fun other => absurd rfl other⟩
  · cases set
    exact ⟨fun _ => rfl, fun _ => rfl, fun _ => rfl, fun _ => rfl⟩

theorem level_option : GroupOption loggingGroup "level" LoggingOptions.level fun _ => readText where
  own _ _ _ set := read_of_stored set fun _ => rfl
  other _ _ _ _ other set := (of_set_logging set).1 other

theorem jsonFormat_option : GroupOption loggingGroup "json_format" LoggingOptions.jsonFormat
    fun _ => readTruth where
  own _ _ _ set := read_of_stored set fun _ => rfl
  other _ _ _ _ other set := (of_set_logging set).2.1 other

theorem fileOutput_option : GroupOption loggingGroup "file_output" LoggingOptions.fileOutput
    fun _ => readPath where
  own _ _ _ set := read_of_stored set fun _ => rfl
  other _ _ _ _ other set := (of_set_logging set).2.2.1 other

theorem maxFiles_option : GroupOption loggingGroup "max_files" LoggingOptions.maxFiles
    fun _ => readCount where
  own _ _ _ set := read_of_stored set fun _ => rfl
  other _ _ _ _ other set := (of_set_logging set).2.2.2 other

theorem of_set_config {name : String} {v : Value} {c c' : Config}
    (set : configGroup.set name v c = .ok c') :
    (name ≠ "registry" → c'.registry = c.registry) ∧ (name ≠ "logging" → c'.logging = c.logging) ∧
      (name ≠ "settings" → c'.settings = c.settings) := by
  unfold configGroup at set
  dsimp only at set
  split at set
  · obtain ⟨x, -, e⟩ := of_bind_eq_ok set
    cases e
    exact ⟨fun other => absurd rfl other, fun _ => rfl, fun _ => rfl⟩
  · obtain ⟨x, -, e⟩ := of_bind_eq_ok set
    cases e
    exact ⟨fun _ => rfl, fun other => absurd rfl other, fun _ => rfl⟩
  · obtain ⟨x, -, e⟩ := of_bind_eq_ok set
    cases e
    exact ⟨fun _ => rfl, fun _ => rfl, fun other => absurd rfl other⟩
  · cases set
    exact ⟨fun _ => rfl, fun _ => rfl, fun _ => rfl⟩

theorem registry_option : GroupOption configGroup "registry" Config.registry registryGroup.read where
  own _ _ _ set := read_of_stored set fun _ => rfl
  other _ _ _ _ other set := (of_set_config set).1 other

theorem logging_option : GroupOption configGroup "logging" Config.logging loggingGroup.read where
  own _ _ _ set := read_of_stored set fun _ => rfl
  other _ _ _ _ other set := (of_set_config set).2.1 other

theorem settings_option : GroupOption configGroup "settings" Config.settings
    fun _ => readDict (readDict readText) where
  own _ _ _ set := read_of_stored set fun _ => rfl
  other _ _ _ _ other set := (of_set_config set).2.2 other

theorem find?_of_foldlM {read : Value → Extracted β} {members : Members} {d d' : Dict β}
    (distinct : (members.map Prod.fst).Nodup)
    (folded : members.foldlM (fun d (name, inner) => do
      return d.insert name (← inside name (read inner))) d = .ok d') (name : String) :
    Takes (fun _ v => (read v).map some) (member? members name) (d.find? name) (d'.find? name) := by
  induction members generalizing d with
  | nil =>
    cases folded
    rfl
  | cons e rest ih =>
    obtain ⟨name', v⟩ := e
    rw [List.map_cons, List.nodup_cons] at distinct
    rw [List.foldlM_cons] at folded
    obtain ⟨next, first, others⟩ := of_bind_eq_ok folded
    obtain ⟨x, taken, e⟩ := of_bind_eq_ok first
    cases e
    have later := ih distinct.2 others
    rw [Dict.find?_insert] at later
    rw [Value.member?_cons]
    by_cases same : name = name'
    · subst same
      rw [Value.member?_eq_none distinct.1, if_pos rfl] at later
      have kept : d'.find? name = some x := later
      rw [if_pos rfl, Takes, of_inside_eq_ok taken, kept]
      rfl
    · rw [if_neg same] at later ⊢
      exact later

/-- What a dictionary has under a name is what is read from the member of that name. -/
theorem find?_of_readDict {read : Value → Extracted β} {v : Value} {d : Dict β} (proper : v.Proper)
    (taken : readDict read v = .ok d) (name : String) :
    Takes (fun _ v => (read v).map some) (under (some v) name) none (d.find? name) := by
  cases v with
  | dict o members => exact find?_of_foldlM proper.members.nodup taken name
  | _ => cases taken

/-- Only values that are no dictionaries can be read so. -/
def Plain (read : Value → Extracted β) : Prop :=
  ∀ v x, v.Proper → read v = .ok x → v.isDict = false

theorem plain_of_mistyped {read : Value → Extracted β}
    (refused : ∀ o members x, read (.dict o members) ≠ .ok x) : Plain read := by
  intro v x _ taken
  cases v with
  | dict o members => exact absurd taken (refused o members x)
  | _ => rfl

theorem plain_readText : Plain readText := plain_of_mistyped (by simp [readText, mistyped])

theorem plain_readTruth : Plain readTruth := plain_of_mistyped (by simp [readTruth, mistyped])

theorem plain_readCount : Plain readCount := plain_of_mistyped (by simp [readCount, mistyped])

theorem plain_readPath : Plain readPath := plain_of_mistyped (by simp [readPath, mistyped])

/-- A policy may be the name of an empty member, but no source gives one. -/
theorem plain_readPolicy : Plain readPolicy := by
  intro v policy proper taken
  cases v with
  | scalar => rfl
  | list => rfl
  | dict o members =>
    cases members with
    | nil => cases taken
    | cons e rest =>
      obtain ⟨name, inner⟩ := e
      obtain ⟨p, -, taken⟩ := of_bind_eq_ok (of_inside_eq_ok taken)
      have given : inner.Proper := proper.members.inner (name, inner) List.mem_cons_self
      split at taken
      · cases given with
        | scalar something => exact absurd rfl something
      · cases taken

end Registrar.Extraction
