import Registrar.Config.Loader
import Registrar.Proofs.Config.Options
import Registrar.Proofs.Config.Variables
import Registrar.Proofs.Document.Proper

/-!
# Configurations leaf by leaf

A loaded configuration has under each leaf what the environment says about it, else what the document
says, else the default. The two sources are merged dictionary by dictionary, so what only the document
says stays, whatever the environment says elsewhere. Lists are not merged: where either source gives a
group of options as a list, the environment takes the place of all that the document says about the
group.
-/

namespace Registrar

open Environment (Saying said?)
open Extraction
open Value (Members along under overlay)

/-- Both sources of a configuration: the members of the document, and what the variables say. -/
structure Sources where
  document : Members
  said : List Saying

namespace Sources

variable (sources : Sources)

def inDocument (path : List String) : Option Value :=
  along (some (.dict .document sources.document)) path

def inEnvironment (path : List String) : Option Value := said? sources.said path

def isList (v : Option Value) : Bool :=
  match v with
  | some (.list _ _) => true
  | _ => false

/-- The environment says something about the path, or about a part of it. -/
def mentions (path : List String) : Bool :=
  (sources.inEnvironment path).isSome || sources.said.any fun e => path.isPrefixOf e.1

/-- The environment mentions a group, and one of the sources gives the group as a list. -/
def replaces (group : String) : Bool :=
  sources.mentions [group] &&
    (isList (sources.inDocument [group]) || isList (sources.inEnvironment [group]))

/-- What the document says about an option of a group, as far as it counts. -/
def optionInDocument (g : Extraction.Group α) (group name : String) : Option Value :=
  if sources.replaces group then none else g.option? (sources.inDocument [group]) name

/-- What the environment says about an option of a group. -/
def optionInEnvironment (g : Extraction.Group α) (group name : String) : Option Value :=
  (sources.inEnvironment [group, name]).or (g.option? (sources.inEnvironment [group]) name)

end Sources

/-- A leaf has what the environment gives, else what the document gives, else the default. -/
def Chosen {β : Type} (read : Value → Extracted β) (environment document : Option Value)
    (default leaf : β) : Prop :=
  match environment, document with
  | some v, _ => read v = .ok leaf
  | none, some v => read v = .ok leaf
  | none, none => leaf = default

variable {β : Type}

instance {β : Type} [DecidableEq β] (read : Value → Extracted β)
    (environment document : Option Value) (default leaf : β) :
    Decidable (Chosen read environment document default leaf) :=
  match environment, document with
  | some v, _ => inferInstanceAs (Decidable (read v = .ok leaf))
  | none, some v => inferInstanceAs (Decidable (read v = .ok leaf))
  | none, none => inferInstanceAs (Decidable (leaf = default))

/-- Where nothing is a dictionary, the merge has what the environment says, else what the document
says. -/
theorem chosen_of_takes {read : Value → Extracted β} (plain : Plain read) {u v : Option Value}
    (proper : ∀ w, overlay u v = some w → w.Proper) {default leaf : β}
    (takes : Takes (fun _ => read) (overlay u v) default leaf) : Chosen read v u default leaf := by
  cases merged : overlay u v with
  | none =>
    rw [merged] at takes
    cases v with
    | none =>
      rw [overlay] at merged
      rw [merged]
      exact takes
    | some v => cases u <;> cases merged
  | some w =>
    rw [merged] at takes
    have here := Value.overlay_eq_of_not_dict merged (plain w leaf (proper w merged) takes)
    cases v with
    | some v =>
      cases here
      exact takes
    | none =>
      rw [Option.none_or] at here
      rw [here]
      exact takes

theorem plain_of_takes {read : Value → Extracted β} (plain : Plain read) {u v : Option Value}
    (proper : ∀ w, overlay u v = some w → w.Proper) {default leaf : β}
    (takes : Takes (fun _ => read) (overlay u v) default leaf) {x : Value} (later : v = some x) :
    x.isDict = false := by
  cases x with
  | dict o members =>
    subst later
    obtain ⟨w, merged, dict⟩ := Value.isDict_overlay u o members
    rw [merged] at takes
    rw [plain w leaf (proper w merged) takes] at dict
    cases dict
  | _ => rfl

theorem chosen_of_silent {read : Value → Extracted β} {v : Option Value} {default leaf : β}
    (takes : Takes (fun _ => read) v default leaf) : Chosen read none v default leaf := by
  cases v <;> exact takes

theorem chosen_of_said {read : Value → Extracted β} {v : Option Value} {default leaf : β}
    (takes : Takes (fun _ => read) v default leaf) : Chosen read v none default leaf := by
  cases v <;> exact takes

/-- Where the environment gives a dictionary for a group, the merge has one under each name. -/
theorem takes_of_dict {g : Extraction.Group α} {name : String} {get : α → β}
    {read : Value → Extracted β} (option : GroupOption g name get fun _ => read)
    (distinct : g.names.Nodup) (listed : name ∈ g.names) {u : Option Value} {origin : Origin} {members : Members}
    (names : (members.map Prod.fst).Nodup)
    (proper : ∀ v, overlay u (some (.dict origin members)) = some v → v.Proper) {o o' : α}
    (taken : Takes g.read (overlay u (some (.dict origin members))) o o') :
    (∀ v, overlay (under u name) (Value.member? members name) = some v → v.Proper) ∧
      Takes (fun _ => read) (overlay (under u name) (Value.member? members name)) (get o) (get o') := by
  have inner := Value.under_overlay_dict u (o := origin) names name
  obtain ⟨w, merged, dict⟩ := Value.isDict_overlay u origin members
  rw [merged] at inner proper taken
  have whole := proper w rfl
  rw [← inner]
  constructor
  · intro v here
    have found : along (some w) [name] = some v := here
    exact whole.along found
  · cases w with
    | dict => exact option.of_read whole distinct listed taken
    | _ => cases dict

namespace Sources

variable {sources : Sources} {root : Value}

theorem under_of_isList {v : Option Value} (list : isList v = true) (name : String) :
    under v name = none := by
  rcases v with _ | ⟨⟩ | ⟨⟩ | ⟨⟩
  · rfl
  · rfl
  · rfl
  · cases list

theorem option?_of_not_isList (g : Extraction.Group α) {v : Option Value}
    (other : ¬ isList v = true) (name : String) : g.option? v name = under v name := by
  rcases v with _ | ⟨⟩ | ⟨⟩ | ⟨⟩
  · rfl
  · rfl
  · exact absurd rfl other
  · rfl

theorem optionInDocument_eq (g : Extraction.Group α) {group name : String}
    (kept : ¬ sources.replaces group = true) :
    sources.optionInDocument g group name = g.option? (sources.inDocument [group]) name := by
  rw [optionInDocument, if_neg kept]

section Told

variable (tells : Environment.Tells root sources.said)

include tells

theorem mentions_iff {path : List String} (nonempty : path ≠ []) :
    sources.mentions path = true ↔ (along (some root) path).isSome = true := by
  rw [tells.isSome_along_iff nonempty, mentions, Bool.or_eq_true, List.any_eq_true]
  simp only [List.isPrefixOf_iff_prefix]
  rfl

/-- What is reached and is no dictionary has been said just so. -/
theorem inEnvironment_of_plain {path : List String} (nonempty : path ≠ [])
    (plain : ∀ v, along (some root) path = some v → v.isDict = false) :
    sources.inEnvironment path = along (some root) path := by
  cases here : along (some root) path with
  | some v => exact tells.said?_of_along nonempty here (plain v here)
  | none =>
    cases told : said? sources.said path with
    | none => exact told
    | some v =>
      rw [tells.along_of_said? told] at here
      cases here

/-- What is said about something inside a dictionary is not said about the dictionary, or it is
inside what is said about it. -/
theorem optionInEnvironment_eq (g : Extraction.Group α) (group name : String)
    (plain : ∀ v, along (some root) [group, name] = some v → v.isDict = false) :
    sources.optionInEnvironment g group name = g.option? (along (some root) [group]) name := by
  have inner : sources.inEnvironment [group, name] = along (some root) [group, name] :=
    inEnvironment_of_plain tells (by simp) plain
  have step : along (some root) [group, name] = under (along (some root) [group]) name := rfl
  rw [optionInEnvironment, inner, step]
  -- only a dictionary can be put together from several variables
  by_cases dict : ∃ v, along (some root) [group] = some v ∧ v.isDict = true
  · obtain ⟨v, here, dict⟩ := dict
    cases v with
    | dict o members =>
      rw [here]
      cases said : sources.inEnvironment [group] with
      | none => exact Option.or_none
      | some v =>
        have same := tells.along_of_said? said
        rw [here] at same
        cases same
        exact Option.or_self
    | _ => cases dict
  · have outer : sources.inEnvironment [group] = along (some root) [group] := by
      apply inEnvironment_of_plain tells (by simp)
      intro v here
      rw [← Bool.not_eq_true]
      exact fun yes => dict ⟨v, here, yes⟩
    rw [outer]
    rcases here : along (some root) [group] with _ | ⟨o, s⟩ | ⟨o, items⟩ | ⟨o, members⟩
    · rfl
    · rfl
    · rfl
    · exact absurd ⟨_, here, rfl⟩ dict

theorem replaces_iff (group : String) : sources.replaces group = true ↔
    (along (some root) [group]).isSome = true ∧
      (isList (sources.inDocument [group]) = true ∨ isList (along (some root) [group]) = true) := by
  rw [replaces, Bool.and_eq_true, Bool.or_eq_true, mentions_iff tells (by simp)]
  refine and_congr_right fun _ => or_congr_right ?_
  constructor
  · intro list
    cases said : sources.inEnvironment [group] with
    | none =>
      rw [said] at list
      cases list
    | some v => rwa [tells.along_of_said? said, ← said]
  · intro list
    rwa [inEnvironment_of_plain tells (by simp)]
    intro v here
    rw [here] at list
    cases v with
    | dict => cases list
    | _ => rfl

/-- One option of a group, from the values that both sources have for the group. -/
theorem chosen_of_group {g : Extraction.Group α} {group name : String} {get : α → β}
    {read : Value → Extracted β} (option : GroupOption g name get fun _ => read)
    (plain : Plain read) (distinct : g.names.Nodup) (listed : name ∈ g.names) {o o' : α}
    (names : ∀ origin members, along (some root) [group] = some (.dict origin members) →
      (members.map Prod.fst).Nodup)
    (proper : ∀ v, overlay (sources.inDocument [group]) (along (some root) [group]) = some v → v.Proper)
    (taken : Takes g.read (overlay (sources.inDocument [group]) (along (some root) [group])) o o') :
    Chosen read (sources.optionInEnvironment g group name)
      (sources.optionInDocument g group name) (get o) (get o') := by
  have step : along (some root) [group, name] = under (along (some root) [group]) name := rfl
  have replaces := replaces_iff tells group
  have eq := optionInEnvironment_eq tells g group name
  rw [step] at eq
  generalize along (some root) [group] = said at *
  -- the environment is silent, has a scalar that cannot be read, a list that stays as it is, or a
  -- dictionary that is merged
  rcases said with _ | ⟨origin, s⟩ | ⟨origin, items⟩ | ⟨origin, members⟩
  · have kept : ¬ sources.replaces group = true := by simp [replaces]
    rw [eq (by simp), optionInDocument_eq g kept]
    apply chosen_of_silent
    cases document : sources.inDocument [group] with
    | none =>
      rw [document] at taken
      exact congrArg get taken
    | some v =>
      rw [document] at taken proper
      exact option.of_read (proper v rfl) distinct listed taken
  · cases document : sources.inDocument [group] <;> (rw [document] at taken; cases taken)
  · have gone : sources.replaces group = true := replaces.2 ⟨rfl, .inr rfl⟩
    have merged : overlay (sources.inDocument [group]) (some (.list origin items)) =
        some (.list origin items) := by
      cases sources.inDocument [group] <;> rfl
    rw [merged] at taken
    rw [eq (by simp [under]), optionInDocument, if_pos gone]
    exact chosen_of_said (option.of_read .list distinct listed taken)
  · obtain ⟨proper, takes⟩ := takes_of_dict option distinct listed (names _ _ rfl) proper taken
    rw [eq fun x here => plain_of_takes plain proper takes here]
    have document : sources.optionInDocument g group name =
        under (sources.inDocument [group]) name := by
      by_cases list : isList (sources.inDocument [group]) = true
      · rw [optionInDocument, if_pos (replaces.2 ⟨rfl, .inl list⟩)]
        exact (under_of_isList list name).symm
      · rw [optionInDocument_eq g fun gone => (replaces.1 gone).2.elim list (by simp [isList])]
        exact option?_of_not_isList g list name
    rw [document]
    exact chosen_of_takes plain proper takes

end Told

end Sources

theorem plain_map_some {read : Value → Extracted β} (plain : Plain read) :
    Plain fun v => (read v).map some := by
  intro v x proper taken
  cases here : read v with
  | error m =>
    dsimp only at taken
    rw [here] at taken
    cases taken
  | ok y => exact plain v y proper here

/-- Reading a merged dictionary reads under each name what the merge has there. -/
theorem takes_under {read : Value → Extracted β} {u v : Option Value} {d : Dict β}
    (proper : ∀ w, overlay u v = some w → w.Proper)
    (names : ∀ o members, v = some (.dict o members) → (members.map Prod.fst).Nodup)
    (takes : Takes (fun _ => readDict read) (overlay u v) .empty d) (name : String) :
    Takes (fun _ v => (read v).map some) (overlay (under u name) (under v name)) none
      (d.find? name) := by
  cases merged : overlay u v with
  | none =>
    obtain ⟨rfl, rfl⟩ := Value.overlay_eq_none_iff.1 merged
    have empty : d = .empty := takes
    rw [empty]
    rfl
  | some w =>
    rw [merged] at takes
    have dict : w.isDict = true := by
      cases w with
      | dict => rfl
      | _ => cases takes
    rw [← Value.under_overlay merged dict names name, merged]
    exact find?_of_readDict (proper w merged) takes name

theorem isSome_iff_of_takes {read : Value → Extracted β} {v : Option Value} {leaf : Option β}
    (takes : Takes (fun _ v => (read v).map some) v none leaf) :
    leaf.isSome = true ↔ v.isSome = true := by
  cases v with
  | none =>
    have absent : leaf = none := takes
    rw [absent]
    exact Iff.rfl
  | some v =>
    rw [Takes] at takes
    cases here : read v with
    | error m =>
      rw [here] at takes
      cases takes
    | ok x =>
      rw [here] at takes
      cases takes
      simp

/-- As `takes_under`, for a dictionary that may be missing. -/
theorem takes_under_of_some {read : Value → Extracted β} {u v : Option Value}
    {found : Option (Dict β)} (proper : ∀ w, overlay u v = some w → w.Proper)
    (names : ∀ o members, v = some (.dict o members) → (members.map Prod.fst).Nodup)
    (takes : Takes (fun _ v => (readDict read v).map some) (overlay u v) none found) (name : String) :
    Takes (fun _ v => (read v).map some) (overlay (under u name) (under v name)) none
      (found.bind (·.find? name)) := by
  cases merged : overlay u v with
  | none =>
    obtain ⟨rfl, rfl⟩ := Value.overlay_eq_none_iff.1 merged
    have absent : found = none := takes
    rw [absent]
    rfl
  | some w =>
    rw [merged, Takes] at takes
    cases here : readDict read w with
    | error m =>
      rw [here] at takes
      cases takes
    | ok d =>
      rw [here] at takes
      cases takes
      apply takes_under proper names
      rw [merged]
      exact here

/-- The configuration has under each leaf what the environment says, else what the document says, else
the default; and it has a table of settings if one of the sources speaks of it. -/
structure Sources.Decide (sources : Sources) (c : Config) : Prop where
  duplicatePolicy : Chosen readPolicy
    (sources.optionInEnvironment registryGroup "registry" "duplicate_policy")
    (sources.optionInDocument registryGroup "registry" "duplicate_policy")
    .reject c.registry.duplicatePolicy
  requireComplete : Chosen readTruth
    (sources.optionInEnvironment registryGroup "registry" "require_complete")
    (sources.optionInDocument registryGroup "registry" "require_complete")
    true c.registry.requireComplete
  level : Chosen readText
    (sources.optionInEnvironment loggingGroup "logging" "level")
    (sources.optionInDocument loggingGroup "logging" "level")
    "info" c.logging.level
  jsonFormat : Chosen readTruth
    (sources.optionInEnvironment loggingGroup "logging" "json_format")
    (sources.optionInDocument loggingGroup "logging" "json_format")
    false c.logging.jsonFormat
  fileOutput : Chosen readPath
    (sources.optionInEnvironment loggingGroup "logging" "file_output")
    (sources.optionInDocument loggingGroup "logging" "file_output")
    none c.logging.fileOutput
  maxFiles : Chosen readCount
    (sources.optionInEnvironment loggingGroup "logging" "max_files")
    (sources.optionInDocument loggingGroup "logging" "max_files")
    7 c.logging.maxFiles
  setting : ∀ table name, Chosen (fun v => (readText v).map some)
    (sources.inEnvironment ["settings", table, name])
    (sources.inDocument ["settings", table, name])
    none ((c.settings.find? table).bind (·.find? name))
  table : ∀ table, (c.settings.find? table).isSome = true ↔
    sources.mentions ["settings", table] = true ∨
      (sources.inDocument ["settings", table]).isSome = true

theorem Sources.decide_of_extract {sources : Sources} {environment : Members}
    (tells : Environment.Tells (.dict .environment environment) sources.said)
    (proper : Members.Proper sources.document) (proper' : Members.Proper environment) {c : Config}
    (extracted : Config.extract (Value.mergeMembers sources.document environment) = .ok c) :
    sources.Decide c := by
  have member (name : String) : Value.member? (Value.mergeMembers sources.document environment) name =
      overlay (sources.inDocument [name]) (along (some (.dict .environment environment)) [name]) :=
    Value.member?_mergeMembers proper'.nodup name
  have whole (path : List String) : ∀ w, overlay (sources.inDocument path)
      (along (some (.dict .environment environment)) path) = some w → w.Proper :=
    Value.proper_of_overlay (fun _ => (proper.toDict .document).along)
      (fun _ => (proper'.toDict .environment).along)
  have names (path : List String) (o : Origin) (members : Members)
      (found : along (some (.dict .environment environment)) path = some (.dict o members)) :
      (members.map Prod.fst).Nodup := ((proper'.toDict .environment).along found).members.nodup
  have distinct := (proper.merge proper').nodup
  have registry := registry_option.of_setMembers distinct extracted
  have logging := logging_option.of_setMembers distinct extracted
  have settings := settings_option.of_setMembers distinct extracted
  rw [member] at registry logging settings
  have tables (table : String) := takes_under (whole _) (names _) settings table
  have entries (table name : String) :=
    takes_under_of_some (whole ["settings", table]) (names ["settings", table]) (tables table) name
  constructor
  · exact chosen_of_group tells duplicatePolicy_option plain_readPolicy (by decide) (by decide)
      (names _) (whole _) registry
  · exact chosen_of_group tells requireComplete_option plain_readTruth (by decide) (by decide)
      (names _) (whole _) registry
  · exact chosen_of_group tells level_option plain_readText (by decide) (by decide)
      (names _) (whole _) logging
  · exact chosen_of_group tells jsonFormat_option plain_readTruth (by decide) (by decide)
      (names _) (whole _) logging
  · exact chosen_of_group tells fileOutput_option plain_readPath (by decide) (by decide)
      (names _) (whole _) logging
  · exact chosen_of_group tells maxFiles_option plain_readCount (by decide) (by decide)
      (names _) (whole _) logging
  · intro table name
    have plain := plain_map_some plain_readText
    have proper := whole ["settings", table, name]
    have takes := entries table name
    rw [inEnvironment_of_plain tells (by simp) fun _ => plain_of_takes plain proper takes]
    exact chosen_of_takes plain proper takes
  · intro table
    rw [isSome_iff_of_takes (tables table), mentions_iff tells (by simp)]
    exact Value.isSome_overlay_iff

namespace Loader

variable {l : Loader} {s : Surroundings} {c : Config}

/-- What the document that the loader resolves to holds. -/
def parsed (l : Loader) (s : Surroundings) : Except Fault (Members × String) :=
  match l.resolve s with
  | some path => readDocument s path
  | none => .ok ([], "")

def sources (l : Loader) (s : Surroundings) : Except Fault Sources :=
  (l.parsed s).map fun (document, _) =>
    ⟨document, Environment.sayings (l.variableStart ++ "_") s.environment⟩

theorem proper_parsed {document : Members} {shown : String}
    (found : l.parsed s = .ok (document, shown)) : Members.Proper document := by
  unfold parsed readDocument at found
  split at found
  · split at found
    · split at found
      · cases found
        exact .empty
      · split at found
        · next content _ members read =>
          cases found
          exact Document.proper_of_readDocument read
        · cases found
    · cases found
      exact .empty
  · cases found
    exact .empty

theorem load_eq_ok_iff : (l.load s).2 = .ok c ↔ ∃ document shown,
    l.parsed s = .ok (document, shown) ∧
    Config.extract (Value.mergeMembers document
      (Environment.read (l.variableStart ++ "_") s.environment)) = .ok c ∧ c.check = .ok () := by
  constructor
  · intro loaded
    obtain ⟨c', gathered, loaded⟩ := of_bind_eq_ok loaded
    obtain ⟨⟨⟩, accepted, same⟩ := of_bind_eq_ok loaded
    cases same
    obtain ⟨⟨document, shown⟩, found, extracted⟩ := of_bind_eq_ok gathered
    exact ⟨document, shown, of_mapError_eq_ok found, of_mapError_eq_ok extracted, accepted⟩
  · rintro ⟨document, shown, found, extracted, accepted⟩
    have read : (l.parsed s).mapError extracting = .ok (document, shown) := by rw [found]; rfl
    have gathered : l.gather s = .ok c := by
      change ((l.parsed s).mapError extracting >>= _) = _
      rw [read]
      dsimp only [Bind.bind, Except.bind]
      rw [extracted]
      rfl
    simp only [load, gathered, Bind.bind, Except.bind, accepted]
    rfl

/-- Configurations come leaf by leaf from their sources. A variable of the loader is about the path
that the rest of its name is parted into. If no two variables are about the same path, or one about a
part of what another is about, then every configuration that is loaded is decided by what the
variables say and by what the document holds. -/
theorem load_leaf_by_leaf
    (apart : Environment.Apart (Environment.sayings (l.variableStart ++ "_") s.environment))
    (loaded : (l.load s).2 = .ok c) :
    (∀ e ∈ s.environment, ∀ beginning rest,
      Text.trimChars e.1.toList = beginning ++ rest →
      beginning.map Char.toLower = (l.variableStart ++ "_").toList.map Char.toLower →
      (∀ part ∈ Environment.segments (Text.trimChars rest), part ≠ [] ∧ '.' ∉ part) →
      ((Environment.segments (Text.trimChars rest)).map fun part =>
          String.ofList (part.map Char.toLower), Environment.parse e.2) ∈
        Environment.sayings (l.variableStart ++ "_") s.environment) ∧
    ∃ sources, l.sources s = .ok sources ∧ sources.Decide c := by
  constructor
  · intro e mem beginning rest split same plain
    refine List.mem_filterMap.2 ⟨e, mem, ?_⟩
    rw [Environment.path?_eq split same plain]
    rfl
  · obtain ⟨document, shown, found, extracted, -⟩ := load_eq_ok_iff.1 loaded
    refine ⟨_, by rw [sources, found]; rfl, ?_⟩
    exact Sources.decide_of_extract (Environment.tells_read apart) (proper_parsed found)
      (Environment.proper_read _ _) extracted

/-- A working folder with one document in it. -/
def shelf (document : String) (environment : List (String × String)) : Surroundings where
  disk := ⟨[(["work"], .folder), (["work", "app.toml"], .file document)]⟩
  folder := ["work"]
  environment := environment
  today := "2024-05-01"

def atShelf : Loader := Loader.new.withPath "app.toml"

/-- Both sources speak of the same groups, of the same table, and of tables of their own. -/
def mixed : Surroundings :=
  shelf "[logging]\nlevel = \"warn\"\n\n[settings.home]\ngreeting = \"hi\"\n"
    [("HOME", "/work"), ("MAPKEY_LOGGING__JSON_FORMAT", "true"),
      (" mapkey_settings__home__color", "red"),
      ("MAPKEY_SETTINGS__ABOUT", "\x7bversion_label=edge\x7d")]

def mixedConfig : Config where
  registry := Config.defaults.registry
  logging := ⟨"warn", true, none, 7⟩
  settings := .ofList [("about", .ofList [("version_label", "edge")]),
    ("home", .ofList [("color", "red"), ("greeting", "hi")])]

theorem of_toOption_eq_some {ε α : Type} {x : Except ε α} {a : α} (found : x.toOption = some a) :
    x = .ok a := by
  cases x with
  | error e => cases found
  | ok b =>
    cases found
    rfl

/-- What only one of the sources says is kept. -/
theorem load_mixed :
    Environment.Apart (Environment.sayings (atShelf.variableStart ++ "_") mixed.environment) ∧
    (atShelf.load mixed).2 = .ok mixedConfig ∧
    ∃ sources, atShelf.sources mixed = .ok sources ∧ sources.Decide mixedConfig := by
  have apart : Environment.Apart
      (Environment.sayings (atShelf.variableStart ++ "_") mixed.environment) := by decide +kernel
  have loaded : (atShelf.load mixed).2 = .ok mixedConfig := of_toOption_eq_some (by decide +kernel)
  exact ⟨apart, loaded, (load_leaf_by_leaf apart loaded).2⟩

/-- What two computations give has a property that can be decided. -/
theorem exists_of_decide {ε α β : Type} {x : Except ε α} {y : Except ε β} {p : α → β → Prop}
    [∀ a b, Decidable (p a b)]
    (checked : (x.toOption.any fun a => y.toOption.any fun b => decide (p a b)) = true) :
    ∃ a b, x = .ok a ∧ y = .ok b ∧ p a b := by
  cases x with
  | error e => cases checked
  | ok a =>
    cases y with
    | error e => cases checked
    | ok b => exact ⟨a, b, rfl, rfl, of_decide_eq_true checked⟩

/-- The variable gives one option of the group in a list, the document another one by its name. -/
def listed : Surroundings :=
  shelf "[logging]\njson_format = true\n" [("MAPKEY_LOGGING", "[debug]")]

/-- Although the environment has nothing for the option, what the document has for it is lost. -/
theorem load_listed : ∃ sources c, atShelf.sources listed = .ok sources ∧
    (atShelf.load listed).2 = .ok c ∧ Environment.Apart sources.said ∧
    (sources.optionInEnvironment loggingGroup "logging" "json_format").isNone = true ∧
    (loggingGroup.option? (sources.inDocument ["logging"]) "json_format").map readTruth =
      some (.ok true) ∧
    ¬ Chosen readTruth (sources.optionInEnvironment loggingGroup "logging" "json_format")
      (loggingGroup.option? (sources.inDocument ["logging"]) "json_format")
      false c.logging.jsonFormat :=
  exists_of_decide (by decide +kernel)

end Loader

end Registrar
