import Registrar.Config.Loader
import Registrar.Proofs.Config.Fitting
import Registrar.Proofs.Config.Layers
import Registrar.Proofs.Config.Names
import Registrar.Proofs.Config.RoundTrip

/-!
# One text from the environment

A variable that gives a text to a leaf of the configuration changes that leaf and nothing else, as if
the text had been written in the document. This holds of exactly the texts that are read as
themselves: a text with the shape of a number is a number to the environment, and a leaf that holds a
text refuses it.
-/

namespace Registrar

namespace Environment

theorem read_of_single {start : String} {before after : Variables} {e : String × String}
    {name : String} {path : List String} (free : ∀ x ∈ before ++ after, ¬ Carries start x.1)
    (named : path? start e.1 = some (name :: path)) :
    read start (before ++ e :: after) = [(name, Value.nest .environment path (parse e.2))] := by
  rw [List.forall_mem_append] at free
  rw [read, List.foldl_append, foldl_of_not_carries free.1, List.foldl_cons,
    foldl_of_not_carries free.2, addVariable, named]
  rfl

end Environment

/-- A leaf of the configuration that holds any text. -/
inductive TextLeaf where
  | fileOutput
  | setting (table name : String)

namespace TextLeaf

open Value (Members member? nest)

def group : TextLeaf → String
  | fileOutput => "logging"
  | setting _ _ => "settings"

def within : TextLeaf → List String
  | fileOutput => ["file_output"]
  | setting table name => [table, name]

def path (leaf : TextLeaf) : List String := leaf.group :: leaf.within

def get (leaf : TextLeaf) (c : Config) : Option String :=
  match leaf with
  | fileOutput => c.logging.fileOutput
  | setting table name => (c.settings.find? table).bind (·.find? name)

/-- The configuration with another text under the leaf, in a new table if need be. -/
def put (leaf : TextLeaf) (text : String) (c : Config) : Config :=
  match leaf with
  | fileOutput => { c with logging := { c.logging with fileOutput := some text } }
  | setting table name =>
    { c with settings :=
        c.settings.insert table (((c.settings.find? table).getD .empty).insert name text) }

theorem get_put (leaf : TextLeaf) (text : String) (c : Config) :
    leaf.get (leaf.put text c) = some text := by
  cases leaf with
  | fileOutput => rfl
  | setting table name => simp [get, put, Dict.find?_insert]

/-- What remains of a configuration when a value is put under the leaf: where the document lists the
options of a group, they give way to the value. -/
def rest (leaf : TextLeaf) (document : Members) (c : Config) : Config :=
  match leaf with
  | fileOutput =>
    if Sources.isList (member? document "logging") then { c with logging := Config.defaults.logging }
    else c
  | setting _ _ => c

/-- The members of a source that has one value, under the leaf. -/
def members (leaf : TextLeaf) (o : Origin) (v : Value) : Members := [(leaf.group, nest o leaf.within v)]

end TextLeaf

namespace Extraction

open Value (overlay nest)

variable {u : Option Value} {o : Origin}

/-- Where the options are given by a list, the output file takes the place of the list. -/
theorem read_logging_overlay {options : LoggingOptions} {text : String}
    (proper : ∀ w, u = some w → w.Proper)
    (base : Takes loggingGroup.read u Config.defaults.logging options) (w : Value)
    (merged : overlay u (some (nest o ["file_output"] (.scalar o (.text text)))) = some w) :
    loggingGroup.read Config.defaults.logging w =
      .ok { (if Sources.isList u then Config.defaults.logging else options) with
        fileOutput := some text } := by
  rcases u with _ | ⟨o', s⟩ | ⟨o', items⟩ | ⟨o', members⟩
  · have same : options = Config.defaults.logging := base
    cases merged
    rw [same]
    rfl
  · cases base
  · cases merged
    rfl
  · obtain ⟨w', here, whole⟩ := overlay_nest_of_dict o o' members "file_output" []
      (.scalar o (.text text))
    rw [nest, overlay_scalar] at here
    cases here
    rw [merged] at whole
    have given : (Value.scalar o (.text text)).Proper := .scalar (by simp)
    have fits : loggingGroup.Fits "file_output" (.scalar o (.text text)) :=
      ⟨Config.defaults.logging, _, rfl⟩
    obtain ⟨options', set, each⟩ := steady_logging.setMembers_insertMember (proper _ rfl).members
      given base fits
    have level : options'.level = options.level := each level_option
    have json : options'.jsonFormat = options.jsonFormat := each jsonFormat_option
    have file : readPath (.scalar o (.text text)) = .ok options'.fileOutput :=
      each fileOutput_option
    have most : options'.maxFiles = options.maxFiles := each maxFiles_option
    rw [Option.some.inj whole, Group.read, set]
    cases options'
    dsimp only at level json file most
    rw [level, json, ← Except.ok.inj file, most]
    rfl

end Extraction

namespace TextLeaf

open Extraction
open Value (Members along under overlay nest member?)

/-- Where a configuration has been read, it is read again with a text under a leaf. -/
theorem extract_members (leaf : TextLeaf) {document : Members} {c : Config}
    (proper : Members.Proper document) (extracted : Config.extract document = .ok c) (o : Origin)
    (text : String) :
    Config.extract (Value.mergeMembers document (leaf.members o (.scalar o (.text text)))) =
      .ok (leaf.put text (leaf.rest document c)) := by
  have given : (Value.scalar o (.text text)).Proper := .scalar (by simp)
  obtain ⟨w, merged, next⟩ := Value.mergeMembers_cons document
    (leaf.group, nest o leaf.within (.scalar o (.text text))) []
  have proper' := proper_overlay_nest (fun _ => proper.member?) given o leaf.within merged
  rw [members, next, Value.mergeMembers]
  cases leaf with
  | fileOutput =>
    have base := logging_option.of_setMembers proper.nodup extracted
    have read := read_logging_overlay (fun _ => proper.member?) base w merged
    dsimp only [group, put, rest]
    rw [extract_insertMember_logging proper proper' extracted read]
    split <;> rfl
  | setting table name =>
    have base := settings_option.of_setMembers proper.nodup extracted
    have whole : ∀ w, member? document "settings" = some w → w.Proper := fun _ => proper.member?
    have inside : ∀ w, under (member? document "settings") table = some w → w.Proper := by
      intro w here
      cases found : member? document "settings" with
      | none =>
        rw [found] at here
        cases here
      | some settings =>
        rw [found] at here
        have reached : along (some settings) [table] = some w := here
        exact (whole settings found).along reached
    have tables := takes_under (v := none) whole (by simp) base table
    have entries : ∀ w, overlay (under (member? document "settings") table)
        (some (nest o [name] (.scalar o (.text text)))) = some w →
        readDict readText w = .ok (((c.settings.find? table).getD .empty).insert name text) :=
      readDict_overlay inside given tables.getD (readText_overlay text)
    exact extract_insertMember_settings proper proper' extracted
      (readDict_overlay whole given base entries w merged)

/-- A configuration that is accepted stays so. -/
theorem check_put (leaf : TextLeaf) (words : ∀ part ∈ leaf.path, Environment.isWord part.toList = true)
    {c : Config} (accepted : c.check = .ok ()) (document : Members) (text : String) :
    (leaf.put text (leaf.rest document c)).check = .ok () := by
  rw [Config.check_eq_ok_iff] at accepted ⊢
  obtain ⟨level, tables⟩ := accepted
  cases leaf with
  | fileOutput =>
    dsimp only [rest]
    split
    · have info : Text.lowerCase Config.defaults.logging.level = "info" := by decide +kernel
      refine ⟨⟨.info, ?_⟩, tables⟩
      dsimp only [put]
      rw [info]
      rfl
    · exact ⟨level, tables⟩
  | setting table name =>
    refine ⟨level, fun other mem => ?_⟩
    rcases Dict.mem_keys_put mem with rfl | old
    · have word := words other (by simp [path, within])
      obtain ⟨c, more, split, -⟩ := Environment.head_of_isWord word
      have dark := (Environment.inside_of_isWord word c (by simp [split])).notBlank
      simp [Text.isBlankText, split, dark]
    · exact tables other old

theorem tells_members (leaf : TextLeaf) (v : Value) :
    Environment.Tells (.dict .environment (leaf.members .environment v)) [(leaf.path, v)] := by
  have filled : leaf.path ≠ [] := List.cons_ne_nil _ _
  exact (Environment.Tells.empty .environment).add .environment v (by simp) filled

theorem eq_ok_of_map_eq_ok {ε α β : Type} {f : α → β} (injective : ∀ a a', f a = f a' → a = a')
    {x : Except ε α} {a : α} (mapped : x.map f = .ok (f a)) : x = .ok a := by
  cases x with
  | error e => cases mapped
  | ok a' => rw [injective a' a (Except.ok.inj mapped)]

/-- What is read under the leaf is the value that the environment gives it. -/
theorem readText_of_decide {leaf : TextLeaf} {document : Members} {v : Value} {c : Config}
    {text : String} (decided : Sources.Decide ⟨document, [(leaf.path, v)]⟩ c)
    (found : leaf.get c = some text) : readText v = .ok text := by
  have said : Environment.said? [(leaf.path, v)] leaf.path = some v := by simp [Environment.said?]
  cases leaf with
  | fileOutput =>
    have chosen := decided.fileOutput
    have given : Sources.optionInEnvironment ⟨document, [(fileOutput.path, v)]⟩ loggingGroup
        "logging" "file_output" = some v := by
      change (Environment.said? _ fileOutput.path).or _ = _
      rw [said]
      rfl
    rw [given] at chosen
    have read : readPath v = .ok (some text) := by
      rw [← found]
      exact chosen
    cases v with
    | scalar o s => cases s <;> cases read <;> rfl
    | _ => cases read
  | setting table name =>
    have chosen := decided.setting table name
    have given : Sources.inEnvironment ⟨document, [((setting table name).path, v)]⟩
        ["settings", table, name] = some v := said
    rw [given] at chosen
    have read : (readText v).map some = .ok (some text) := by
      rw [← found]
      exact chosen
    exact eq_ok_of_map_eq_ok (fun _ _ => Option.some.inj) read

end TextLeaf

namespace Loader

variable {l : Loader} {leaf : TextLeaf} {text : String} {s s' : Surroundings} {c : Config}

/-- The second surroundings have one more variable than the first, which gives a text to a leaf. No
other variable speaks for the loader. -/
structure Overrides (l : Loader) (leaf : TextLeaf) (text : String) (s s' : Surroundings) :
    Prop where
  disk : s'.disk = s.disk
  folder : s'.folder = s.folder
  account : s'.accountHome = s.accountHome
  silent : ∀ e ∈ s.environment, ¬ Environment.Carries (l.variableStart ++ "_") e.1
  added : ∃ before after name, s.environment = before ++ after ∧
    s'.environment = before ++ (name, text) :: after ∧
    Environment.Spells (l.variableStart ++ "_") leaf.path name
  /-- Blanks in front of the name of a variable do not count, so no name has one as its beginning. -/
  start : ∀ c, l.variableStart.toList.head? = some c → Text.isBlank c = false
  words : ∀ part ∈ leaf.path, Environment.isWord part.toList = true

namespace Overrides

theorem head (overrides : l.Overrides leaf text s s') : ∃ c,
    (l.variableStart ++ "_").toList.head? = some c ∧ Text.isBlank c = false := by
  have start := overrides.start
  rw [String.toList_append, List.head?_append]
  cases first : l.variableStart.toList.head? with
  | none => exact ⟨'_', rfl, by decide⟩
  | some c => exact ⟨c, rfl, start c first⟩

theorem read_eq (overrides : l.Overrides leaf text s s') :
    Environment.read (l.variableStart ++ "_") s'.environment =
      leaf.members .environment (Environment.parse text) := by
  obtain ⟨before, after, name, old, new, spells⟩ := overrides.added
  obtain ⟨c, head, dark⟩ := overrides.head
  have silent := overrides.silent
  have named := Environment.path?_of_spells (List.cons_ne_nil _ _) overrides.words head dark spells
  rw [old] at silent
  rw [new]
  exact Environment.read_of_single silent named

theorem valueOf?_eq (overrides : l.Overrides leaf text s s') {other : String}
    (single : ¬ ['_', '_'] <:+: other.toList.map Char.toLower) :
    s'.valueOf? other = s.valueOf? other := by
  obtain ⟨before, after, name, old, new, spells⟩ := overrides.added
  have apart : other ≠ name := by
    cases leaf <;> exact Environment.ne_of_spells spells single
  rw [Surroundings.valueOf?, Surroundings.valueOf?, old, new, List.lookup_append,
    List.lookup_append, Pairs.lookup_cons, if_neg apart]

/-- The variable does not move the document. -/
theorem parsed_eq (overrides : l.Overrides leaf text s s') : l.parsed s' = l.parsed s := by
  have home : s'.valueOf? "HOME" = s.valueOf? "HOME" := overrides.valueOf?_eq (by decide)
  have configHome : s'.valueOf? "XDG_CONFIG_HOME" = s.valueOf? "XDG_CONFIG_HOME" :=
    overrides.valueOf?_eq (by decide)
  have disk := overrides.disk
  have folder := overrides.folder
  have account := overrides.account
  have places : places s' = places s := by
    simp only [places, configHome?, home?, home, configHome, Surroundings.folderPath, folder,
      account]
  have there : s'.exists? = s.exists? := by
    funext path
    simp only [Surroundings.exists?, disk, folder]
  have read : readDocument s' = readDocument s := by
    funext path
    simp only [readDocument, there, Surroundings.fileFor?, Surroundings.readingPaths,
      Surroundings.folderPath, disk, folder]
  simp only [parsed, resolve, places, there, read]

end Overrides

/-- A text can be given to a leaf by the environment just if it has not the shape of another value.
Then it makes of every configuration that is loaded what the same text makes of it that is written
in the document. -/
theorem load_overridden (overrides : l.Overrides leaf text s s')
    (trimmed : Text.trimChars text.toList = text.toList) (loadable : (l.load s).2 = .ok c) :
    ((∃ c', (l.load s').2 = .ok c' ∧ leaf.get c' = some text) ↔
      ¬ Environment.Shaped text.toList) ∧
    ∃ document shown, l.parsed s = .ok (document, shown) ∧
      (¬ Environment.Shaped text.toList →
        (l.load s').2 = .ok (leaf.put text (leaf.rest document c))) ∧
      ∀ written shown', (∀ e ∈ written.environment,
          ¬ Environment.Carries (l.variableStart ++ "_") e.1) →
        l.parsed written = .ok (Value.mergeMembers document
          (leaf.members .document (.scalar .document (.text text))), shown') →
        (l.load written).2 = .ok (leaf.put text (leaf.rest document c)) := by
  obtain ⟨document, shown, found, extracted, accepted⟩ := load_eq_ok_iff.1 loadable
  rw [Environment.read_eq_nil overrides.silent, Value.mergeMembers] at extracted
  have proper := proper_parsed found
  have found' : l.parsed s' = .ok (document, shown) := by rw [overrides.parsed_eq, found]
  have accepted' := leaf.check_put overrides.words accepted document text
  have load : ¬ Environment.Shaped text.toList →
      (l.load s').2 = .ok (leaf.put text (leaf.rest document c)) := by
    intro free
    refine load_eq_ok_iff.2 ⟨document, shown, found', ?_, accepted'⟩
    rw [overrides.read_eq, Environment.parse_of_not_shaped trimmed free]
    exact leaf.extract_members proper extracted .environment text
  refine ⟨⟨?_, fun free => ⟨_, load free, leaf.get_put text _⟩⟩, document, shown, found, load, ?_⟩
  · rintro ⟨c', loaded, here⟩
    obtain ⟨document', shown', again, extracted', -⟩ := load_eq_ok_iff.1 loaded
    rw [overrides.read_eq] at extracted'
    have proper' : Value.Members.Proper (leaf.members .environment (Environment.parse text)) := by
      rw [← overrides.read_eq]
      exact Environment.proper_read _ _
    have decided : Sources.Decide ⟨document', [(leaf.path, Environment.parse text)]⟩ c' :=
      Sources.decide_of_extract (leaf.tells_members _) (proper_parsed again) proper' extracted'
    exact (Environment.readText_parse_iff trimmed).1 (TextLeaf.readText_of_decide decided here)
  · intro written shown' silent found''
    refine load_eq_ok_iff.2 ⟨_, shown', found'', ?_, accepted'⟩
    rw [Environment.read_eq_nil silent, Value.mergeMembers]
    exact leaf.extract_members proper extracted .document text

/-- A document that has a text for the label already. -/
def unlabelled : Surroundings :=
  shelf "[logging]\nlevel = \"warn\"\n\n[settings.about]\ncolor = \"red\"\nversion_label = \"old\"\n"
    [("HOME", "/work")]

def labelled (label : String) : Surroundings :=
  { unlabelled with
    environment := [("Mapkey_SETTINGS__About__VERSION_label", label), ("HOME", "/work")] }

def versionLabel : TextLeaf := .setting "about" "version_label"

theorem labelled_overrides (label : String) :
    atShelf.Overrides versionLabel label unlabelled (labelled label) where
  disk := rfl
  folder := rfl
  account := rfl
  silent := by
    simp only [Environment.Carries]
    decide
  added := by
    refine ⟨[], [("HOME", "/work")], "Mapkey_SETTINGS__About__VERSION_label", rfl, rfl, ?_⟩
    unfold Environment.Spells
    decide
  start := by
    intro c head
    have same : 'M' = c := Option.some.inj head
    rw [← same]
    decide
  words := by decide

def unlabelledConfig : Config where
  registry := Config.defaults.registry
  logging := ⟨"warn", false, none, 7⟩
  settings := .ofList [("about", .ofList [("color", "red"), ("version_label", "old")])]

theorem load_unlabelled : (atShelf.load unlabelled).2 = .ok unlabelledConfig :=
  of_toOption_eq_some (by decide +kernel)

/-- A text that only begins like a number. -/
theorem load_labelled : Text.trimChars "1.2.3".toList = "1.2.3".toList ∧
    (atShelf.load unlabelled).2 = .ok unlabelledConfig ∧ ¬ Environment.Shaped "1.2.3".toList ∧
    ∃ c, (atShelf.load (labelled "1.2.3")).2 = .ok c ∧ versionLabel.get c = some "1.2.3" := by
  have trimmed : Text.trimChars "1.2.3".toList = "1.2.3".toList := by decide
  have free : ¬ Environment.Shaped "1.2.3".toList :=
    (Environment.readText_parse_iff trimmed).1 rfl
  exact ⟨trimmed, load_unlabelled, free,
    (load_overridden (labelled_overrides "1.2.3") trimmed load_unlabelled).1.2 free⟩

/-- A number is no text, although the document may have the same digits as a text. -/
theorem load_labelled_number : atShelf.Overrides versionLabel "42" unlabelled (labelled "42") ∧
    Text.trimChars "42".toList = "42".toList ∧
    (atShelf.load unlabelled).2 = .ok unlabelledConfig ∧
    ∀ c, (atShelf.load (labelled "42")).2 ≠ .ok c := by
  refine ⟨labelled_overrides "42", by decide, load_unlabelled, fun c loaded => ?_⟩
  have failed : (atShelf.load (labelled "42")).2.toOption = none := by decide +kernel
  rw [loaded] at failed
  cases failed

end Loader

end Registrar
