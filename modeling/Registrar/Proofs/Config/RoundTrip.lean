import Registrar.Config.Loader
import Registrar.Proofs.Config.Extraction
import Registrar.Proofs.Disk

/-!
# Saved configurations are loaded again

The values of a written configuration give the configuration back, and nothing changes them if no
variable of the environment speaks for the loader. The one thing that a saved configuration can
hold and a document cannot is a great number of log files: such a configuration is saved, and
loading it is a fault.
-/

namespace Registrar

theorem Config.check_eq_ok_iff {c : Config} : c.check = .ok () ↔
    (∃ severity, Severity.ofLowerCase? (Text.lowerCase c.logging.level) = some severity) ∧
      ∀ name ∈ c.settings.keys, Text.isBlankText name = false := by
  have blank : c.blankTable? = none ↔ ∀ name ∈ c.settings.keys, Text.isBlankText name = false := by
    simp [blankTable?]
  rw [check, Severity.parse, ← blank]
  cases Severity.ofLowerCase? (Text.lowerCase c.logging.level) <;>
    cases c.blankTable? <;> simp [Bind.bind, Except.bind]

namespace Environment

/-- The variable is one of those that start with the prefix. -/
def Carries (start name : String) : Prop :=
  (dropPrefix? start.toList (Text.trimChars name.toList)).isSome = true

theorem addVariable_of_not_carries {start : String} {v : String × String}
    (free : ¬ Carries start v.1) (members : Value.Members) :
    addVariable start members v = members := by
  have apart : dropPrefix? start.toList (Text.trimChars v.1.toList) = none := by
    simpa [Carries] using free
  have pathless : path? start v.1 = none := by simp [path?, apart]
  rw [addVariable, pathless]

theorem foldl_of_not_carries {start : String} {given : Variables}
    (free : ∀ e ∈ given, ¬ Carries start e.1) (members : Value.Members) :
    given.foldl (addVariable start) members = members := by
  induction given with
  | nil => rfl
  | cons e given ih =>
    rw [List.forall_mem_cons] at free
    rw [List.foldl_cons, addVariable_of_not_carries free.1]
    exact ih free.2

theorem read_eq_nil {start : String} {given : Variables}
    (free : ∀ v ∈ given, ¬ Carries start v.1) : read start given = [] :=
  foldl_of_not_carries free []

end Environment

namespace Loader

theorem of_save_eq_ok {c : Config} {path : String} {s s' : Surroundings}
    (saved : save c path s = .ok s') :
    s.disk.write s.folder path (Document.write c) = .ok s'.disk ∧ s'.folder = s.folder ∧
      s'.environment = s.environment := by
  unfold save at saved
  split at saved
  · next disk written =>
    cases saved
    exact ⟨written, rfl, rfl⟩
  · cases saved

/-- The document that is found under a path. -/
theorem readDocument_eq {s : Surroundings} {path content : String}
    (placed : Path.isAbsolute path = true ∨ s.disk.HasFolder s.folder)
    (found : s.disk.look s.folder path = .ok (.file content)) :
    ∃ shown, readDocument s path =
      (Document.read content).elim (.error malformed) fun members => .ok (members, shown) := by
  obtain ⟨whole, file⟩ := Surroundings.fileFor?_of_look placed found
  have there : s.exists? path = true := by
    simp [Surroundings.exists?, Disk.exists?, found, Except.isOk, Except.toBool]
  refine ⟨Path.seenFrom s.folderPath whole, ?_⟩
  rw [readDocument, if_pos there, file]
  dsimp only
  cases Document.read content <;> rfl

/-- Without a variable for the loader, only the document counts. -/
theorem gather_eq {l : Loader} {s : Surroundings} {path content : String}
    (placed : Path.isAbsolute path = true ∨ s.disk.HasFolder s.folder)
    (found : s.disk.look s.folder path = .ok (.file content))
    (free : ∀ v ∈ s.environment, ¬ Environment.Carries (l.variableStart ++ "_") v.1) :
    ∃ fault : Mismatch → Fault, (l.withPath path).gather s =
      (Document.read content).elim (.error (extracting malformed)) fun members =>
        (Config.extract members).mapError fault := by
  obtain ⟨shown, document⟩ := readDocument_eq placed found
  have silent : Environment.read ((l.withPath path).variableStart ++ "_") s.environment = [] :=
    Environment.read_eq_nil free
  have resolved : (l.withPath path).resolve s = some path := rfl
  refine ⟨fun m => extracting (mismatchFault shown (l.variableStart ++ "_") m), ?_⟩
  rw [gather, resolved]
  dsimp only
  rw [document]
  cases Document.read content with
  | none => rfl
  | some members =>
    dsimp only [Option.elim_some, Except.mapError, Bind.bind, Except.bind]
    rw [silent, Value.mergeMembers]
    rfl

theorem loadedEvent_of_look {s : Surroundings} {path content : String}
    (found : s.disk.look s.folder path = .ok (.file content)) :
    loadedEvent s path = .configurationLoaded path := by
  simp [loadedEvent, Surroundings.exists?, Disk.exists?, found, Except.isOk, Except.toBool]

theorem load_withPath (l : Loader) (path : String) (s : Surroundings) : (l.withPath path).load s =
    ([loadedEvent s path], do
      let c ← (l.withPath path).gather s
      c.check
      return c) := rfl

theorem look_saved {c : Config} {path : String} {s s' : Surroundings}
    (saved : save c path s = .ok s') :
    s'.disk.look s'.folder path = .ok (.file (Document.write c)) := by
  obtain ⟨written, folder, -⟩ := of_save_eq_ok saved
  rw [folder]
  exact Disk.look_write written

/-- All that a loader gathers is what was saved, unless that allows more log files than a document
can say. -/
theorem gather_saved {c : Config} {path : String} {s s' : Surroundings} (l : Loader)
    (placed : Path.isAbsolute path = true ∨ s.disk.HasFolder s.folder)
    (free : ∀ v ∈ s.environment, ¬ Environment.Carries (l.variableStart ++ "_") v.1)
    (saved : save c path s = .ok s') :
    (l.withPath path).gather s' = if c.logging.maxFiles.toNat < Document.signedLimit then .ok c
      else .error (extracting malformed) := by
  obtain ⟨written, folder, environment⟩ := of_save_eq_ok saved
  have placed' : Path.isAbsolute path = true ∨ s'.disk.HasFolder s'.folder := by
    refine placed.imp_right fun h => ?_
    obtain ⟨place, -, plain, disk⟩ := Disk.of_write_eq_ok written
    rw [folder, disk]
    exact h.put plain _
  obtain ⟨fault, gathered⟩ := gather_eq placed' (look_saved saved) (environment ▸ free)
  rw [gathered, Document.read_write]
  by_cases small : c.logging.maxFiles.toNat < Document.signedLimit
  · rw [if_pos small, if_pos small, Option.elim_some, Config.extract_members]
    rfl
  · rw [if_neg small, if_neg small, Option.elim_none]

/-- A configuration that is accepted and has been saved is loaded again, unless it allows more log
files than a document can say. -/
theorem load_saved {c : Config} {path : String} {s s' : Surroundings} (l : Loader)
    (accepted : c.check = .ok ())
    (placed : Path.isAbsolute path = true ∨ s.disk.HasFolder s.folder)
    (free : ∀ v ∈ s.environment, ¬ Environment.Carries (l.variableStart ++ "_") v.1)
    (saved : save c path s = .ok s') :
    (l.withPath path).load s' = ([.configurationLoaded path],
      if c.logging.maxFiles.toNat < Document.signedLimit then .ok c
      else .error (extracting malformed)) := by
  rw [load_withPath, gather_saved l placed free saved, loadedEvent_of_look (look_saved saved)]
  split
  · simp only [Bind.bind, Except.bind, accepted]
    rfl
  · rfl

/-- Names and texts that need every form of quoting, and an empty table. -/
def thorough : Config where
  registry := ⟨.replace, false⟩
  logging := ⟨"Warning", true, some "logs/täglich \"2\".log", 9223372036854775807⟩
  settings := .ofList [("leer", .empty), ("größe.\n", .ofList
    [("", "'''"), ("a b", "erste\nzweite \"\"\"\\"), ("c", "\x07'"), ("d", "\"\"\"\n")])]

/-- A working folder with a folder in it, and a variable that only looks like one of the loader. -/
def workshop : Surroundings where
  disk := ⟨[(["work"], .folder), (["work", "etc"], .folder)]⟩
  folder := ["work"]
  environment := [("MAPKEY", "x"), ("HOME", "/work")]
  today := "2024-05-01"

theorem load_thorough : thorough.check = .ok () ∧ workshop.disk.HasFolder workshop.folder ∧
    ∃ s', save thorough "etc/../etc/app.toml" workshop = .ok s' ∧
      (new.withPath "etc/../etc/app.toml").load s' =
        ([.configurationLoaded "etc/../etc/app.toml"], .ok thorough) := by
  have accepted : thorough.check = .ok () := by
    have level : Text.lowerCase "Warning" = "warning" := by decide +kernel
    refine Config.check_eq_ok_iff.2 ⟨⟨.warn, ?_⟩, by decide⟩
    rw [show thorough.logging.level = "Warning" from rfl, level]
    rfl
  have placed : workshop.disk.HasFolder workshop.folder := by
    constructor
    · intro name mem
      rw [List.mem_singleton.1 mem]
      constructor <;> decide
    · decide
  have free : ∀ v ∈ workshop.environment, ¬ Environment.Carries (new.variableStart ++ "_") v.1 := by
    simp only [Environment.Carries]
    decide
  have saved : save thorough "etc/../etc/app.toml" workshop = .ok { workshop with
      disk := workshop.disk.put ["work", "etc", "app.toml"] (.file (Document.write thorough)) } :=
    rfl
  exact ⟨accepted, placed, _, saved, load_saved new accepted (.inr placed) free saved⟩

/-- More log files than a document can say. -/
def crowded : Config where
  registry := Config.defaults.registry
  logging := { Config.defaults.logging with maxFiles := 9223372036854775808 }
  settings := Config.defaults.settings

def barren (disk : Disk) : Surroundings := ⟨disk, [], [], "", none⟩

/-- Such a configuration is accepted and saved, but not loaded. -/
theorem load_crowded : crowded.check = .ok () ∧
    ∃ s', save crowded "/app.toml" (barren .empty) = .ok s' ∧
      (new.withPath "/app.toml").load s' =
        ([.configurationLoaded "/app.toml"], .error (extracting malformed)) := by
  have accepted : crowded.check = .ok () := by
    have level : Text.lowerCase "info" = "info" := by decide +kernel
    refine Config.check_eq_ok_iff.2 ⟨⟨.info, ?_⟩, by decide⟩
    rw [show crowded.logging.level = "info" from rfl, level]
    rfl
  have saved : save crowded "/app.toml" (barren .empty) = .ok
      (barren (Disk.empty.put ["app.toml"] (.file (Document.write crowded)))) := rfl
  refine ⟨accepted, _, saved, ?_⟩
  have gathered := gather_saved new (.inl (by decide)) (by simp [barren]) saved
  rw [if_neg (by decide)] at gathered
  rw [load_withPath, gathered, loadedEvent_of_look (look_saved saved)]
  rfl

end Loader

end Registrar
