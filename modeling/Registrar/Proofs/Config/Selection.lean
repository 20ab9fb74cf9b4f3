import Registrar.Config.Loader
import Registrar.Proofs.Config.Layers
import Registrar.Proofs.Disk

/-!
# The document that is loaded

A load reads one document: the one that was asked for, or the first that exists among the usual
places. Nothing else on the disk counts, as long as the path does not lead to a folder: a folder is
there, so it is reported as loaded, but it holds no document, and a relative path is then tried from
the folders above the working folder.
-/

namespace Registrar

def DiskNode.content? : DiskNode → Option String
  | file content => some content
  | folder => none

theorem Disk.content?_of_look {d : Disk} {folder : Location} {path : String} {node : DiskNode}
    (found : d.look folder path = .ok node) : d.content? folder path = node.content? := by
  rw [Disk.content?, found]
  cases node <;> rfl

theorem Disk.exists?_eq (d : Disk) (folder : Location) (path : String) :
    d.exists? folder path = (d.look folder path).toOption.isSome := by
  rw [Disk.exists?]
  cases d.look folder path <;> rfl

namespace Surroundings

/-- What a path leads to. -/
def node? (s : Surroundings) (path : String) : Option DiskNode :=
  (s.disk.look s.folder path).toOption

/-- The path from the root. -/
def wholePath (s : Surroundings) (path : String) : String :=
  if Path.isAbsolute path then path else Path.join s.folderPath path

/-- A reader of the path looks no further than where it leads. -/
def Settles (s : Surroundings) (path : String) : Prop :=
  Path.isAbsolute path = true ∨ s.node? path ≠ some .folder

/-- Two surroundings of a program that differ in their disks only. -/
structure Beside (s s' : Surroundings) : Prop where
  folder : s'.folder = s.folder
  environment : s'.environment = s.environment
  account : s'.accountHome = s.accountHome
  here : s.disk.HasFolder s.folder
  there : s'.disk.HasFolder s'.folder

/-- The file that is read when a document is looked for at the path, with its whole path. -/
def documentAt? (s : Surroundings) (path : String) : Option (String × String) :=
  if s.exists? path then s.fileFor? path else none

variable {s s' : Surroundings} {path content : String}

theorem exists?_eq (s : Surroundings) (path : String) : s.exists? path = (s.node? path).isSome :=
  s.disk.exists?_eq s.folder path

theorem look_of_node? {node : DiskNode} (found : s.node? path = some node) :
    s.disk.look s.folder path = .ok node := by
  rw [node?] at found
  cases looked : s.disk.look s.folder path with
  | error fault =>
    rw [looked] at found
    cases found
  | ok other =>
    rw [looked] at found
    cases found
    rfl

/-- The first path that is tried is the whole path. -/
theorem readingPaths_eq (s : Surroundings) (path : String) :
    s.readingPaths path = s.wholePath path :: (s.readingPaths path).tail := by
  unfold readingPaths wholePath
  split
  · rfl
  · obtain ⟨above, nearest⟩ := wayTo_reverse s.folder
    rw [nearest]
    rfl

theorem tail_readingPaths (absolute : Path.isAbsolute path = true) :
    (s.readingPaths path).tail = [] := by
  rw [readingPaths, if_pos absolute]
  rfl

theorem look_wholePath {node : DiskNode} (placed : s.disk.HasFolder s.folder)
    (found : s.node? path = some node) : s.disk.look [] (s.wholePath path) = .ok node := by
  have looked := look_of_node? found
  unfold wholePath
  split
  · next absolute => rw [Disk.look_of_isAbsolute absolute, looked]
  · next relative =>
    rw [folderPath]
    exact Disk.look_join placed (Bool.eq_false_iff.2 relative) looked

theorem documentAt?_of_missing (missing : s.node? path = none) : s.documentAt? path = none := by
  rw [documentAt?, exists?_eq, missing]
  rfl

theorem documentAt?_of_file (placed : s.disk.HasFolder s.folder)
    (found : s.node? path = some (.file content)) :
    s.documentAt? path = some (s.wholePath path, content) := by
  have read := Disk.content?_of_look (look_wholePath placed found)
  rw [documentAt?, exists?_eq, found, fileFor?, readingPaths_eq, List.findSome?_cons, read]
  rfl

/-- Where a folder lies, the folders above are searched. -/
theorem documentAt?_of_folder (placed : s.disk.HasFolder s.folder)
    (found : s.node? path = some .folder) : s.documentAt? path =
      (s.readingPaths path).tail.findSome? fun whole =>
        (s.disk.content? [] whole).map (whole, ·) := by
  have read := Disk.content?_of_look (look_wholePath placed found)
  rw [documentAt?, exists?_eq, found, fileFor?, readingPaths_eq, List.findSome?_cons, read]
  rfl

theorem documentAt?_of_settles (placed : s.disk.HasFolder s.folder) (settled : s.Settles path) :
    s.documentAt? path =
      ((s.node? path).bind DiskNode.content?).map (s.wholePath path, ·) := by
  cases found : s.node? path with
  | none => exact documentAt?_of_missing found
  | some node =>
    cases node with
    | file content => exact documentAt?_of_file placed found
    | folder =>
      have absolute := settled.resolve_right fun other => other found
      rw [documentAt?_of_folder placed found, tail_readingPaths absolute]
      rfl

theorem Beside.folderPath_eq (beside : s.Beside s') : s'.folderPath = s.folderPath := by
  rw [folderPath, folderPath, beside.folder]

theorem Beside.wholePath_eq (beside : s.Beside s') (path : String) :
    s'.wholePath path = s.wholePath path := by
  rw [wholePath, wholePath, beside.folderPath_eq]

theorem Beside.documentAt?_eq (beside : s.Beside s') (settled : s.Settles path)
    (same : s'.node? path = s.node? path) : s'.documentAt? path = s.documentAt? path := by
  have settled' : s'.Settles path := by rwa [Settles, same]
  rw [documentAt?_of_settles beside.here settled, documentAt?_of_settles beside.there settled', same]
  simp only [beside.wholePath_eq]

end Surroundings

namespace Loader

variable {l : Loader} {s s' : Surroundings} {path : String}

/-- The configuration that a document and the variables make on top of the defaults. The document
comes with the path that faults in it name. -/
def combine (start : String) (environment : Environment.Variables)
    (document : Option (String × String)) : Except Fault Config := do
  let members ← match document with
    | some (_, content) => (Document.read content).elim (.error (extracting malformed)) .ok
    | none => .ok []
  let shown := document.elim "" Prod.fst
  let c ← (Config.extract (Value.mergeMembers members (Environment.read start environment))).mapError
    fun m => extracting (mismatchFault shown start m)
  c.check
  return c

/-- The file whose content is merged, with its whole path. -/
def merged? (l : Loader) (s : Surroundings) : Option (String × String) :=
  (l.resolve s).bind s.documentAt?

/-- The content that is merged is what the path leads to. -/
def Merges (l : Loader) (s : Surroundings) (path : String) : Prop :=
  ∃ content, s.node? path = some (.file content) ∧ l.merged? s = some (s.wholePath path, content)

def shownIn (s : Surroundings) (document : String × String) : String × String :=
  (Path.seenFrom s.folderPath document.1, document.2)

theorem readDocument_eq_documentAt? (s : Surroundings) (path : String) : readDocument s path =
    match (s.documentAt? path).map (shownIn s) with
    | some (shown, content) =>
      (Document.read content).elim (.error malformed) fun members => .ok (members, shown)
    | none => .ok ([], "") := by
  unfold readDocument Surroundings.documentAt?
  split
  · cases s.fileFor? path with
    | none => rfl
    | some file =>
      obtain ⟨whole, content⟩ := file
      dsimp only [Option.map_some, shownIn]
      cases Document.read content <;> rfl
  · rfl

/-- A load makes its configuration of one file, if any, and the variables. -/
theorem load_eq_combine (l : Loader) (s : Surroundings) :
    l.load s = ((l.resolve s).toList.map (loadedEvent s),
      combine (l.variableStart ++ "_") s.environment ((l.merged? s).map (shownIn s))) := by
  rw [load, gather, merged?]
  refine Prod.ext rfl ?_
  cases l.resolve s with
  | none => rfl
  | some path =>
    dsimp only [Option.bind_some]
    rw [readDocument_eq_documentAt?]
    cases (s.documentAt? path).map (shownIn s) with
    | none => rfl
    | some file =>
      dsimp only [combine]
      cases Document.read file.2 <;> rfl

theorem resolve_of_path (asked : l.path = some path) (s : Surroundings) :
    l.resolve s = some path := by
  rw [resolve, asked]
  rfl

theorem resolve_of_first {before after : List String} (usual : l.path = none)
    (listed : places s = before ++ path :: after) (free : ∀ p ∈ before, s.node? p = none)
    (found : (s.node? path).isSome = true) : l.resolve s = some path := by
  have first : (places s).find? s.exists? = some path := by
    refine List.find?_eq_some_iff_append.2 ⟨?_, before, after, listed, fun p mem => ?_⟩
    · rw [s.exists?_eq, found]
    · rw [s.exists?_eq, free p mem]
      rfl
  rw [resolve, usual]
  exact first

theorem resolve_of_none (usual : l.path = none) (free : ∀ p ∈ places s, s.node? p = none) :
    l.resolve s = none := by
  have nowhere : (places s).find? s.exists? = none := by
    refine List.find?_eq_none.2 fun p mem => ?_
    rw [s.exists?_eq, free p mem]
    simp
  rw [resolve, usual]
  exact nowhere

theorem places_eq (beside : s.Beside s') : places s' = places s := by
  simp only [places, configHome?, home?, Surroundings.valueOf?, beside.environment,
    beside.account, beside.folderPath_eq]

theorem loadedEvent_of_node? {node : DiskNode} (found : s.node? path = some node) :
    loadedEvent s path = .configurationLoaded path := by
  rw [loadedEvent, s.exists?_eq, found]
  rfl

theorem loadedEvent_of_missing (missing : s.node? path = none) :
    loadedEvent s path = .configurationMissing path := by
  rw [loadedEvent, s.exists?_eq, missing]
  rfl

/-- What is at the path that both loads resolve to is all they depend on. -/
theorem load_eq_of_resolve (beside : s.Beside s') (here : l.resolve s = some path)
    (there : l.resolve s' = some path) (settled : s.Settles path)
    (same : s'.node? path = s.node? path) : l.load s' = l.load s := by
  have event : loadedEvent s' path = loadedEvent s path := by
    rw [loadedEvent, loadedEvent, s.exists?_eq, s'.exists?_eq, same]
  have document := beside.documentAt?_eq settled same
  have shown : shownIn s' = shownIn s := by
    funext file
    rw [shownIn, shownIn, beside.folderPath_eq]
  rw [load_eq_combine, load_eq_combine, merged?, merged?, here, there, Option.bind_some,
    Option.bind_some, document, shown, beside.environment, Option.toList_some, List.map_singleton,
    List.map_singleton, event]

/-- The event is right unless the path leads to a folder, which holds no content. -/
theorem told_iff (placed : s.disk.HasFolder s.folder) (resolved : l.resolve s = some path) :
    ((.configurationLoaded path ∈ (l.load s).1 ↔ l.Merges s path) ↔
      s.node? path ≠ some .folder) := by
  have events : (l.load s).1 = [loadedEvent s path] := by
    rw [load_eq_combine, resolved]
    rfl
  have merged : l.merged? s = s.documentAt? path := by
    rw [merged?, resolved]
    rfl
  rw [events, List.mem_singleton, Merges, merged]
  cases found : s.node? path with
  | none => simp [loadedEvent_of_missing found]
  | some node =>
    cases node with
    | file content =>
      simp [loadedEvent_of_node? found, Surroundings.documentAt?_of_file placed found]
    | folder => simp [loadedEvent_of_node? found]

/-- What a load depends on, beside surroundings with another disk. -/
structure Exact (l : Loader) (s s' : Surroundings) : Prop where
  combined : l.load s = ((l.resolve s).toList.map (loadedEvent s),
    combine (l.variableStart ++ "_") s.environment ((l.merged? s).map (shownIn s)))
  /-- Only what is at the path counts if a path was asked for. -/
  asked : ∀ path, l.path = some path → s.Settles path → s'.node? path = s.node? path →
    l.load s' = l.load s
  missing : ∀ path, l.path = some path → s.node? path = none →
    l.load s = ([.configurationMissing path], combine (l.variableStart ++ "_") s.environment none)
  /-- Else only the first place counts where something is. -/
  first : l.path = none → ∀ before path after, places s = before ++ path :: after →
    (∀ p ∈ before, s.node? p = none ∧ s'.node? p = none) → (s.node? path).isSome = true →
    s.Settles path → s'.node? path = s.node? path → l.load s' = l.load s
  nowhere : l.path = none → (∀ p ∈ places s, s.node? p = none) →
    l.load s = ([], combine (l.variableStart ++ "_") s.environment none)
  /-- A document is reported as loaded just if its content is merged, unless a folder is there. -/
  told : ∀ path, l.resolve s = some path →
    ((.configurationLoaded path ∈ (l.load s).1 ↔ l.Merges s path) ↔ s.node? path ≠ some .folder)
  /-- A folder is reported as loaded, and what is merged is a file further up, if any. -/
  folder : ∀ path, l.resolve s = some path → s.node? path = some .folder →
    (l.load s).1 = [.configurationLoaded path] ∧
    l.merged? s = (s.readingPaths path).tail.findSome? fun whole =>
      (s.disk.content? [] whole).map (whole, ·)

theorem load_exact (l : Loader) (beside : s.Beside s') : l.Exact s s' where
  combined := l.load_eq_combine s
  asked path asked settled same :=
    load_eq_of_resolve beside (resolve_of_path asked s) (resolve_of_path asked s') settled same
  missing path asked missing := by
    rw [load_eq_combine, merged?, resolve_of_path asked s, Option.bind_some,
      Surroundings.documentAt?_of_missing missing, ← loadedEvent_of_missing missing]
    rfl
  first usual before path after listed free found settled same := by
    have here := resolve_of_first usual listed (fun p mem => (free p mem).1) found
    have listed' : places s' = before ++ path :: after := by rw [places_eq beside, listed]
    have there : l.resolve s' = some path :=
      resolve_of_first usual listed' (fun p mem => (free p mem).2) (by rw [same, found])
    exact load_eq_of_resolve beside here there settled same
  nowhere usual free := by
    rw [load_eq_combine, merged?, resolve_of_none usual free]
    rfl
  told path resolved := told_iff beside.here resolved
  folder path resolved found := by
    constructor
    · rw [load_eq_combine, resolved, ← loadedEvent_of_node? found]
      rfl
    · rw [merged?, resolved, Option.bind_some, Surroundings.documentAt?_of_folder beside.here found]

/-- A working folder with a document in it, and maybe more. -/
def desk (more : List (Location × DiskNode)) : Surroundings where
  disk := ⟨[(["work"], .folder), (["work", "mapkey.toml"], .file "[logging]\nlevel = \"warn\"\n")]
    ++ more⟩
  folder := ["work"]
  environment := [("HOME", "/work"), ("MAPKEY_LOGGING__JSON_FORMAT", "true")]
  today := "2024-05-01"

/-- A later place has a document too, and so has the folder above. -/
def crowdedDesk : Surroundings :=
  desk [(["work", "mapkey"], .folder),
    (["work", "mapkey", "mapkey.toml"], .file "[logging]\nlevel = \"error\"\n"),
    (["mapkey.toml"], .file "not a document")]

theorem desk_beside : (desk []).Beside crowdedDesk := by
  have name : Path.IsName "work" := by constructor <;> decide
  have names : ∀ part ∈ ["work"], Path.IsName part := by simpa using name
  exact ⟨rfl, rfl, rfl, ⟨names, by decide⟩, ⟨names, by decide⟩⟩

/-- The first document is loaded whether it is asked for or found, and no other one in place of a
document that is missing. -/
theorem load_desk : (desk []).Beside crowdedDesk ∧
    (new.withPath "mapkey.toml").load crowdedDesk = (new.withPath "mapkey.toml").load (desk []) ∧
    new.load crowdedDesk = new.load (desk []) ∧
    (new.withPath "elsewhere.toml").load (desk []) = ([.configurationMissing "elsewhere.toml"],
      combine "MAPKEY_" (desk []).environment none) ∧
    (.configurationLoaded "/work/mapkey.toml" ∈ (new.load (desk [])).1 ↔
      new.Merges (desk []) "/work/mapkey.toml") := by
  have exact (l : Loader) : l.Exact (desk []) crowdedDesk := load_exact l desk_beside
  have resolved : new.resolve (desk []) = some "/work/mapkey.toml" := by decide +kernel
  have listed : places (desk []) = [] ++ "/work/mapkey.toml" ::
      ["/work/mapkey/mapkey.toml", "/work/.config/mapkey/mapkey.toml",
        "/work/.mapkey/mapkey.toml"] := by decide +kernel
  refine ⟨desk_beside, ?_, ?_, ?_, ?_⟩
  · exact (exact _).asked "mapkey.toml" rfl (.inr (by decide +kernel)) (by decide +kernel)
  · exact (exact new).first rfl _ _ _ listed (by simp) (by decide +kernel) (.inl (by decide))
      (by decide +kernel)
  · exact (exact _).missing "elsewhere.toml" rfl (by decide +kernel)
  · exact ((exact new).told _ resolved).2 (by decide +kernel)

/-- A working folder where a folder has the name of the document. -/
def mislaid (more : List (Location × DiskNode)) : Surroundings where
  disk := ⟨[(["work"], .folder), (["work", "app.toml"], .folder)] ++ more⟩
  folder := ["work"]
  environment := []
  today := "2024-05-01"

def mislaidAbove : Surroundings :=
  mislaid [(["app.toml"], .file "[logging]\nlevel = \"debug\"\n")]

/-- Both disks have a folder where the document should be. It is reported as loaded, but a file in
the folder above decides what the configuration is. -/
theorem load_mislaid :
    mislaidAbove.node? "app.toml" = (mislaid []).node? "app.toml" ∧
    (atShelf.load mislaidAbove).1 = [.configurationLoaded "app.toml"] ∧
    atShelf.merged? mislaidAbove = some ("/app.toml", "[logging]\nlevel = \"debug\"\n") ∧
    ¬ atShelf.Merges mislaidAbove "app.toml" ∧
    (atShelf.load mislaidAbove).2.toOption.map (·.logging.level) = some "debug" ∧
    (atShelf.load (mislaid [])).2.toOption.map (·.logging.level) = some "info" ∧
    atShelf.load mislaidAbove ≠ atShelf.load (mislaid []) := by
  have folder : mislaidAbove.node? "app.toml" = some .folder := by decide +kernel
  have level : (atShelf.load mislaidAbove).2.toOption.map (·.logging.level) = some "debug" := by
    decide +kernel
  have level' : (atShelf.load (mislaid [])).2.toOption.map (·.logging.level) = some "info" := by
    decide +kernel
  refine ⟨by decide +kernel, by decide +kernel, by decide +kernel, ?_, level, level', ?_⟩
  · rintro ⟨content, file, -⟩
    rw [folder] at file
    cases file
  · intro same
    rw [same, level'] at level
    exact absurd level (by decide)

end Loader

end Registrar
