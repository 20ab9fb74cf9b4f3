import Mathlib.Data.List.Basic
import Registrar.Disk.Basic
import Registrar.Proofs.Table

/-!
# Writing and reading a disk

A file that has been written is found again under the same path: the way to it leads through folders
only, and none of them is the file. A relative path is read from the working folder first, so the
file is also the one that a reader of the path means, if the working folder is there.
-/

namespace Registrar

namespace Text

variable {α : Type} [DecidableEq α]

theorem splitAt_of_not_mem {separator : α} {cs : List α} (absent : separator ∉ cs) :
    splitAt separator cs = [cs] := by
  induction cs with
  | nil => rfl
  | cons c cs ih =>
    rw [List.mem_cons, not_or] at absent
    rw [splitAt, if_neg (fun same => absent.1 (Eq.symm same)), ih absent.2]

theorem splitAt_append (separator : α) (cs rest : List α) :
    splitAt separator (cs ++ separator :: rest) =
      splitAt separator cs ++ splitAt separator rest := by
  induction cs with
  | nil => simp [splitAt]
  | cons c cs ih =>
    rw [List.cons_append, splitAt, splitAt, ih]
    split
    · rfl
    · cases parts : splitAt separator cs with
      | nil => exact absurd parts (splitAt_ne_nil separator cs)
      | cons part parts => rfl

end Text

namespace Path

/-- What a file or a folder can be called. -/
structure IsName (name : String) : Prop where
  notIdle : isIdle name = false
  notAbove : name ≠ ".."
  noSlash : '/' ∉ name.toList
  noZero : '\x00' ∉ name.toList
  short : name.utf8ByteSize ≤ 255

theorem segments_of_isName {name : String} (proper : IsName name) : segments name = [name] := by
  rw [segments, Text.splitAt_of_not_mem proper.noSlash]
  simp

theorem segments_append (first second : String) :
    segments (first ++ "/" ++ second) = segments first ++ segments second := by
  simp [segments, Text.splitAt_append]

theorem segments_intercalate {names : List String} (filled : names ≠ [])
    (proper : ∀ name ∈ names, IsName name) : segments ("/".intercalate names) = names := by
  induction names with
  | nil => exact absurd rfl filled
  | cons name names ih =>
    have first := segments_of_isName (proper name List.mem_cons_self)
    cases names with
    | nil => simpa using first
    | cons next more =>
      have later := ih (by simp) fun x mem => proper x (List.mem_cons_of_mem name mem)
      rw [String.intercalate_cons_cons, segments_append, first, later]
      rfl

theorem segments_empty : segments "" = [""] := by decide

theorem segments_of_slash_end {text : String} (slash : text.toList.getLast? = some '/') :
    ∃ before, segments text = segments before ++ [""] := by
  obtain ⟨before, chars⟩ := List.getLast?_eq_some_iff.1 slash
  have cut : text = String.ofList before ++ "/" ++ "" := by
    rw [← String.toList_inj]
    simpa using chars
  refine ⟨String.ofList before, ?_⟩
  rw [cut, segments_append, segments_empty]

theorem segments_folder {names : List String} (filled : names ≠ [])
    (proper : ∀ name ∈ names, IsName name) :
    segments ("/" ++ "/".intercalate names) = "" :: names := by
  have parts := segments_append "" ("/".intercalate names)
  rw [segments_empty, segments_intercalate filled proper] at parts
  simpa using parts

theorem folder_slash_end {names : List String} (filled : names ≠ [])
    (proper : ∀ name ∈ names, IsName name) :
    ("/" ++ "/".intercalate names).toList.getLast? ≠ some '/' := by
  intro slash
  obtain ⟨before, parts⟩ := segments_of_slash_end slash
  rw [segments_folder filled proper] at parts
  have last : "" ∈ names := by
    cases start : segments before with
    | nil => exact absurd (by simpa [start] using parts) filled
    | cons first more =>
      rw [start] at parts
      rw [(List.cons.inj parts).2]
      simp
  exact absurd (proper "" last).notIdle (by decide)

/-- The path of a folder with a relative path behind it. -/
theorem segments_join {names : List String} (proper : ∀ name ∈ names, IsName name) {path : String}
    (relative : isAbsolute path = false) :
    segments (join ("/" ++ "/".intercalate names) path) = "" :: names ++ segments path := by
  unfold join
  rw [if_neg (by simp [relative])]
  by_cases root : names = []
  · subst root
    have whole := segments_append "" path
    rw [segments_empty] at whole
    simpa using whole
  · rw [if_neg (folder_slash_end root proper), segments_append, segments_folder root proper]

theorem zero_not_mem_intercalate {names : List String} (proper : ∀ name ∈ names, IsName name) :
    '\x00' ∉ ("/".intercalate names).toList := by
  induction names with
  | nil => simp
  | cons name names ih =>
    have first := (proper name List.mem_cons_self).noZero
    have later := ih fun x mem => proper x (List.mem_cons_of_mem name mem)
    cases names with
    | nil => simpa using first
    | cons next more =>
      rw [String.intercalate_cons_cons]
      simp only [String.toList_append, List.mem_append, not_or]
      exact ⟨⟨first, by decide⟩, later⟩

theorem join_text (base : String) {path : String} (relative : isAbsolute path = false) :
    join ("/" ++ base) path = "/" ++ (base ++ path) ∨
      join ("/" ++ base) path = "/" ++ (base ++ "/" ++ path) := by
  have started : "/" ++ base ≠ "" := by
    intro same
    simpa using congrArg String.toList same
  unfold join
  rw [if_neg (by simp [relative, started])]
  split
  · exact .inl (String.append_assoc ..)
  · exact .inr (by simp only [String.append_assoc])

end Path

namespace Disk

theorem lookup_rewritten (nodes : List (Location × DiskNode)) (l l' : Location) (n : DiskNode) :
    (nodes.map fun e => if e.1 = l then (l, n) else e).lookup l' =
      if l' = l then (nodes.lookup l).map fun _ => n else nodes.lookup l' := by
  induction nodes with
  | nil => simp
  | cons e nodes ih =>
    rw [List.map_cons, Pairs.lookup_cons, Pairs.lookup_cons, Pairs.lookup_cons, ih]
    by_cases same : l' = l
    · subst same
      by_cases here : e.1 = l'
      · simp [here]
      · have other : ¬ l' = e.1 := fun h => here h.symm
        simp [here, other]
    · by_cases here : e.1 = l
      · subst here
        simp [same]
      · simp [here, same]

theorem lookup_put (d : Disk) (l l' : Location) (n : DiskNode) :
    (d.put l n).nodes.lookup l' = if l' = l then some n else d.nodes.lookup l' := by
  unfold put
  split
  · next there =>
    obtain ⟨old, found⟩ := Option.isSome_iff_exists.1 there
    rw [lookup_rewritten, found, Option.map_some]
  · next absent =>
    rw [Option.not_isSome_iff_eq_none] at absent
    rw [List.lookup_append, Pairs.lookup_cons, List.lookup_nil]
    by_cases same : l' = l
    · subst same
      simp [absent]
    · simp [same]

theorem node?_put_self {d : Disk} {l : Location} (inside : l ≠ []) (n : DiskNode) :
    (d.put l n).node? l = some n := by
  rw [node?, if_neg inside, lookup_put, if_pos rfl]

theorem node?_put_of_ne {d : Disk} {l l' : Location} (other : l ≠ l') (n : DiskNode) :
    (d.put l n).node? l' = d.node? l' := by
  rw [node?, node?, lookup_put, if_neg other.symm]

/-- A way that ends at no folder only uses folders, so what is put at its end does not bar it. -/
theorem walk_put {d : Disk} {l : Location} {n : DiskNode} (plain : d.node? l ≠ some .folder)
    {here : Location} {segments : List String} (way : d.walk here segments = .ok ⟨l, false⟩) :
    (d.put l n).walk here segments = .ok ⟨l, false⟩ := by
  induction segments generalizing here with
  | nil => simp [walk] at way
  | cons segment rest ih =>
    rw [walk] at way ⊢
    split at way
    · next idle =>
      rw [if_pos idle]
      exact ih way
    next busy =>
    rw [if_neg busy]
    split at way
    · next up =>
      rw [if_pos up]
      exact ih way
    next down =>
    rw [if_neg down]
    split at way
    · cases way
    next short =>
    rw [if_neg short]
    dsimp only at way ⊢
    cases rest with
    | nil => exact way
    | cons next more =>
      dsimp only at way ⊢
      cases node : d.node? (here ++ [segment]) with
      | none =>
        rw [node] at way
        dsimp only at way
        split at way <;> cases way
      | some found =>
        rw [node] at way
        cases found with
        | file text => cases way
        | folder =>
          -- a folder on the way is not the end of it, which is no folder
          have other : l ≠ here ++ [segment] := fun same => plain (same ▸ node)
          rw [node?_put_of_ne other, node]
          exact ih way

theorem of_write_eq_ok {d d' : Disk} {folder : Location} {path content : String}
    (written : d.write folder path content = .ok d') : ∃ l, d.locate folder path = .ok ⟨l, false⟩ ∧
      d.node? l ≠ some .folder ∧ d' = d.put l (.file content) := by
  unfold write writable at written
  cases way : d.locate folder path with
  | error fault =>
    rw [way] at written
    cases written
  | ok there =>
    obtain ⟨l, folderOnly⟩ := there
    rw [way] at written
    simp only [Bind.bind, Except.bind] at written
    split at written
    · cases written
    · next free =>
      rw [not_or, Bool.not_eq_true] at free
      obtain ⟨rfl, plain⟩ := free
      cases written
      exact ⟨l, rfl, by simpa [isFolderAt] using plain, rfl⟩

theorem locate_eq_ok_iff {d : Disk} {folder : Location} {path : String} {there : Destination} :
    d.locate folder path = .ok there ↔ '\x00' ∉ path.toList ∧ path ≠ "" ∧
      d.walk (if Path.isAbsolute path then [] else folder) (Path.segments path) = .ok there := by
  unfold locate
  by_cases zero : '\x00' ∈ path.toList
  · simp [zero]
  · by_cases empty : path = "" <;> simp [zero, empty]

theorem look_eq_ok_iff {d : Disk} {folder : Location} {path : String} {node : DiskNode} :
    d.look folder path = .ok node ↔
      ∃ there, d.locate folder path = .ok there ∧ d.node? there.location = some node := by
  unfold look
  cases d.locate folder path with
  | error fault => simp [Bind.bind, Except.bind]
  | ok there =>
    cases found : d.node? there.location <;> simp [Bind.bind, Except.bind, found]

/-- What has been written is found where it was written. -/
theorem look_write {d d' : Disk} {folder : Location} {path content : String}
    (written : d.write folder path content = .ok d') :
    d'.look folder path = .ok (.file content) := by
  obtain ⟨l, way, plain, rfl⟩ := of_write_eq_ok written
  have inside : l ≠ [] := by
    rintro rfl
    simp [node?] at plain
  obtain ⟨free, filled, walked⟩ := locate_eq_ok_iff.1 way
  refine look_eq_ok_iff.2 ⟨⟨l, false⟩, ?_, node?_put_self inside _⟩
  exact locate_eq_ok_iff.2 ⟨free, filled, walk_put plain walked⟩

/-- A folder that is there, with all folders above it. -/
structure HasFolder (d : Disk) (l : Location) : Prop where
  names : ∀ name ∈ l, Path.IsName name
  folders : ∀ above ∈ wayTo l, d.node? above = some .folder

theorem HasFolder.put {d : Disk} {l folder : Location} (h : d.HasFolder folder)
    (plain : d.node? l ≠ some .folder) (n : DiskNode) : (d.put l n).HasFolder folder := by
  refine ⟨h.names, fun above mem => ?_⟩
  have there := h.folders above mem
  have other : l ≠ above := by
    rintro rfl
    exact plain there
  rw [node?_put_of_ne other, there]

theorem mem_wayTo {l : Location} (before after : Location) (parts : l = before ++ after) :
    before ∈ wayTo l := by
  refine List.mem_map.2 ⟨before.length, ?_, ?_⟩
  · rw [List.mem_range, parts, List.length_append]
    omega
  · rw [parts, List.take_left]

/-- The names of a folder that is there lead to it. -/
theorem walk_names {d : Disk} {folder : Location} (h : d.HasFolder folder) {rest : List String}
    (more : rest ≠ []) {before names : Location} (parts : folder = before ++ names) :
    d.walk before (names ++ rest) = d.walk folder rest := by
  induction names generalizing before with
  | nil => rw [parts, List.append_nil, List.nil_append]
  | cons name names ih =>
    have proper := h.names name (by simp [parts])
    have there : d.node? (before ++ [name]) = some .folder :=
      h.folders _ (mem_wayTo (before ++ [name]) names (by simp [parts]))
    have later : d.walk (before ++ [name]) (names ++ rest) = d.walk folder rest :=
      ih (by simp [parts])
    have busy : ¬ (name = "" ∨ name = ".") := by simpa [Path.isIdle] using proper.notIdle
    have short : ¬ 255 < name.utf8ByteSize := Nat.not_lt.2 proper.short
    obtain ⟨next, tail, following⟩ : ∃ next tail, names ++ rest = next :: tail :=
      List.exists_cons_of_ne_nil (by simp [more])
    rw [List.cons_append, walk, if_neg busy, if_neg proper.notAbove, if_neg short, following]
    dsimp only
    rw [there, ← following]
    exact later

theorem look_of_isAbsolute {d : Disk} {folder : Location} {path : String}
    (absolute : Path.isAbsolute path = true) : d.look [] path = d.look folder path := by
  simp [look, locate, absolute]

/-- From the root, a relative path is found behind the names of the folder it starts from. -/
theorem look_join {d : Disk} {folder : Location} {path : String} {node : DiskNode}
    (h : d.HasFolder folder) (relative : Path.isAbsolute path = false)
    (found : d.look folder path = .ok node) :
    d.look [] (Path.join ("/" ++ "/".intercalate folder) path) = .ok node := by
  obtain ⟨there, way, node⟩ := look_eq_ok_iff.1 found
  obtain ⟨free, -, walked⟩ := locate_eq_ok_iff.1 way
  rw [relative] at walked
  have names : '\x00' ∉ ['/'].intercalate (folder.map String.toList) := by
    simpa using Path.zero_not_mem_intercalate h.names
  have text := Path.join_text ("/".intercalate folder) relative
  refine look_eq_ok_iff.2 ⟨there, locate_eq_ok_iff.2 ⟨?_, ?_, ?_⟩, node⟩
  · rcases text with text | text <;> rw [text] <;> simp [names, free]
  · intro empty
    rw [empty] at text
    rcases text with text | text <;> simpa using congrArg String.toList text
  · have filled : Path.segments path ≠ [] := by
      simpa [Path.segments] using Text.splitAt_ne_nil '/' path.toList
    have fromRoot : d.walk [] (folder ++ Path.segments path) = d.walk folder (Path.segments path) :=
      walk_names h filled rfl
    rw [ite_self, Path.segments_join h.names relative, List.cons_append, walk, if_pos (.inl rfl),
      fromRoot]
    exact walked

end Disk

namespace Surroundings

theorem wayTo_reverse (l : Location) : ∃ above, (Disk.wayTo l).reverse = l :: above := by
  refine ⟨((List.range l.length).map l.take).reverse, ?_⟩
  rw [Disk.wayTo, List.range_succ, List.map_append, List.reverse_append]
  simp

/-- The nearest folder that a relative path is read from is the working folder. -/
theorem fileFor?_of_look {s : Surroundings} {path content : String}
    (placed : Path.isAbsolute path = true ∨ s.disk.HasFolder s.folder)
    (found : s.disk.look s.folder path = .ok (.file content)) :
    ∃ whole, s.fileFor? path = some (whole, content) := by
  unfold fileFor? readingPaths
  split
  · next absolute =>
    have direct : s.disk.look [] path = .ok (.file content) := by
      rw [Disk.look_of_isAbsolute absolute, found]
    exact ⟨path, by simp [Disk.content?, direct]⟩
  · next relative =>
    obtain ⟨above, nearest⟩ := wayTo_reverse s.folder
    have direct := Disk.look_join (placed.resolve_left relative)
      (Bool.eq_false_iff.2 relative) found
    refine ⟨Path.join ("/" ++ "/".intercalate s.folder) path, ?_⟩
    rw [nearest, List.map_cons]
    simp [Disk.content?, direct]

end Surroundings

end Registrar
