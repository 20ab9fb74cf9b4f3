import Registrar.Proofs.Config.Contents

/-!
# Names of variables

A path is spelled by joining its parts with double underscores, behind the prefix. It is read back
from the name whatever the case of the letters, as long as its parts are words: in lower case and
with single underscores that stand inside.
-/

namespace Registrar

namespace Environment

def isWordChar (c : Char) : Bool :=
  c ≠ '_' && c ≠ '.' && c.toLower = c && !Text.isBlank c

/-- A name in lower case, in which underscores stand alone and inside. -/
def isWord : List Char → Bool
  | [] => false
  | [c] => isWordChar c
  | c :: '_' :: rest => isWordChar c && isWord rest
  | c :: rest => isWordChar c && isWord rest

theorem toLower_eq_underscore_iff {c : Char} : c.toLower = '_' ↔ c = '_' := by
  have same (d : Char) : d = '_' ↔ d.toNat = 95 := by
    rw [← Char.toNat_inj]
    rfl
  rw [same, same, Text.toNat_toLower]
  split <;> omega

/-- A character of a word. -/
structure Inside (c : Char) : Prop where
  lower : c.toLower = c
  notBlank : Text.isBlank c = false
  notDot : c ≠ '.'

theorem inside_underscore : Inside '_' := by
  constructor <;> decide

theorem inside_of_isWordChar {c : Char} (char : isWordChar c = true) : Inside c ∧ c ≠ '_' := by
  simp only [isWordChar, Bool.and_eq_true, decide_eq_true_eq, Bool.not_eq_true'] at char
  obtain ⟨⟨⟨other, dot⟩, lower⟩, blank⟩ := char
  exact ⟨⟨lower, blank, dot⟩, other⟩

theorem inside_of_isWord {w : List Char} (word : isWord w = true) : ∀ c ∈ w, Inside c := by
  fun_induction isWord w with
  | case1 => cases word
  | case2 c => simpa using (inside_of_isWordChar word).1
  | case3 c rest ih =>
    rw [Bool.and_eq_true] at word
    rw [List.forall_mem_cons, List.forall_mem_cons]
    exact ⟨(inside_of_isWordChar word.1).1, inside_underscore, ih word.2⟩
  | case4 c rest _ _ ih =>
    rw [Bool.and_eq_true] at word
    rw [List.forall_mem_cons]
    exact ⟨(inside_of_isWordChar word.1).1, ih word.2⟩

theorem head_of_isWord {w : List Char} (word : isWord w = true) :
    ∃ c rest, w = c :: rest ∧ c ≠ '_' := by
  unfold isWord at word
  split at word
  · cases word
  · exact ⟨_, _, rfl, (inside_of_isWordChar word).2⟩
  · rw [Bool.and_eq_true] at word
    exact ⟨_, _, rfl, (inside_of_isWordChar word.1).2⟩
  · rw [Bool.and_eq_true] at word
    exact ⟨_, _, rfl, (inside_of_isWordChar word.1).2⟩

theorem segments_cons {c : Char} {rest part : List Char} {parts : List (List Char)}
    (single : c = '_' → rest.head? ≠ some '_') (later : segments rest = part :: parts) :
    segments (c :: rest) = (c :: part) :: parts := by
  rw [segments, later]
  rintro rest' rfl rfl
  exact single rfl rfl

/-- A word stays whole. -/
theorem segments_word {w tail : List Char} {parts : List (List Char)} (word : isWord w = true)
    (next : segments tail = [] :: parts) : segments (w ++ tail) = w :: parts := by
  fun_induction isWord w with
  | case1 => cases word
  | case2 c => exact segments_cons (fun same => absurd same (inside_of_isWordChar word).2) next
  | case3 c rest ih =>
    rw [Bool.and_eq_true] at word
    obtain ⟨d, rest', rfl, other⟩ := head_of_isWord word.2
    have alone := segments_cons (c := '_') (by simpa using other) (ih word.2)
    exact segments_cons (fun same => absurd same (inside_of_isWordChar word.1).2) alone
  | case4 c rest _ _ ih =>
    rw [Bool.and_eq_true] at word
    exact segments_cons (fun same => absurd same (inside_of_isWordChar word.1).2) (ih word.2)

theorem segments_ne_nil (cs : List Char) : segments cs ≠ [] := by
  unfold segments
  split
  · simp
  · split <;> simp
  · simp

theorem segments_map_toLower (cs : List Char) :
    segments (cs.map Char.toLower) = (segments cs).map (List.map Char.toLower) := by
  induction cs using dotted.induct with
  | case1 rest ih =>
    have mark : '_'.toLower = '_' := by decide
    simp [segments, mark, ih]
  | case2 c rest single ih =>
    have alone : c.toLower = '_' → (rest.map Char.toLower).head? ≠ some '_' := by
      rw [toLower_eq_underscore_iff, List.head?_map]
      intro same head
      obtain ⟨d, head, lower⟩ := Option.map_eq_some_iff.1 head
      rw [toLower_eq_underscore_iff] at lower
      exact head?_ne_of_single single same (lower ▸ head)
    obtain ⟨part, parts, later⟩ := List.exists_cons_of_ne_nil (segments_ne_nil rest)
    rw [later] at ih
    rw [List.map_cons, segments_cons alone ih, segments_cons (head?_ne_of_single single) later]
    rfl
  | case3 => rfl

/-- The parts of a path, as the name of a variable has them. -/
def joined (path : List String) : List Char := ("__".intercalate path).toList

theorem joined_cons_cons (word next : String) (path : List String) :
    joined (word :: next :: path) = word.toList ++ '_' :: '_' :: joined (next :: path) := by
  simp [joined, String.intercalate_cons_cons]

theorem inside_joined {path : List String} (words : ∀ part ∈ path, isWord part.toList = true) :
    ∀ c ∈ joined path, Inside c := by
  induction path with
  | nil => simp [joined]
  | cons part path ih =>
    rw [List.forall_mem_cons] at words
    have first := inside_of_isWord words.1
    cases path with
    | nil => simpa [joined] using first
    | cons next path =>
      rw [joined_cons_cons, List.forall_mem_append, List.forall_mem_cons, List.forall_mem_cons]
      exact ⟨first, inside_underscore, inside_underscore, ih words.2⟩

theorem segments_joined {path : List String} (filled : path ≠ [])
    (words : ∀ part ∈ path, isWord part.toList = true) :
    segments (joined path) = path.map String.toList := by
  induction path with
  | nil => exact absurd rfl filled
  | cons part path ih =>
    rw [List.forall_mem_cons] at words
    cases path with
    | nil =>
      have whole : segments (part.toList ++ []) = [part.toList] := segments_word words.1 rfl
      simpa [joined] using whole
    | cons next path =>
      have later := ih (by simp) words.2
      rw [joined_cons_cons]
      exact segments_word words.1 (by rw [segments, later, List.map_cons])

theorem joined_ne_nil {path : List String} (filled : path ≠ [])
    (words : ∀ part ∈ path, isWord part.toList = true) : joined path ≠ [] := by
  intro empty
  have parts := segments_joined filled words
  have listed : [] ∈ path.map String.toList := by
    rw [← parts, empty]
    exact List.mem_singleton_self []
  obtain ⟨word, mem, same⟩ := List.mem_map.1 listed
  have word := words word mem
  rw [same] at word
  cases word

/-- The variable has the name of the path behind the beginning, whatever the case of its letters. -/
def Spells (start : String) (path : List String) (name : String) : Prop :=
  name.toList.map Char.toLower = start.toList.map Char.toLower ++ joined path

section Spelled

variable {start name : String} {path : List String}

theorem trimmed_of_spells (filled : path ≠ []) (words : ∀ part ∈ path, isWord part.toList = true)
    {c : Char} (head : start.toList.head? = some c) (dark : Text.isBlank c = false)
    (spells : Spells start path name) : Text.trimChars name.toList = name.toList := by
  refine Text.trimmed_of_map_toLower (fun d first => ?_) fun d last => ?_
  · rw [spells, List.head?_append, List.head?_map, head] at first
    cases first
    rw [Text.isBlank_toLower, dark]
  · rw [spells, List.getLast?_append_of_ne_nil _ (joined_ne_nil filled words)] at last
    exact (inside_joined words d (List.mem_of_getLast? last)).notBlank

/-- A variable that spells a path is about that path. -/
theorem path?_of_spells (filled : path ≠ []) (words : ∀ part ∈ path, isWord part.toList = true)
    {c : Char} (head : start.toList.head? = some c) (dark : Text.isBlank c = false)
    (spells : Spells start path name) : path? start name = some path := by
  have whole := trimmed_of_spells filled words head dark spells
  obtain ⟨beginning, rest, split, same, lower⟩ := List.map_eq_append_iff.1 spells
  have inside := inside_joined words
  have free : ∀ c ∈ rest.map Char.toLower, Text.isBlank c = false := by
    rw [lower]
    exact fun c mem => (inside c mem).notBlank
  have trimmed : Text.trimChars rest = rest := Text.trimmed_of_map_toLower
    (fun c here => free c (List.mem_of_head? here)) fun c here => free c (List.mem_of_getLast? here)
  have parts : (segments rest).map (List.map Char.toLower) = path.map String.toList := by
    rw [← segments_map_toLower, lower, segments_joined filled words]
  rw [path?_eq (whole.trans split) same, trimmed]
  · have texts := congrArg (List.map String.ofList) parts
    simpa [Function.comp_def] using texts
  · rw [trimmed]
    intro part mem
    obtain ⟨word, member, eq⟩ := List.mem_map.1 (parts ▸ List.mem_map_of_mem mem)
    have word := words word member
    rw [eq] at word
    constructor
    · rintro rfl
      cases word
    · intro dot
      exact (inside_of_isWord word '.' (List.mem_map.2 ⟨'.', dot, rfl⟩)).notDot rfl

/-- The name has a double underscore, unlike the names of the variables for folders. -/
theorem ne_of_spells {first second : String} {more : List String}
    (spells : Spells start (first :: second :: more) name) {other : String}
    (single : ¬ ['_', '_'] <:+: other.toList.map Char.toLower) : other ≠ name := by
  rintro rfl
  apply single
  rw [spells, joined_cons_cons]
  exact ⟨start.toList.map Char.toLower ++ first.toList, joined (second :: more), by simp⟩

end Spelled

end Environment

end Registrar
