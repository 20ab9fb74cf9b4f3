import Mathlib
import Registrar.Proofs.Text.Trim
import Registrar.Surface.Kind

/-!
# Texts that name a kind

A kind is read from its name in letters of any ASCII case, with nothing but white space around it.
The names have small Latin letters only, so no character outside ASCII can stand for one of them,
and no text names two kinds.
-/

namespace Registrar

/-- The text differs from the word in that some letters are ASCII capitals. -/
def Text.Recased (cs word : List Char) : Prop :=
  List.Forall₂ (fun c letter => c = letter ∨ c = letter.toUpper) cs word

theorem Text.toLower_eq_iff {c letter : Char} (small : letter.isLower = true) :
    c.toLower = letter ↔ c = letter ∨ c = letter.toUpper := by
  constructor
  · rintro rfl
    by_cases capital : c.isUpper = true
    · have fixed := Char.toUpper_eq_of_not_isLower (Char.not_isLower_of_isUpper capital)
      exact .inr (by rw [Char.toUpper_toLower_eq_toUpper, fixed])
    · exact .inl (Char.toLower_eq_of_not_isUpper capital).symm
  · have fixed := Char.toLower_eq_of_not_isUpper (Char.not_isUpper_of_isLower small)
    rintro (rfl | rfl)
    · exact fixed
    · rw [Char.toLower_toUpper_eq_toLower, fixed]

theorem Text.recased_iff {cs word : List Char} (small : ∀ letter ∈ word, letter.isLower = true) :
    Recased cs word ↔ cs.map Char.toLower = word := by
  induction word generalizing cs with
  | nil => simp [Recased]
  | cons letter word ih =>
    rw [List.forall_mem_cons] at small
    cases cs with
    | nil => simp [Recased]
    | cons c cs =>
      rw [Recased, List.forall₂_cons, ← toLower_eq_iff small.1, List.map_cons, List.cons.injEq]
      exact and_congr_right fun _ => ih small.2

namespace SurfaceKind

/-- The text shows the name of the kind in letters of any ASCII case, between two runs of white
space. -/
def Shows (text : String) (kind : SurfaceKind) : Prop :=
  ∃ before word after, text.toList = before ++ (word ++ after) ∧
    (∀ c ∈ before, c ∈ Text.whiteSpace) ∧ Text.Recased word kind.name.toList ∧
    ∀ c ∈ after, c ∈ Text.whiteSpace

theorem mem_all (kind : SurfaceKind) : kind ∈ all := by
  cases kind <;> decide

theorem letters_of_name {kind : SurfaceKind} : ∀ letter ∈ kind.name.toList,
    letter.isLower = true ∧ Text.isBlank letter = false := by
  have checked : all.all (fun kind => kind.name.toList.all fun letter =>
    letter.isLower && !Text.isBlank letter) = true := by decide
  simpa using List.all_eq_true.1 checked kind kind.mem_all

theorem isLower_of_mem_name {kind : SurfaceKind} :
    ∀ letter ∈ kind.name.toList, letter.isLower = true :=
  fun letter inside => (letters_of_name letter inside).1

theorem foldCase_name (kind : SurfaceKind) : foldCase kind.name.toList = kind.name.toList := by
  cases kind <;> decide

theorem recased_name_iff {word : List Char} {kind : SurfaceKind} :
    Text.Recased word kind.name.toList ↔ foldCase word = foldCase kind.name.toList := by
  rw [Text.recased_iff isLower_of_mem_name, foldCase_name]
  rfl

/-- There is nothing to be trimmed from a name. -/
theorem trimChars_of_recased {word : List Char} {kind : SurfaceKind}
    (recased : Text.Recased word kind.name.toList) : Text.trimChars word = word := by
  have same := (Text.recased_iff isLower_of_mem_name).1 recased
  apply Text.trimmed_of_map_toLower
  all_goals
    rw [same]
    intro letter atEnd
  · exact (letters_of_name letter (List.mem_of_head? atEnd)).2
  · exact (letters_of_name letter (List.mem_of_getLast? atEnd)).2

theorem readAs_iff {text : String} {kind : SurfaceKind} :
    readAs text kind = true ↔ Shows text kind := by
  rw [readAs, decide_eq_true_eq, ← recased_name_iff]
  constructor
  · intro recased
    obtain ⟨before, after, split, blankBefore, blankAfter⟩ := Text.exists_append_trimChars text.toList
    simp only [Text.isBlank_iff] at blankBefore blankAfter
    exact ⟨before, _, after, split, blankBefore, recased, blankAfter⟩
  · rintro ⟨before, word, after, split, blankBefore, recased, blankAfter⟩
    simp only [← Text.isBlank_iff] at blankBefore blankAfter
    rwa [split, Text.trimChars_append blankBefore blankAfter, trimChars_of_recased recased]

theorem foldCase_name_injective : ∀ kind ∈ all, ∀ other ∈ all,
    foldCase kind.name.toList = foldCase other.name.toList → kind = other := by
  decide

theorem eq_of_readAs {text : String} {kind other : SurfaceKind} (first : readAs text kind = true)
    (second : readAs text other = true) : kind = other := by
  rw [readAs, decide_eq_true_eq] at first second
  exact foldCase_name_injective kind kind.mem_all other other.mem_all (first.symm.trans second)

theorem parse_eq_ok_iff {text : String} {kind : SurfaceKind} :
    parse text = .ok kind ↔ Shows text kind := by
  rw [← readAs_iff, parse]
  cases found : all.find? (readAs text) with
  | none =>
    have unread := List.find?_eq_none.1 found kind kind.mem_all
    simp [unread]
  | some other =>
    have read : readAs text other = true := List.find?_some found
    constructor
    · rintro ⟨⟩
      exact read
    · intro readToo
      rw [eq_of_readAs read readToo]

theorem parse_eq_error_iff {text : String} {fault : Fault} : parse text = .error fault ↔
    (∀ kind, ¬ Shows text kind) ∧ fault = .unknownKey text (Key.labels all) := by
  simp only [← readAs_iff]
  unfold parse
  cases found : all.find? (readAs text) with
  | none =>
    have unread (kind : SurfaceKind) := List.find?_eq_none.1 found kind kind.mem_all
    simp [unread, eq_comm]
  | some kind =>
    have read : readAs text kind = true := List.find?_some found
    simp only [reduceCtorEq, false_iff]
    exact fun refused => refused.1 kind read

/-- A text is read as a kind exactly if it shows its name, and it shows at most one. So what a kind
is displayed as is read back, in whatever case its letters are written and whatever white space
is put around it. Every other text is an unknown key, told as it stands, and the fault lists the
names of all kinds. -/
theorem parse_decides_names :
    (∀ text kind, parse text = .ok kind ↔ Shows text kind) ∧
    (∀ text kind other, Shows text kind → Shows text other → kind = other) ∧
    (∀ (kind : SurfaceKind) (before word after : String),
      (∀ c ∈ before.toList, c ∈ Text.whiteSpace) →
      Text.Recased word.toList (Key.name kind).toList →
      (∀ c ∈ after.toList, c ∈ Text.whiteSpace) →
      parse (before ++ word ++ after) = .ok kind) ∧
    ∀ text fault, parse text = .error fault ↔
      (∀ kind, ¬ Shows text kind) ∧ fault = .unknownKey text ["home", "settings", "about"] := by
  refine ⟨fun _ _ => parse_eq_ok_iff, fun text kind other first second => ?_,
    fun kind before word after blankBefore recased blankAfter => ?_, fun _ _ => parse_eq_error_iff⟩
  · exact eq_of_readAs (readAs_iff.2 first) (readAs_iff.2 second)
  · refine parse_eq_ok_iff.2 ⟨_, _, _, ?_, blankBefore, recased, blankAfter⟩
    rw [String.toList_append, String.toList_append, List.append_assoc]

/-- A character that only folds to a letter is none, and a blank inside a name is not trimmed. -/
example : (parse "\u2003SetTings\u00a0").toOption = some .settings ∧
    (parse "\u017fettings").toOption = none ∧ (parse "ho me").toOption = none := by cbv

end SurfaceKind

end Registrar
