import Mathlib.Data.Nat.Digits.Defs
import Registrar.Document.Value
import Registrar.Proofs.Document.Text

/-!
# Written keys and values

A key is read back if what follows cannot belong to it; a value, if its line ends there. A count is
written with all its digits, but a document holds only whole numbers below `signedLimit`: a greater
one is no value at all.
-/

namespace Registrar.Document

theorem takeWhile_dropWhile_append {α : Type} {p : α → Bool} {word rest : List α}
    (inside : ∀ c ∈ word, p c = true) (ended : ∀ c ∈ rest.head?, p c = false) :
    (word ++ rest).takeWhile p = word ∧ (word ++ rest).dropWhile p = rest := by
  rw [List.takeWhile_append_of_pos inside, List.dropWhile_append_of_pos inside]
  match rest, ended with
  | [], _ => simp
  | c :: rest, ended => simp [ended c rfl]

theorem isSpace_iff {c : Char} : isSpace c = true ↔ c = ' ' ∨ c = '\t' := by
  simp [isSpace]

theorem skipSpaces_of_head {c : Char} {cs : List Char} (h : isSpace c = false) :
    skipSpaces (c :: cs) = c :: cs := by
  simp [skipSpaces, h]

theorem skipSpaces_blank (cs : List Char) : skipSpaces (' ' :: cs) = skipSpaces cs := by
  simp [skipSpaces, isSpace]

theorem isBareKey_iff {cs : List Char} :
    isBareKey cs = true ↔ cs ≠ [] ∧ ∀ c ∈ cs, isBareChar c = true := by
  simp [isBareKey, isBareChar]

theorem chooseKeyForm_eq (cs : List Char) :
    chooseKeyForm cs = .quoted ∨ chooseKeyForm cs = .verbatim := by
  dsimp only [chooseKeyForm]
  split
  · exact .inl rfl
  · split
    · exact .inr rfl
    · exact .inl rfl

/-- No key starts like a blank, an empty line, a comment or a header. -/
theorem writeKey_head (name : String) : ∃ c tail, (writeKey name).toList = c :: tail ∧
    isSpace c = false ∧ c ∉ ['\n', '\r', '#', '['] := by
  unfold writeKey
  dsimp only
  split
  · next bare =>
    obtain ⟨filled, plain⟩ := isBareKey_iff.1 bare
    match chars : name.toList, filled, plain with
    | c :: tail, _, plain =>
      have start := plain c List.mem_cons_self
      refine ⟨c, tail, rfl, ?_, ?_⟩
      · refine Bool.eq_false_iff.2 fun space => ?_
        rcases isSpace_iff.1 space with rfl | rfl <;> exact absurd start (by decide)
      · intro special
        simp only [List.mem_cons, List.not_mem_nil, or_false] at special
        rcases special with rfl | rfl | rfl | rfl <;> exact absurd start (by decide)
  · rw [String.toList_ofList]
    rcases chooseKeyForm_eq name.toList with form | form
    · exact ⟨'"', _, by rw [form]; rfl, by decide, by decide⟩
    · exact ⟨'\'', _, by rw [form]; rfl, by decide, by decide⟩

theorem readKeyPart_bare {name : List Char} (bare : isBareKey name = true) {rest : List Char}
    (ended : ∀ c ∈ rest.head?, isBareChar c = false) :
    readKeyPart (name ++ rest) = some (String.ofList name, rest) := by
  obtain ⟨filled, plain⟩ := isBareKey_iff.1 bare
  obtain ⟨taken, left⟩ := takeWhile_dropWhile_append plain ended
  match name, filled, plain with
  | c :: tail, _, plain =>
    have start := plain c List.mem_cons_self
    have quote : c ≠ '"' := by rintro rfl; exact absurd start (by decide)
    have apostrophe : c ≠ '\'' := by rintro rfl; exact absurd start (by decide)
    rw [List.cons_append] at taken left ⊢
    simp [readKeyPart, quote, apostrophe, taken, left]

theorem readKeyPart_writeKey (name : String) {rest : List Char}
    (ended : ∀ c ∈ rest.head?, isBareChar c = false) :
    readKeyPart ((writeKey name).toList ++ rest) = some (name, rest) := by
  unfold writeKey
  dsimp only
  split
  · next bare => rw [readKeyPart_bare bare ended, String.ofList_toList]
  · rw [String.toList_ofList]
    have fits := fits_chooseKeyForm name.toList
    rcases chooseKeyForm_eq name.toList with form | form
    · rw [form, writeChars, List.append_assoc, List.cons_append, List.singleton_append]
      simp only [readKeyPart, readQuoted_escaped, asString, Option.map_some, String.ofList_toList]
    · rw [form] at fits ⊢
      rw [writeChars, List.append_assoc, List.cons_append, List.singleton_append]
      simp only [readKeyPart, readVerbatim_append fits, asString, Option.map_some,
        String.ofList_toList]

theorem readKeyParts_last (fuel : Nat) (name : String) {rest : List Char}
    (ended : ∀ c ∈ rest.head?, isBareChar c = false)
    (single : (skipSpaces rest).head? ≠ some '.') :
    readKeyParts (fuel + 1) ((writeKey name).toList ++ rest) = some ([name], rest) := by
  rw [readKeyParts, readKeyPart_writeKey name ended]
  simp only [Option.bind_eq_bind, Option.bind_some]
  split
  · next more dot => exact absurd (by rw [dot]; rfl) single
  · rfl

theorem readKeyParts_dot (fuel : Nat) (name : String) {x : Char} (start : isSpace x = false)
    (rest : List Char) : readKeyParts (fuel + 1) ((writeKey name).toList ++ '.' :: x :: rest) =
      (readKeyParts fuel (x :: rest)).map fun (parts, rest) => (name :: parts, rest) := by
  have dot : skipSpaces ('.' :: x :: rest) = '.' :: x :: rest := skipSpaces_of_head (by decide)
  have ended : ∀ c ∈ ('.' :: x :: rest).head?, isBareChar c = false := by
    intro c first
    cases first
    decide
  rw [readKeyParts, readKeyPart_writeKey name ended]
  simp only [Option.bind_eq_bind, Option.bind_some, dot, skipSpaces_of_head start]
  cases readKeyParts fuel (x :: rest) <;> rfl

theorem decimal_toDigits (n : Nat) : Text.decimal (Nat.toDigits 10 n) = n :=
  Nat.ofDigitChars_ten_toDigits

theorem isDigit_of_mem_toDigits {n : Nat} {c : Char} (mem : c ∈ Nat.toDigits 10 n) :
    c.isDigit = true :=
  Nat.isDigit_of_mem_toDigits (by decide) (by decide) mem

theorem toDigits_head_zero {n : Nat} (zero : (Nat.toDigits 10 n).head? = some '0') :
    (Nat.toDigits 10 n).length ≤ 1 := by
  induction n using Nat.strongRecOn with
  | _ n ih =>
    rw [Nat.toDigits_eq_if (by decide)] at zero ⊢
    split
    · simp
    · next big =>
      exfalso
      rw [if_neg big, List.head?_append,
        Option.or_of_isSome (by simp [Nat.toDigits_ne_nil])] at zero
      have short := ih (n / 10) (by omega) zero
      have one : n / 10 < 10 := by
        simpa using (Nat.length_toDigits_le_iff (by decide) (by decide)).1 short
      rw [Nat.toDigits_of_lt_base one, List.head?_cons, Option.some.injEq,
        Nat.digitChar_eq_zero] at zero
      omega

theorem takeNumber_rest {count n : Nat} {cs rest : List Char}
    (h : takeNumber count cs = some (n, rest)) : rest = cs.drop count := by
  simp only [takeNumber, Option.bind_eq_bind, Option.pure_def] at h
  split at h
  · cases h
  · simp only [Option.bind_eq_some_iff, Option.some.injEq, Prod.mk.injEq] at h
    obtain ⟨_, _, _, same⟩ := h
    exact same.symm

theorem takeChar_eq_none {allowed cs : List Char} (absent : ∀ c ∈ cs, c ∉ allowed) :
    takeChar allowed cs = none := by
  cases cs with
  | nil => rfl
  | cons c cs => simp [takeChar, absent c List.mem_cons_self]

/-- A date has a dash and a time a colon. -/
theorem readMoment_eq_none {word : List Char} (plain : ∀ c ∈ word, c ≠ '-' ∧ c ≠ ':') :
    readMoment word = none := by
  have noDate : readDate word = none := by
    unfold readDate
    cases year : takeNumber 4 word with
    | none => rfl
    | some p =>
      obtain ⟨n, rest⟩ := p
      have left := takeNumber_rest year
      have noDash : takeChar ['-'] rest = none := by
        refine takeChar_eq_none fun c mem => ?_
        rw [left] at mem
        simpa using (plain c (List.mem_of_mem_drop mem)).1
      simp only [Option.bind_eq_bind, Option.bind_some, noDash, Option.bind_none]
  have noTime : readTime word = none := by
    unfold readTime
    cases hour : takeNumber 2 word with
    | none => rfl
    | some p =>
      obtain ⟨n, rest⟩ := p
      have left := takeNumber_rest hour
      have noColon : takeChar [':'] rest = none := by
        refine takeChar_eq_none fun c mem => ?_
        rw [left] at mem
        simpa using (plain c (List.mem_of_mem_drop mem)).2
      simp only [Option.bind_eq_bind, Option.bind_some, noColon, Option.bind_none]
      cases within 0 23 n <;> rfl
  rw [readMoment, noDate, noTime]

theorem digitRun_toDigits (n : Nat) :
    digitRun Char.isDigit (Nat.toDigits 10 n) = some (Nat.toDigits 10 n, []) := by
  have all : ∀ c ∈ Nat.toDigits 10 n, c.isDigit = true := fun c mem => isDigit_of_mem_toDigits mem
  have run : ∀ cs : List Char, (∀ c ∈ cs, c.isDigit = true) →
      readDigits Char.isDigit cs = (cs, []) := by
    intro cs digits
    induction cs with
    | nil => rfl
    | cons c cs ih =>
      have digit := digits c List.mem_cons_self
      have under : c ≠ '_' := by rintro rfl; exact absurd digit (by decide)
      rw [readDigits, if_pos digit, ih fun x mem => digits x (List.mem_cons_of_mem c mem)]
      intro _ _ same
      exact absurd same under
  match digits : Nat.toDigits 10 n, all with
  | [], _ => exact absurd digits Nat.toDigits_ne_nil
  | c :: cs, all => simp [digitRun, all c List.mem_cons_self, run (c :: cs) all]

theorem readWhole_toDigits (n : Nat) :
    readWhole (Nat.toDigits 10 n) = some ⟨false, Nat.toDigits 10 n, []⟩ := by
  have digits : ∀ c ∈ (Nat.toDigits 10 n).head?, c ≠ '-' ∧ c ≠ '+' := by
    intro c first
    have digit := isDigit_of_mem_toDigits (List.mem_of_mem_head? first)
    constructor <;> rintro rfl <;> exact absurd digit (by decide)
  have minus : (Nat.toDigits 10 n).head? ≠ some '-' := fun first => (digits '-' first).1 rfl
  have plus : (Nat.toDigits 10 n).head? ≠ some '+' := fun first => (digits '+' first).2 rfl
  have proper : ¬ ((Nat.toDigits 10 n).head? = some '0' ∧ 1 < (Nat.toDigits 10 n).length) :=
    fun ⟨zero, long⟩ => absurd (toDigits_head_zero zero) (Nat.not_le.2 long)
  simp [readWhole, minus, plus, proper, digitRun_toDigits]

theorem readInteger_toDigits (n : Nat) :
    readInteger (Nat.toDigits 10 n) = if n < signedLimit then some (n : Int) else none := by
  have decimalOnly : readInteger (Nat.toDigits 10 n) = inRange n := by
    unfold readInteger
    split
    case h_4 => simp [readWhole_toDigits, signedNumber, decimal_toDigits]
    -- another base than ten is named by a letter behind the first digit
    all_goals
      next same =>
      have letter := isDigit_of_mem_toDigits (n := n)
        (same ▸ List.mem_cons_of_mem _ List.mem_cons_self)
      exact absurd letter (by decide)
  rw [decimalOnly, inRange]
  have low : -(signedLimit : Int) ≤ n := by omega
  simp [low]

theorem toDigits_ne_word {n : Nat} {word : String}
    (letters : ∀ c ∈ word.toList, c.isDigit = false) : String.ofList (Nat.toDigits 10 n) ≠ word := by
  rintro rfl
  rw [String.toList_ofList] at letters
  obtain ⟨c, mem⟩ := List.exists_mem_of_ne_nil _ (Nat.toDigits_ne_nil (n := n) (b := 10))
  exact absurd (isDigit_of_mem_toDigits mem) (by simp [letters c mem])

theorem readReal_toDigits (n : Nat) : readReal (Nat.toDigits 10 n) = none := by
  have notNamed : readNamed (Nat.toDigits 10 n) = none := by
    unfold readNamed
    split
    case h_7 => rfl
    all_goals next same => exact absurd same (toDigits_ne_word (by simp))
  simp [readReal, notNamed, readDecimal, readWhole_toDigits]

theorem readWord_toDigits (n : Nat) : readWord (Nat.toDigits 10 n) =
    if n < signedLimit then some (.scalar .document (.signed n)) else none := by
  have noMoment : readMoment (Nat.toDigits 10 n) = none := by
    refine readMoment_eq_none fun c mem => ?_
    have digit := isDigit_of_mem_toDigits mem
    constructor <;> rintro rfl <;> exact absurd digit (by decide)
  unfold readWord
  split
  case h_3 =>
    rw [noMoment, readInteger_toDigits, readReal_toDigits]
    by_cases small : n < signedLimit <;> simp [small]
  all_goals next same => exact absurd same (toDigits_ne_word (by simp))

/-- The text of a value, on one line or several, that is read as one where its line ends. -/
structure Denotes (text : String) (result : Option Value) : Prop where
  start : ∃ c tail, text.toList = c :: tail ∧ isSpace c = false
  read : ∀ depth fuel rest, readValue depth (fuel + 1) (text.toList ++ '\n' :: rest) =
    result.map (·, '\n' :: rest)

theorem writeText_head (s : String) :
    ∃ c tail, (writeText s).toList = c :: tail ∧ (c = '"' ∨ c = '\'') := by
  rw [writeText, String.toList_ofList]
  cases chooseForm s.toList with
  | quoted | quotedLines => exact ⟨_, _, rfl, .inl rfl⟩
  | verbatim | verbatimLines => exact ⟨_, _, rfl, .inr rfl⟩

theorem denotes_writeText (s : String) :
    Denotes (writeText s) (some (.scalar .document (.text s))) := by
  obtain ⟨c, tail, text, quote⟩ := writeText_head s
  constructor
  · exact ⟨c, tail, text, by rcases quote with rfl | rfl <;> decide⟩
  · intro depth fuel rest
    have read : readText ((writeText s).toList ++ '\n' :: rest) = some (s, '\n' :: rest) :=
      readText_writeText s ⟨by simp, by simp⟩
    rw [text, List.cons_append] at read ⊢
    rcases quote with rfl | rfl <;> simp only [readValue, read, Option.map_some]

theorem splitWord_append {word : List Char} (plain : ∀ c ∈ word, isWordChar c = true)
    (rest : List Char) : splitWord (word ++ '\n' :: rest) = (word, '\n' :: rest) := by
  have ended : ∀ c ∈ ('\n' :: rest).head?, isWordChar c = false := by
    intro c first
    cases first
    decide
  obtain ⟨taken, left⟩ := takeWhile_dropWhile_append plain ended
  simp [splitWord, taken, left]

theorem denotes_word (word : List Char) (filled : word ≠ [])
    (plain : ∀ c ∈ word, isWordChar c = true) : Denotes (String.ofList word) (readWord word) := by
  match word, filled, plain with
  | c :: tail, _, plain =>
    have letter := plain c List.mem_cons_self
    constructor
    · refine ⟨c, tail, String.toList_ofList, Bool.eq_false_iff.2 fun space => ?_⟩
      rcases isSpace_iff.1 space with rfl | rfl <;> exact absurd letter (by decide)
    · intro depth fuel rest
      have whole := splitWord_append plain rest
      have quote : c ≠ '"' := by rintro rfl; exact absurd letter (by decide)
      have apostrophe : c ≠ '\'' := by rintro rfl; exact absurd letter (by decide)
      have bracket : c ≠ '[' := by rintro rfl; exact absurd letter (by decide)
      have brace : c ≠ '\x7b' := by rintro rfl; exact absurd letter (by decide)
      rw [String.toList_ofList]
      rw [List.cons_append] at whole ⊢
      simp [readValue, quote, apostrophe, bracket, brace, whole]

theorem denotes_writeTruth (b : Bool) :
    Denotes (writeTruth b) (some (.scalar .document (.truth b))) := by
  cases b with
  | true => exact denotes_word "true".toList (by simp) (by simp [isWordChar])
  | false => exact denotes_word "false".toList (by simp) (by simp [isWordChar])

theorem denotes_toString (n : Nat) : Denotes (toString n)
    (if n < signedLimit then some (.scalar .document (.signed n)) else none) := by
  have plain : ∀ c ∈ Nat.toDigits 10 n, isWordChar c = true := by
    intro c mem
    simp [isWordChar, Char.isAlphanum, isDigit_of_mem_toDigits mem]
  rw [Nat.toString_eq_ofList_toDigits, ← readWord_toDigits]
  exact denotes_word _ Nat.toDigits_ne_nil plain

end Registrar.Document
