import Registrar.Proofs.Config.Options
import Registrar.Proofs.Config.Variables
import Registrar.Proofs.Text.Trim

/-!
# The contents of variables

A variable is mostly read as the text that it contains. It is not if the text has the shape of another
value: a truth value, a number, a quoted letter or text, a list or a dictionary. What only begins like
one of these is a text again.
-/

namespace Registrar

namespace Environment

open Extraction (readText)

theorem isBlank_of_isAsciiBlank {c : Char} (blank : isAsciiBlank c = true) :
    Text.isBlank c = true := by
  simp only [isAsciiBlank, List.mem_cons, List.not_mem_nil, or_false, decide_eq_true_eq] at blank
  rcases blank with rfl | rfl | rfl | rfl | rfl <;> decide

/-- Where a trimmed text ends with nothing but blanks, it has ended. -/
theorem eq_nil_of_skipBlanks {cs rest : List Char} (trimmed : Text.trimChars cs = cs)
    (suffix : rest <:+ cs) (blank : skipBlanks rest = []) : rest = [] := by
  obtain ⟨before, rfl⟩ := suffix
  cases last : rest.getLast? with
  | none => exact List.getLast?_eq_none_iff.1 last
  | some c =>
    have skipped := List.dropWhile_eq_nil_iff.1 blank c (List.mem_of_getLast? last)
    have kept := (Text.trimChars_eq_self_iff.1 trimmed).2 c (by rw [List.getLast?_append, last]; rfl)
    rw [isBlank_of_isAsciiBlank skipped] at kept
    cases kept

theorem skipBlanks_of_trimmed {cs : List Char} (trimmed : Text.trimChars cs = cs) :
    skipBlanks cs = cs := by
  refine Text.dropWhile_eq_self_iff.2 fun c head => ?_
  rw [← Bool.not_eq_true]
  intro blank
  have kept := (Text.trimChars_eq_self_iff.1 trimmed).1 c head
  rw [isBlank_of_isAsciiBlank blank] at kept
  cases kept

def IsNumber (cs : List Char) : Prop :=
  (real? cs).isSome = true ∨ (unsigned? cs).isSome = true ∨ (signed? cs).isSome = true

/-- The text is read as something else than itself. -/
inductive Shaped : List Char → Prop
  | truth : Shaped "true".toList
  | falsehood : Shaped "false".toList
  | letter (c : Char) : Shaped ['\'', c, '\'']
  | number {cs : List Char} (single : ∀ c ∈ cs, isSeparator c = false) (number : IsNumber cs) :
      Shaped cs
  /-- A quoted text, a list or a dictionary, from the first character to the last. -/
  | enclosed {c : Char} {cs : List Char} {v : Value} (opens : c ∈ ['"', '[', '\x7b'])
      (read : readValue (2 * (c :: cs).length + 2) (c :: cs) = some (v, [])) : Shaped (c :: cs)

theorem plainScalar_of_not_isNumber {cs : List Char} (other : ¬ IsNumber cs) :
    plainScalar cs = .text (String.ofList cs) := by
  simp only [IsNumber, not_or, Bool.not_eq_true, Option.isSome_eq_false_iff,
    Option.isNone_iff_eq_none] at other
  obtain ⟨real, unsigned, signed⟩ := other
  rw [plainScalar, real, unsigned, signed]

theorem plainScalar_of_isNumber {cs : List Char} (number : IsNumber cs) (text : String) :
    plainScalar cs ≠ .text text ∧ ∀ c, plainScalar cs ≠ .letter c := by
  unfold plainScalar
  cases real : real? cs with
  | some d => simp
  | none =>
    cases unsigned : unsigned? cs with
    | some n => simp
    | none =>
      cases signed : signed? cs with
      | some i => simp
      | none => simp [IsNumber, real, unsigned, signed] at number

/-- A number starts with a digit, a sign or a point. -/
theorem head_of_isNumber {c : Char} {rest : List Char} (number : IsNumber (c :: rest)) :
    c.isDigit = true ∨ c = '-' ∨ c = '+' ∨ c = '.' := by
  by_contra other
  simp only [not_or, Bool.not_eq_true] at other
  obtain ⟨digit, minus, plus, point⟩ := other
  simp [IsNumber, real?, unsigned?, Text.natural?, Text.isDigits, signed?, digit, minus, plus,
    point] at number

theorem parse_of_readValue {content : String} {v : Value}
    (read : readValue (2 * content.toList.length + 2) content.toList = some (v, [])) :
    parse content = v := by
  rw [parse, read]

theorem length_of_push {c : Char} {read : Document.Rest (List Char)} {n : Nat}
    (shorter : ∀ {text rest}, read = some (text, rest) → text.length < n) {text rest : List Char}
    (pushed : Document.push c read = some (text, rest)) : text.length < n + 1 := by
  obtain ⟨⟨later, rest'⟩, read, e⟩ := Option.map_eq_some_iff.1 pushed
  cases e
  exact Nat.succ_lt_succ (shorter read)

theorem length_of_readQuoted_document {cs text rest : List Char}
    (read : Document.readQuoted cs = some (text, rest)) : text.length < cs.length := by
  fun_induction Document.readQuoted cs generalizing text rest with
  | case1 => cases read
  | case2 =>
    cases read
    exact Nat.zero_lt_succ _
  | case3 _ _ _ _ _ _ _ ih => exact (length_of_push ih read).trans_le (by simp)
  | case4 => cases read
  | case5 _ _ _ _ _ _ _ _ _ _ _ ih => exact (length_of_push ih read).trans_le (by simp)
  | case6 => cases read
  | case7 _ _ _ _ _ _ ih => exact (length_of_push ih read).trans_le (by simp)
  | case8 => cases read
  | case9 _ _ _ _ _ _ _ ih => exact length_of_push ih read
  | case10 => cases read

theorem length_of_splitQuoted {cs inner rest : List Char}
    (split : splitQuoted cs = some (inner, rest)) : inner.length < cs.length := by
  fun_induction splitQuoted cs generalizing inner rest with
  | case1 => cases split
  | case2 =>
    cases split
    exact Nat.zero_lt_succ _
  | case3 c rest' ih =>
    obtain ⟨⟨later, rest''⟩, split, e⟩ := Option.map_eq_some_iff.1 split
    cases e
    exact Nat.succ_lt_succ (Nat.succ_lt_succ (ih split))
  | case4 c rest' _ _ ih =>
    obtain ⟨⟨later, rest''⟩, split, e⟩ := Option.map_eq_some_iff.1 split
    cases e
    exact Nat.succ_lt_succ (ih split)

/-- A quoted text is longer than the text between the quotes. -/
theorem length_of_readQuoted {cs rest : List Char} {text : String}
    (read : readQuoted cs = some (text, rest)) : text.length < cs.length := by
  obtain ⟨⟨inner, rest'⟩, split, read⟩ := Option.bind_eq_some_iff.1 read
  dsimp only at read
  split at read
  · next chars document =>
    cases read
    have inside := length_of_readQuoted_document document
    have whole := length_of_splitQuoted split
    rw [List.length_append, List.length_singleton] at inside
    rw [String.length_ofList]
    omega
  · cases read

theorem plain_of_single {cs : List Char} (trimmed : Text.trimChars cs = cs)
    (single : ∀ c ∈ cs, isSeparator c = false) :
    plain cs = (.scalar .environment (plainScalar cs), []) := by
  have whole : cs.takeWhile (!isSeparator ·) = cs :=
    List.takeWhile_eq_self_iff.2 fun c mem => by simp [single c mem]
  have nothing : cs.dropWhile (!isSeparator ·) = [] :=
    List.dropWhile_eq_nil_iff.2 fun c mem => by simp [single c mem]
  rw [plain, whole, nothing, trimmed]

theorem readValue_number {cs : List Char} (trimmed : Text.trimChars cs = cs)
    (single : ∀ c ∈ cs, isSeparator c = false) (number : IsNumber cs) (fuel : Nat) :
    readValue (fuel + 1) cs = some (.scalar .environment (plainScalar cs), []) := by
  rw [readValue, skipBlanks_of_trimmed trimmed]
  split
  · exact absurd (head_of_isNumber number) (by decide)
  · exact absurd (head_of_isNumber number) (by decide)
  · exact absurd (head_of_isNumber number) (by decide)
  · exact absurd (head_of_isNumber number) (by decide)
  · exact absurd (head_of_isNumber number) (by decide)
  · exact absurd (head_of_isNumber number) (by decide)
  · exact absurd (head_of_isNumber number) (by decide)
  · rw [plain_of_single trimmed single]
    rfl

theorem readText_of_enclosed {c : Char} {cs : List Char} {v : Value} {fuel : Nat}
    (opens : c ∈ ['"', '[', '\x7b']) (read : readValue (fuel + 1) (c :: cs) = some (v, [])) :
    readText v ≠ .ok (String.ofList (c :: cs)) := by
  simp only [List.mem_cons, List.not_mem_nil, or_false] at opens
  rcases opens with rfl | rfl | rfl
  · obtain ⟨⟨text, rest⟩, quoted, read⟩ := Option.bind_eq_some_iff.1 read
    have shorter := length_of_readQuoted quoted
    obtain ⟨rfl, -⟩ := Prod.mk.inj (Option.some.inj read)
    intro same
    have lengths := congrArg String.length (Except.ok.inj same)
    rw [String.length_ofList, List.length_cons] at lengths
    omega
  · obtain ⟨items, -, e⟩ := Option.map_eq_some_iff.1 read
    obtain ⟨rfl, -⟩ := Prod.mk.inj e
    exact nofun
  · obtain ⟨members, -, e⟩ := Option.map_eq_some_iff.1 read
    obtain ⟨rfl, -⟩ := Prod.mk.inj e
    exact nofun

theorem readText_of_shaped {cs : List Char} (trimmed : Text.trimChars cs = cs)
    (shaped : Shaped cs) : ∃ v, readValue (2 * cs.length + 2) cs = some (v, []) ∧
      readText v ≠ .ok (String.ofList cs) := by
  cases shaped with
  | truth => exact ⟨.scalar .environment (.truth true), rfl, nofun⟩
  | falsehood => exact ⟨.scalar .environment (.truth false), rfl, nofun⟩
  | letter c =>
    refine ⟨.scalar .environment (.letter c), rfl, fun same => ?_⟩
    have lengths := congrArg (List.length ∘ String.toList) (Except.ok.inj same)
    simp at lengths
  | number single number =>
    refine ⟨_, readValue_number trimmed single number _, ?_⟩
    obtain ⟨noText, noLetter⟩ := plainScalar_of_isNumber number (String.ofList cs)
    generalize plainScalar cs = s at *
    cases s with
    | text s =>
      intro same
      exact noText (congrArg _ (Except.ok.inj same))
    | letter c => exact absurd rfl (noLetter c)
    | _ => exact nofun
  | enclosed opens read => exact ⟨_, read, readText_of_enclosed opens read⟩

theorem rest_of_scalarThen {cs rest : List Char} {s : Scalar} {v : Value}
    (trimmed : Text.trimChars cs = cs) (suffix : rest <:+ cs)
    (read : scalarThen s rest = some (v, [])) : rest = [] :=
  eq_nil_of_skipBlanks trimmed suffix (Prod.mk.inj (Option.some.inj read)).2

theorem rest_of_plain {cs : List Char} (trimmed : Text.trimChars cs = cs)
    (ended : skipBlanks (cs.dropWhile (!isSeparator ·)) = []) : ∀ c ∈ cs, isSeparator c = false := by
  have nothing := eq_nil_of_skipBlanks trimmed (List.dropWhile_suffix _) ended
  simpa using List.dropWhile_eq_nil_iff.1 nothing

/-- A text without a shape is read as itself, if it is read to its end. -/
theorem of_not_shaped {cs : List Char} (trimmed : Text.trimChars cs = cs) (free : ¬ Shaped cs)
    {v : Value} (read : readValue (2 * cs.length + 2) cs = some (v, [])) :
    v = .scalar .environment (.text (String.ofList cs)) := by
  have whole := read
  rw [readValue, skipBlanks_of_trimmed trimmed] at read
  split at read
  · next rest =>
    rw [rest_of_scalarThen trimmed ⟨"true".toList, rfl⟩ read] at free
    exact absurd .truth free
  · next rest =>
    rw [rest_of_scalarThen trimmed ⟨"false".toList, rfl⟩ read] at free
    exact absurd .falsehood free
  · exact absurd (.enclosed (by decide) whole) free
  · exact absurd (.enclosed (by decide) whole) free
  · exact absurd (.enclosed (by decide) whole) free
  · next c rest =>
    rw [rest_of_scalarThen trimmed ⟨['\'', c, '\''], rfl⟩ read] at free
    exact absurd (.letter c) free
  · cases read
  · have single := rest_of_plain trimmed (Prod.mk.inj (Option.some.inj read)).2
    have text := plainScalar_of_not_isNumber fun number => free (.number single number)
    rw [plain_of_single trimmed single, text] at read
    exact (Prod.mk.inj (Option.some.inj read)).1.symm

theorem parse_of_not_shaped {content : String}
    (trimmed : Text.trimChars content.toList = content.toList) (free : ¬ Shaped content.toList) :
    parse content = .scalar .environment (.text content) := by
  rw [parse]
  split
  · next v read => rw [of_not_shaped trimmed free read, String.ofList_toList]
  · rfl

/-- A trimmed text is read as itself just if it has no other shape. -/
theorem readText_parse_iff {content : String}
    (trimmed : Text.trimChars content.toList = content.toList) :
    readText (parse content) = .ok content ↔ ¬ Shaped content.toList := by
  constructor
  · intro same shaped
    obtain ⟨v, read, other⟩ := readText_of_shaped trimmed shaped
    rw [String.ofList_toList] at other
    rw [parse_of_readValue read] at same
    exact other same
  · intro free
    rw [parse_of_not_shaped trimmed free]
    rfl

end Environment

end Registrar
