import Registrar.Document.Text
import Registrar.Document.Writer

/-!
# Written texts

A text that has been written is read back, whichever form was chosen for it. Between double quotes
every character has a spelling that both readers of double quotes understand; the forms between
single quotes are only chosen for texts that can stand in them as they are.

Three quotes end a text of several lines, and two more may stand before them. So the readers of
such texts see quotes in lumps: the lemmas about them carry the quotes that were written last and
not read yet.
-/

namespace Registrar.Document

@[simp] theorem push_some (c : Char) (cs rest : List Char) :
    push c (some (cs, rest)) = some (c :: cs, rest) := rfl

/-- The spellings of a character between double quotes, the quote and the line break apart. -/
inductive Spells (c : Char) : List Char → Prop where
  | letter (e : Char) (named : escaped? e = some c) : Spells c ['\\', e]
  | number (a b d e : Char) (numbered : numbered? [a, b, d, e] = some c) :
    Spells c ['\\', 'u', a, b, d, e]
  | itself (quote : c ≠ '"') (slash : c ≠ '\\') (allowed : isAllowed c = true) : Spells c [c]

theorem lt_of_isControl {c : Char} (control : isControl c = true) : c.toNat < 128 := by
  simp only [isControl, Bool.or_eq_true, Bool.and_eq_true, decide_eq_true_eq] at control
  omega

theorem isAllowed_of_not_isControl {c : Char} (free : isControl c = false) (line : c ≠ '\n') :
    isAllowed c = true := by
  by_cases tab : c = '\t'
  · simp [isAllowed, tab]
  · simp only [isControl, tab, line, ne_eq, not_false_eq_true, decide_true, Bool.and_true,
      Bool.or_eq_false_iff, decide_eq_false_iff_not, Nat.not_lt] at free
    simp [isAllowed, free]

theorem ne_of_isAllowed {c : Char} (allowed : isAllowed c = true) : c ≠ '\n' ∧ c ≠ '\r' := by
  constructor <;> rintro rfl <;> exact absurd allowed (by decide)

theorem capitalHex_small : ∀ n < 128, ∃ a b d e, capitalHex n = [a, b, d, e] ∧
    hexNumber? [a, b, d, e] = some n := by
  have checked : ∀ n < 128, (capitalHex n).length = 4 ∧ hexNumber? (capitalHex n) = some n := by
    decide +kernel
  intro n small
  obtain ⟨four, value⟩ := checked n small
  match digits : capitalHex n, four with
  | [a, b, d, e], _ => exact ⟨a, b, d, e, rfl, digits ▸ value⟩

theorem numbered?_of_hexNumber? {digits : List Char} {c : Char}
    (value : hexNumber? digits = some c.toNat) : numbered? digits = some c := by
  rw [numbered?, value]
  exact dif_pos c.valid

theorem spells_escapeControl {c : Char} (quote : c ≠ '"') (line : c ≠ '\n') :
    Spells c (escapeControl c) := by
  unfold escapeControl
  split
  · next e => exact .letter 'b' (e ▸ rfl)
  split
  · next e => exact .letter 't' (e ▸ rfl)
  split
  · next e => exact .letter 'f' (e ▸ rfl)
  split
  · next e => exact .letter 'r' (e ▸ rfl)
  split
  · next e => exact e ▸ .letter '\\' rfl
  next slash =>
  split
  · next control =>
    obtain ⟨a, b, d, e, same, value⟩ := capitalHex_small c.toNat (lt_of_isControl control)
    rw [same]
    exact .number a b d e (numbered?_of_hexNumber? value)
  · next free => exact .itself quote slash (isAllowed_of_not_isControl (by simpa using free) line)

theorem spelling_head {c : Char} {text : List Char} (h : Spells c text) :
    ∃ x tail, text = x :: tail ∧ x ≠ '"' ∧ x ≠ '\n' ∧ x ≠ '\r' := by
  cases h with
  | letter => exact ⟨_, _, rfl, by decide, by decide, by decide⟩
  | number => exact ⟨_, _, rfl, by decide, by decide, by decide⟩
  | itself quote slash allowed =>
    have breaks := ne_of_isAllowed allowed
    exact ⟨_, _, rfl, quote, breaks.1, breaks.2⟩

theorem readQuoted_spelled {c : Char} {text : List Char} (h : Spells c text) (rest : List Char) :
    readQuoted (text ++ rest) = push c (readQuoted rest) := by
  cases h with
  | letter e named =>
    have notShort : e ≠ 'u' := by rintro rfl; cases named
    have notLong : e ≠ 'U' := by rintro rfl; cases named
    simp [readQuoted, notShort, notLong, named]
  | number a b d e numbered => simp [readQuoted, numbered]
  | itself quote slash allowed => simp [readQuoted, slash, allowed]

theorem readQuoted_escapeQuoted (c : Char) (rest : List Char) :
    readQuoted (escapeQuoted c ++ rest) = push c (readQuoted rest) := by
  unfold escapeQuoted
  split
  · next quote => exact quote ▸ readQuoted_spelled (.letter '"' rfl) rest
  · next quote =>
    split
    · next line => exact line ▸ readQuoted_spelled (.letter 'n' rfl) rest
    · next line => exact readQuoted_spelled (spells_escapeControl quote line) rest

theorem readQuoted_escaped (cs rest : List Char) :
    readQuoted (cs.flatMap escapeQuoted ++ '"' :: rest) = some (cs, rest) := by
  induction cs with
  | nil => simp [readQuoted]
  | cons c cs ih =>
    rw [List.flatMap_cons, List.append_assoc, readQuoted_escapeQuoted, ih, push_some]

theorem readVerbatim_append {cs : List Char} (plain : ∀ c ∈ cs, c ≠ '\'' ∧ isAllowed c = true)
    (rest : List Char) : readVerbatim (cs ++ '\'' :: rest) = some (cs, rest) := by
  induction cs with
  | nil => simp [readVerbatim]
  | cons c cs ih =>
    obtain ⟨quote, allowed⟩ := plain c List.mem_cons_self
    have later := ih fun x hx => plain x (List.mem_cons_of_mem c hx)
    simp [readVerbatim, allowed, later]

theorem readQuotedLines_spelled {c : Char} {text : List Char} (h : Spells c text)
    (rest : List Char) :
    readQuotedLines false (text ++ rest) = push c (readQuotedLines false rest) := by
  cases h with
  | letter e named =>
    have notShort : e ≠ 'u' := by rintro rfl; cases named
    have notLong : e ≠ 'U' := by rintro rfl; cases named
    simp [readQuotedLines, notShort, notLong, named]
  | number a b d e numbered => simp [readQuotedLines, numbered]
  | itself quote slash allowed =>
    obtain ⟨line, return'⟩ := ne_of_isAllowed allowed
    simp [readQuotedLines, quote, slash, line, return', allowed]

theorem readQuotedLines_break (rest : List Char) :
    readQuotedLines false ('\n' :: rest) = push '\n' (readQuotedLines false rest) := by
  simp [readQuotedLines]

theorem readQuotedLines_after_quotes {s : Nat} (few : s ≤ 2) {x : Char} (other : x ≠ '"')
    {text cs rest : List Char} (later : readQuotedLines false (x :: text) = some (cs, rest)) :
    readQuotedLines false (List.replicate s '"' ++ x :: text) =
      some (List.replicate s '"' ++ cs, rest) := by
  match s with
  | 0 => exact later
  | 1 | 2 => simp [readQuotedLines, other, isAllowed, later]

theorem readQuotedLines_close {s : Nat} (few : s ≤ 2) {rest : List Char}
    (closed : rest.head? ≠ some '"') :
    readQuotedLines false (List.replicate s '"' ++ '"' :: '"' :: '"' :: rest) =
      some (List.replicate s '"', rest) := by
  cases rest with
  | nil =>
    match s with
    | 0 | 1 | 2 => simp [readQuotedLines]
  | cons x rest =>
    have other : x ≠ '"' := by simpa using closed
    match s with
    | 0 | 1 | 2 => simp [readQuotedLines, other]

/-- The first `s` quotes are those that `escapeLines` has seen already. -/
theorem readQuotedLines_escapeLines (cs : List Char) {s : Nat} (few : s ≤ 2) {rest : List Char}
    (closed : rest.head? ≠ some '"') :
    readQuotedLines false
        (List.replicate s '"' ++ (escapeLines s cs ++ '"' :: '"' :: '"' :: rest)) =
      some (List.replicate s '"' ++ cs, rest) := by
  induction cs generalizing s with
  | nil => simpa [escapeLines] using readQuotedLines_close few closed
  | cons c cs ih =>
    have later : readQuotedLines false (escapeLines 0 cs ++ '"' :: '"' :: '"' :: rest) =
        some (cs, rest) := by
      simpa using ih (Nat.zero_le 2)
    rw [escapeLines]
    split
    · next quote =>
      subst quote
      split
      · next third =>
        have escape := readQuotedLines_spelled (.letter '"' rfl)
          (escapeLines 0 cs ++ '"' :: '"' :: '"' :: rest)
        rw [later, push_some] at escape
        exact third ▸ readQuotedLines_after_quotes (Nat.le_refl 2) (by decide) escape
      · next early =>
        have counted := @ih (s + 1) (by omega)
        simpa [List.replicate_succ'] using counted
    · next quote =>
      split
      · next line =>
        have broken := readQuotedLines_break (escapeLines 0 cs ++ '"' :: '"' :: '"' :: rest)
        rw [later, push_some] at broken
        subst line
        exact readQuotedLines_after_quotes few (by decide) broken
      · next line =>
        have spelled := spells_escapeControl quote line
        obtain ⟨x, tail, text, other, -, -⟩ := spelling_head spelled
        have read := readQuotedLines_spelled spelled
          (escapeLines 0 cs ++ '"' :: '"' :: '"' :: rest)
        rw [later, push_some, text] at read
        rw [text, List.append_assoc]
        exact readQuotedLines_after_quotes few other read

theorem readVerbatimLines_after_quotes {s : Nat} (few : s ≤ 2) {x : Char} (other : x ≠ '\'')
    {text cs rest : List Char} (later : readVerbatimLines (x :: text) = some (cs, rest)) :
    readVerbatimLines (List.replicate s '\'' ++ x :: text) =
      some (List.replicate s '\'' ++ cs, rest) := by
  match s with
  | 0 => exact later
  | 1 | 2 => simp [readVerbatimLines, other, isAllowed, later]

theorem readVerbatimLines_close {s : Nat} (few : s ≤ 2) {rest : List Char}
    (closed : rest.head? ≠ some '\'') :
    readVerbatimLines (List.replicate s '\'' ++ '\'' :: '\'' :: '\'' :: rest) =
      some (List.replicate s '\'', rest) := by
  cases rest with
  | nil =>
    match s with
    | 0 | 1 | 2 => simp [readVerbatimLines]
  | cons x rest =>
    have other : x ≠ '\'' := by simpa using closed
    match s with
    | 0 | 1 | 2 => simp [readVerbatimLines, other]

theorem hasRun_append_of_hasRun {c : Char} {n : Nat} (before : List Char) {cs : List Char}
    (run : hasRun c n cs = true) : hasRun c n (before ++ cs) = true := by
  induction before with
  | nil => exact run
  | cons x before ih => rw [List.cons_append, hasRun, ih, Bool.or_true]

theorem hasRun_replicate_append (c : Char) (n : Nat) (cs : List Char) :
    hasRun c n (List.replicate n c ++ cs) = true := by
  match n, cs with
  | 0, [] => rfl
  | 0, x :: cs => rfl
  | n + 1, cs =>
    rw [List.replicate_succ, List.cons_append, hasRun, ← List.cons_append, ← List.replicate_succ]
    simp [List.prefix_append]

/-- No three quotes follow each other, the `s` quotes before the text counted in. -/
theorem readVerbatimLines_append {cs : List Char} {s : Nat} (few : s ≤ 2)
    (short : hasRun '\'' 3 (List.replicate s '\'' ++ cs) = false)
    (plain : ∀ c ∈ cs, c = '\n' ∨ isAllowed c = true) {rest : List Char}
    (closed : rest.head? ≠ some '\'') :
    readVerbatimLines (List.replicate s '\'' ++ (cs ++ '\'' :: '\'' :: '\'' :: rest)) =
      some (List.replicate s '\'' ++ cs, rest) := by
  induction cs generalizing s with
  | nil => simpa using readVerbatimLines_close few closed
  | cons c cs ih =>
    have plainLater : ∀ x ∈ cs, x = '\n' ∨ isAllowed x = true :=
      fun x hx => plain x (List.mem_cons_of_mem c hx)
    by_cases quote : c = '\''
    · subst quote
      have shortCounted : hasRun '\'' 3 (List.replicate (s + 1) '\'' ++ cs) = false := by
        simpa [List.replicate_succ'] using short
      have fewCounted : s + 1 ≤ 2 := by
        refine Nat.lt_of_le_of_ne few fun full => ?_
        rw [full, hasRun_replicate_append] at shortCounted
        cases shortCounted
      simpa [List.replicate_succ'] using ih fewCounted shortCounted plainLater
    · have shortLater : hasRun '\'' 3 cs = false := by
        refine Bool.eq_false_iff.2 fun run => ?_
        have whole := hasRun_append_of_hasRun (List.replicate s '\'' ++ [c]) run
        rw [List.append_assoc, List.singleton_append, short] at whole
        cases whole
      have later : readVerbatimLines (cs ++ '\'' :: '\'' :: '\'' :: rest) = some (cs, rest) := by
        simpa using ih (Nat.zero_le 2) (by simpa using shortLater) plainLater
      have fits : (c = '\n' || isAllowed c) = true := by
        simpa using plain c List.mem_cons_self
      have read : readVerbatimLines (c :: (cs ++ '\'' :: '\'' :: '\'' :: rest)) =
          some (c :: cs, rest) := by
        have return' : c ≠ '\r' := by rintro rfl; exact absurd fits (by decide)
        simp [readVerbatimLines, quote, return', fits, later]
      exact readVerbatimLines_after_quotes few quote read

/-- Whether a text can be written in a form. -/
def Fits (cs : List Char) : TextForm → Prop
  | .quoted | .quotedLines => True
  | .verbatim => ∀ c ∈ cs, c ≠ '\'' ∧ isAllowed c = true
  | .verbatimLines => hasRun '\'' 3 cs = false ∧ ∀ c ∈ cs, c = '\n' ∨ isAllowed c = true

theorem isAllowed_of_not_hasControl {cs : List Char} (free : hasControl cs = false) {c : Char}
    (mem : c ∈ cs) : c = '\n' ∨ isAllowed c = true := by
  by_cases line : c = '\n'
  · exact .inl line
  · exact .inr (isAllowed_of_not_isControl (by simpa using List.any_eq_false.1 free c mem) line)

theorem fits_verbatim {cs : List Char} (free : hasControl cs = false)
    (quotes : cs.contains '\'' = false) (lines : cs.contains '\n' = false) : Fits cs .verbatim := by
  intro c mem
  have quote : c ≠ '\'' := by rintro rfl; simp [mem] at quotes
  have line : c ≠ '\n' := by rintro rfl; simp [mem] at lines
  exact ⟨quote, (isAllowed_of_not_hasControl free mem).resolve_left line⟩

theorem fits_chooseForm (cs : List Char) : Fits cs (chooseForm cs) := by
  dsimp only [chooseForm]
  split
  · trivial
  split
  · next h =>
    simp only [Bool.and_eq_true, Bool.not_eq_true'] at h
    exact fits_verbatim h.1.1 h.1.2 h.2
  split
  · trivial
  split
  · next h =>
    simp only [Bool.and_eq_true, Bool.not_eq_true'] at h
    exact ⟨h.2, fun c mem => isAllowed_of_not_hasControl h.1 mem⟩
  split <;> trivial

theorem fits_chooseKeyForm (cs : List Char) : Fits cs (chooseKeyForm cs) := by
  dsimp only [chooseKeyForm]
  split
  · trivial
  split
  · next h =>
    simp only [Bool.and_eq_true, Bool.not_eq_true', Bool.or_eq_false_iff] at h
    exact fits_verbatim h.1.1 h.2 h.1.2
  · trivial

theorem dropBreak_opening {cs text : List Char}
    (start : cs.contains '\n' = true ∨ ∀ c ∈ text.head?, c ≠ '\n' ∧ c ≠ '\r') :
    dropBreak (opening cs ++ text) = text := by
  unfold opening
  split
  · rfl
  · next broken =>
    match text, start.resolve_left broken with
    | [], _ => rfl
    | c :: text, plain =>
      obtain ⟨line, return'⟩ := plain c rfl
      simp [dropBreak, line, return']

theorem head_escapeLines (cs text : List Char) :
    cs.contains '\n' = true ∨
      ∀ c ∈ (escapeLines 0 cs ++ '"' :: text).head?, c ≠ '\n' ∧ c ≠ '\r' := by
  match cs with
  | [] => exact .inr (by simp [escapeLines])
  | c :: cs =>
    by_cases line : c = '\n'
    · exact .inl (by simp [line])
    by_cases quote : c = '"'
    · exact .inr (by simp [escapeLines, quote])
    obtain ⟨x, tail, spelling, -, breaks⟩ := spelling_head (spells_escapeControl quote line)
    exact .inr (by simpa [escapeLines, quote, line, spelling] using breaks)

theorem head_verbatimLines {cs : List Char} (fits : Fits cs .verbatimLines) (text : List Char) :
    cs.contains '\n' = true ∨ ∀ c ∈ (cs ++ '\'' :: text).head?, c ≠ '\n' ∧ c ≠ '\r' := by
  match cs, fits with
  | [], _ => exact .inr (by simp)
  | c :: cs, ⟨_, plain⟩ =>
    by_cases line : c = '\n'
    · exact .inl (by simp [line])
    · have allowed := (plain c List.mem_cons_self).resolve_left line
      exact .inr (by simpa using ne_of_isAllowed allowed)

theorem escapeQuoted_head (c : Char) : ∃ x tail, escapeQuoted c = x :: tail ∧ x ≠ '"' := by
  unfold escapeQuoted
  split
  · exact ⟨_, _, rfl, by decide⟩
  · next quote =>
    split
    · exact ⟨_, _, rfl, by decide⟩
    · next line =>
      obtain ⟨x, tail, spelling, other, -⟩ := spelling_head (spells_escapeControl quote line)
      exact ⟨x, tail, spelling, other⟩

theorem readText_writeChars {form : TextForm} {cs rest : List Char} (fits : Fits cs form)
    (closed : rest.head? ≠ some '"' ∧ rest.head? ≠ some '\'') :
    readText (writeChars form cs ++ rest) = some (String.ofList cs, rest) := by
  cases form with
  | quoted =>
    -- an empty text must not be taken for the start of a text of several lines
    have read := readQuoted_escaped cs rest
    have dispatched : readText ('"' :: (cs.flatMap escapeQuoted ++ '"' :: rest)) =
        asString (readQuoted (cs.flatMap escapeQuoted ++ '"' :: rest)) := by
      cases cs with
      | nil =>
        cases rest with
        | nil => rfl
        | cons x rest =>
          have other : x ≠ '"' := by simpa using closed.1
          simp [readText, other]
      | cons c cs =>
        obtain ⟨x, tail, spelling, other⟩ := escapeQuoted_head c
        simp [readText, spelling, other]
    rw [writeChars, List.append_assoc, List.cons_append, List.singleton_append, dispatched, read]
    rfl
  | verbatim =>
    have read := readVerbatim_append fits rest
    have dispatched : readText ('\'' :: (cs ++ '\'' :: rest)) =
        asString (readVerbatim (cs ++ '\'' :: rest)) := by
      cases cs with
      | nil =>
        cases rest with
        | nil => rfl
        | cons x rest =>
          have other : x ≠ '\'' := by simpa using closed.2
          simp [readText, other]
      | cons c cs => simp [readText, (fits c List.mem_cons_self).1]
    rw [writeChars, List.append_assoc, List.cons_append, List.singleton_append, dispatched, read]
    rfl
  | quotedLines =>
    have read := readQuotedLines_escapeLines cs (Nat.zero_le 2) closed.1
    rw [List.replicate_zero, List.nil_append, List.nil_append] at read
    have start := dropBreak_opening (head_escapeLines cs ('"' :: '"' :: rest))
    simp only [writeChars, List.cons_append, List.nil_append, List.append_assoc, readText, start,
      read]
    rfl
  | verbatimLines =>
    have read := readVerbatimLines_append (Nat.zero_le 2) (by simpa using fits.1) fits.2 closed.2
    rw [List.replicate_zero, List.nil_append, List.nil_append] at read
    have start := dropBreak_opening (head_verbatimLines fits ('\'' :: '\'' :: rest))
    simp only [writeChars, List.cons_append, List.nil_append, List.append_assoc, readText, start,
      read]
    rfl

/-- A written text is read back, up to what follows it. -/
theorem readText_writeText (s : String) {rest : List Char}
    (closed : rest.head? ≠ some '"' ∧ rest.head? ≠ some '\'') :
    readText ((writeText s).toList ++ rest) = some (s, rest) := by
  rw [writeText, String.toList_ofList, readText_writeChars (fits_chooseForm s.toList) closed,
    String.ofList_toList]

end Registrar.Document
