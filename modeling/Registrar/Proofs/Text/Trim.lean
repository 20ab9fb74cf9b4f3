import Mathlib.Data.List.DropRight
import Registrar.Proofs.Text.LowerCase
import Registrar.Text.Blank

/-!
# Trimmed texts

Trimming takes the white space from both ends of a text and leaves what stands between. It is taken
off again however much of it is put around a text.
-/

namespace Registrar.Text

/-- The characters with the Unicode property White_Space, one by one. -/
def whiteSpace : List Char :=
  ['\t', '\n', '\x0b', '\x0c', '\r', ' ', '\u0085', '\u00a0', '\u1680', '\u2000', '\u2001',
    '\u2002', '\u2003', '\u2004', '\u2005', '\u2006', '\u2007', '\u2008', '\u2009', '\u200a',
    '\u2028', '\u2029', '\u202f', '\u205f', '\u3000']

theorem isBlank_iff {c : Char} : isBlank c = true ↔ c ∈ whiteSpace := by
  simp only [isBlank, blankRanges, whiteSpace, List.any_cons, List.any_nil, Bool.or_false,
    Bool.or_eq_true, Bool.and_eq_true, decide_eq_true_eq, List.mem_cons, List.not_mem_nil, or_false,
    ← Char.toNat_inj, Char.reduceToNat]
  omega

theorem isBlank_toLower (c : Char) : isBlank c.toLower = isBlank c := by
  simp only [isBlank, blankRanges, toNat_toLower]
  split
  · rw [Bool.eq_iff_iff]
    simp
    omega
  · rfl

theorem dropWhile_eq_self_iff {p : Char → Bool} {cs : List Char} :
    cs.dropWhile p = cs ↔ ∀ c, cs.head? = some c → p c = false := by
  rw [List.dropWhile_eq_self_iff]
  cases cs <;> simp

theorem rdropWhile_eq_self_iff {p : Char → Bool} {cs : List Char} :
    cs.rdropWhile p = cs ↔ ∀ c, cs.getLast? = some c → p c = false := by
  rw [List.rdropWhile, List.reverse_eq_iff, dropWhile_eq_self_iff, List.head?_reverse]

theorem trimChars_eq (cs : List Char) :
    trimChars cs = (cs.dropWhile isBlank).rdropWhile isBlank := rfl

/-- Nothing is trimmed from a text that neither begins nor ends with a blank. -/
theorem trimChars_eq_self_iff {cs : List Char} : trimChars cs = cs ↔
    (∀ c, cs.head? = some c → isBlank c = false) ∧
      ∀ c, cs.getLast? = some c → isBlank c = false := by
  rw [← dropWhile_eq_self_iff, ← rdropWhile_eq_self_iff, trimChars_eq]
  constructor
  · intro same
    have whole : cs.dropWhile isBlank = cs := by
      refine (List.dropWhile_suffix isBlank).eq_of_length_le ?_
      rw [← congrArg List.length same]
      exact (List.rdropWhile_prefix isBlank _).length_le
    rw [whole] at same
    exact ⟨whole, same⟩
  · rintro ⟨whole, same⟩
    rw [whole, same]

theorem trimmed_of_map_toLower {cs : List Char}
    (head : ∀ c, (cs.map Char.toLower).head? = some c → isBlank c = false)
    (last : ∀ c, (cs.map Char.toLower).getLast? = some c → isBlank c = false) :
    trimChars cs = cs := by
  refine trimChars_eq_self_iff.2 ⟨fun c here => ?_, fun c here => ?_⟩
  · rw [← isBlank_toLower]
    exact head _ (by rw [List.head?_map, here]; rfl)
  · rw [← isBlank_toLower]
    exact last _ (by rw [List.getLast?_map, here]; rfl)

theorem trimChars_append {before cs after : List Char}
    (blankBefore : ∀ c ∈ before, isBlank c = true) (blankAfter : ∀ c ∈ after, isBlank c = true) :
    trimChars (before ++ (cs ++ after)) = trimChars cs := by
  have gone : after.dropWhile isBlank = [] := List.dropWhile_eq_nil_iff.2 blankAfter
  have goneAtEnd : ∀ c ∈ after.reverse, isBlank c = true := by simpa using blankAfter
  rw [trimChars_eq, trimChars_eq, List.dropWhile_append_of_pos blankBefore, List.dropWhile_append,
    gone]
  split
  · next blank => rw [List.isEmpty_iff.1 blank]
  · rw [List.rdropWhile, List.reverse_append, List.dropWhile_append_of_pos goneAtEnd]
    rfl

/-- A text is what trimming leaves of it, between two runs of blanks. -/
theorem exists_append_trimChars (cs : List Char) : ∃ before after,
    cs = before ++ (trimChars cs ++ after) ∧ (∀ c ∈ before, isBlank c = true) ∧
      ∀ c ∈ after, isBlank c = true := by
  refine ⟨cs.takeWhile isBlank, (cs.dropWhile isBlank).rtakeWhile isBlank, ?_, ?_, ?_⟩
  · rw [trimChars_eq, List.rdropWhile, List.rtakeWhile, ← List.reverse_append,
      List.takeWhile_append_dropWhile, List.reverse_reverse, List.takeWhile_append_dropWhile]
  · exact fun c inside => List.mem_takeWhile_imp inside
  · exact fun c inside => List.mem_rtakeWhile_imp inside

end Registrar.Text
