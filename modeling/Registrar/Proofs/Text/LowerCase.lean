import Registrar.Text.LowerCase

/-!
# Lower-casing to ASCII

Within ASCII the lower-case mapping is the one of letters. From outside of it only the letter k can
be reached alone, from the Kelvin sign; the capital I with a dot brings its dot along. So a word of
ASCII without a k is the lower case of those texts alone that differ from it in the case of letters.
-/

namespace Registrar.Text

theorem toNat_toLower (c : Char) : c.toLower.toNat =
    if 65 ≤ c.toNat ∧ c.toNat ≤ 90 then c.toNat + 32 else c.toNat := by
  have bounds : (c.val ≥ 'A'.val ∧ c.val ≤ 'Z'.val) ↔ 65 ≤ c.toNat ∧ c.toNat ≤ 90 := by
    rw [ge_iff_le, UInt32.le_iff_toNat_le, UInt32.le_iff_toNat_le]
    rfl
  unfold Char.toLower
  split
  · next upper =>
    have sum : (c.val + ('a'.val - 'A'.val)).toNat = (c.toNat + 32) % 2 ^ 32 := UInt32.toNat_add ..
    rw [bounds] at upper
    rw [if_pos upper]
    refine sum.trans (Nat.mod_eq_of_lt ?_)
    omega
  · next other => rw [if_neg (mt bounds.2 other)]

theorem toLower_of_great {c : Char} (great : 90 < c.toNat) : c.toLower = c := by
  rw [← Char.toNat_inj, toNat_toLower, if_neg (by omega)]

theorem toNat_ofNat_of_isValidChar {n : Nat} (valid : n.isValidChar) : (Char.ofNat n).toNat = n := by
  rw [Char.ofNat, dif_pos valid]
  exact UInt32.toNat_ofNatLT

def latinRun : CaseRun := ⟨65, 90, 1, 32⟩

def kelvinRun : CaseRun := ⟨8490, 8490, 1, -8383⟩

/-- Apart from the Latin letters and the Kelvin sign, what a run moves is outside ASCII before and
after. -/
theorem lowerRuns_cases : ∀ run ∈ lowerRuns, run = latinRun ∨ run = kelvinRun ∨
    128 ≤ run.first ∧ 128 ≤ run.first + run.shift ∧
      (run.last + run.shift < 0xD800 ∨ 0xDFFF < run.first + run.shift) ∧
      run.last + run.shift < 0x110000 := by
  decide +kernel

theorem lowerChar_ascii {c : Char} (small : c.toNat < 128) : lowerChar c = [c.toLower] := by
  have plain : c ≠ '\u0130' := by
    rintro rfl
    exact absurd small (by decide)
  unfold lowerChar
  rw [if_neg plain]
  split
  · next run found =>
    have covered := Array.find?_some found
    simp only [CaseRun.covers, Bool.and_eq_true, decide_eq_true_eq] at covered
    rcases lowerRuns_cases run (Array.mem_of_find?_eq_some found) with rfl | rfl | outside
    · have upper : 65 ≤ c.toNat ∧ c.toNat ≤ 90 := covered.1
      have valid : (c.toNat + (32 : Int)).toNat.isValidChar := by
        rw [Nat.isValidChar]
        omega
      rw [List.singleton_inj, ← Char.toNat_inj, toNat_toLower, if_pos upper]
      refine (toNat_ofNat_of_isValidChar valid).trans ?_
      omega
    · have kelvin : 8490 ≤ c.toNat := covered.1.1
      omega
    · omega
  · next absent =>
    rw [Array.find?_eq_none] at absent
    have other := absent latinRun (by decide +kernel)
    have lower : ¬ (65 ≤ c.toNat ∧ c.toNat ≤ 90) := by
      intro upper
      apply other
      simp [CaseRun.covers, latinRun, upper, Nat.mod_one]
    rw [List.singleton_inj, ← Char.toNat_inj, toNat_toLower, if_neg lower]

theorem lowerChar_of_great {c : Char} (great : 128 ≤ c.toNat) :
    ∃ d ∈ lowerChar c, 128 ≤ d.toNat ∨ d = 'k' := by
  unfold lowerChar
  split
  · exact ⟨'\u0307', by simp, .inl (by decide)⟩
  · split
    · next run found =>
      have covered := Array.find?_some found
      simp only [CaseRun.covers, Bool.and_eq_true, decide_eq_true_eq] at covered
      refine ⟨_, List.mem_singleton_self _, ?_⟩
      rcases lowerRuns_cases run (Array.mem_of_find?_eq_some found) with rfl | rfl | outside
      · have upper : c.toNat ≤ 90 := covered.1.2
        omega
      · have first : 8490 ≤ c.toNat := covered.1.1
        have last : c.toNat ≤ 8490 := covered.1.2
        right
        rw [Nat.le_antisymm last first]
        rfl
      · left
        have valid : (c.toNat + run.shift).toNat.isValidChar := by
          rw [Nat.isValidChar]
          omega
        rw [toNat_ofNat_of_isValidChar valid]
        omega
    · exact ⟨c, List.mem_singleton_self c, .inl great⟩

theorem flatMap_lowerChar_iff {cs ws : List Char} (plain : ∀ d ∈ ws, d.toNat < 128 ∧ d ≠ 'k') :
    cs.flatMap lowerChar = ws ↔ cs.map Char.toLower = ws := by
  induction cs generalizing ws with
  | nil => simp
  | cons c cs ih =>
    rw [List.flatMap_cons, List.map_cons]
    rcases Nat.lt_or_ge c.toNat 128 with small | great
    · rw [lowerChar_ascii small, List.singleton_append]
      cases ws with
      | nil => simp
      | cons d ws =>
        rw [List.cons.injEq, List.cons.injEq, ih (List.forall_mem_cons.1 plain).2]
    · -- an image that no word has, and a character that no letter is the lower case of
      obtain ⟨d, mem, strange⟩ := lowerChar_of_great great
      constructor
      · rintro rfl
        obtain ⟨small, other⟩ := plain d (List.mem_append_left _ mem)
        exact absurd strange (not_or.2 ⟨Nat.not_le.2 small, other⟩)
      · rintro rfl
        have small := (plain c.toLower List.mem_cons_self).1
        rw [toLower_of_great (by omega)] at small
        omega

theorem lowerCase_eq_iff {s w : String} (plain : ∀ c ∈ w.toList, c.toNat < 128 ∧ c ≠ 'k') :
    lowerCase s = w ↔ s.toList.map Char.toLower = w.toList := by
  rw [lowerCase, ← flatMap_lowerChar_iff plain, ← String.toList_inj, String.toList_ofList]

end Registrar.Text
