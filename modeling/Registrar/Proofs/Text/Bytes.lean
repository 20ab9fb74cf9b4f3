import Mathlib.Data.List.Basic
import Mathlib.Data.String.Basic
import Registrar.Text.Order

/-!
# The order of bytes

A text is stored as the bytes of its UTF-8 form. A greater character has greater bytes, and neither
form is a beginning of the other, so texts are in the same order as their bytes.
-/

namespace Registrar.Text

/-- The UTF-8 form of a text. -/
def bytes (text : String) : List UInt8 := text.toByteArray.data.toList

theorem bytes_eq (text : String) : bytes text = text.toList.flatMap String.utf8EncodeChar := by
  rw [bytes, ← String.utf8Encode_toList, List.utf8Encode, List.toList_data_toByteArray]

/-- The forms of different characters differ before either of them ends. -/
theorem encode_append_lt {c d : Char} (less : c < d) (r s : List UInt8) :
    String.utf8EncodeChar c ++ r < String.utf8EncodeChar d ++ s := by
  have value : c.val.toNat < d.val.toNat := less
  have bounded : d.val.toNat < 0x110000 := by
    rcases d.valid with low | ⟨-, high⟩
    · exact Nat.lt_trans low (by decide)
    · exact high
  -- the leading bytes carry what is left of the value when six bits at a time are cut off
  have cut (v : Nat) (below : v < 0x110000) : v / 4096 = v / 64 / 64 ∧
      v / 262144 = v / 4096 / 64 ∧ v / 262144 % 8 = v / 262144 := by
    refine ⟨?_, ?_, Nat.mod_eq_of_lt (by omega)⟩ <;> rw [Nat.div_div_eq_div_mul]
  have small {v : Nat} (h : v < 256) : (UInt8.ofNat v).toNat = v := UInt8.toNat_ofNat_of_lt' h
  have cutC := cut c.val.toNat (Nat.lt_trans value bounded)
  have cutD := cut d.val.toNat bounded
  unfold String.utf8EncodeChar
  dsimp only
  split_ifs
  all_goals
    simp only [List.cons_append, List.nil_append, List.cons_lt_cons_iff, UInt8.lt_iff_toNat_lt,
      ← UInt8.toNat_inj]
    simp (disch := omega) only [small]
    omega

theorem flatMap_encode_lt {cs ds : List Char} (less : cs < ds) :
    cs.flatMap String.utf8EncodeChar < ds.flatMap String.utf8EncodeChar := by
  induction cs generalizing ds with
  | nil =>
    cases ds with
    | nil => exact absurd less (List.lt_irrefl _)
    | cons d ds =>
      obtain ⟨b, rest, form⟩ := List.exists_cons_of_ne_nil (String.utf8EncodeChar_ne_nil (c := d))
      rw [List.flatMap_cons, form]
      exact List.nil_lt_cons _ _
  | cons c cs ih =>
    cases ds with
    | nil => exact absurd less (List.not_lt_nil _)
    | cons d ds =>
      rw [List.flatMap_cons, List.flatMap_cons]
      rcases List.cons_lt_cons_iff.1 less with lessChar | ⟨rfl, lessRest⟩
      · exact encode_append_lt lessChar _ _
      · exact List.append_left_lt (ih lessRest)

theorem bytes_lt_of_lt {a b : String} (less : a < b) : bytes a < bytes b := by
  rw [bytes_eq, bytes_eq]
  exact flatMap_encode_lt (String.lt_iff_toList_lt.1 less)

/-- Texts are in the order of their bytes. -/
theorem bytes_le_iff {a b : String} : bytes a ≤ bytes b ↔ a ≤ b := by
  constructor
  · intro ordered
    rw [← String.not_lt]
    exact fun less => List.not_lt.2 ordered (bytes_lt_of_lt less)
  · intro ordered
    rcases lt_or_eq_of_le ordered with less | rfl
    · exact List.le_of_lt (bytes_lt_of_lt less)
    · exact List.le_refl _

end Registrar.Text
