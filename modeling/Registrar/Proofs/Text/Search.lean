import Mathlib.Data.List.TakeWhile
import Registrar.Proofs.Text.Bytes

/-!
# Searching for ASCII text

A text is searched by its bytes, and the places that are found count bytes. A byte of ASCII belongs
to no other character than its own. So what is in ASCII is found where it stands among the characters,
and the text may be cut there.
-/

namespace Registrar.Text

def encode (cs : List Char) : List UInt8 := cs.flatMap String.utf8EncodeChar

@[simp] theorem encode_nil : encode [] = [] := rfl

theorem encode_cons (c : Char) (cs : List Char) :
    encode (c :: cs) = String.utf8EncodeChar c ++ encode cs := List.flatMap_cons

theorem encode_append (cs ds : List Char) : encode (cs ++ ds) = encode cs ++ encode ds :=
  List.flatMap_append

theorem bytes_ofList (cs : List Char) : bytes (String.ofList cs) = encode cs := by
  rw [bytes_eq, String.toList_ofList]
  rfl

theorem bytes_of_append {text : String} {cs ds : List Char} (split : text.toList = cs ++ ds) :
    bytes text = encode cs ++ encode ds := by
  rw [← encode_append, ← split]
  exact bytes_eq text

theorem utf8EncodeChar_of_ascii {c : Char} (ascii : c.toNat < 128) :
    String.utf8EncodeChar c = [c.toUInt8] := by
  have single : c.utf8Size = 1 := by
    rw [Char.utf8Size_eq_one_iff, UInt32.le_iff_toNat_le]
    exact Nat.le_of_lt_succ ascii
  exact String.utf8EncodeChar_eq_singleton single

theorem encode_cons_of_ascii {c : Char} (ascii : c.toNat < 128) (cs : List Char) :
    encode (c :: cs) = c.toUInt8 :: encode cs := by
  rw [encode_cons, utf8EncodeChar_of_ascii ascii, List.singleton_append]

/-- All bytes of a longer form are outside of ASCII. -/
theorem mem_utf8EncodeChar_iff {c d : Char} (ascii : d.toNat < 128) :
    d.toUInt8 ∈ String.utf8EncodeChar c ↔ c = d := by
  constructor
  · intro inside
    have value : d.toUInt8.toNat = d.toNat :=
      (UInt32.toNat_toUInt8 _).trans (Nat.mod_eq_of_lt (Nat.lt_trans ascii (by decide)))
    rw [← Char.toNat_inj]
    change c.val.toNat = d.toNat
    unfold String.utf8EncodeChar at inside
    dsimp only at inside
    split_ifs at inside
    all_goals
      simp only [List.mem_cons, List.not_mem_nil, or_false, ← UInt8.toNat_inj, value,
        UInt8.toNat_ofNat'] at inside
      omega
  · rintro rfl
    rw [utf8EncodeChar_of_ascii ascii]
    exact List.mem_singleton_self _

/-- Behind some characters of a text is a boundary. -/
theorem isValid_of_append {text : String} {cs ds : List Char} (split : text.toList = cs ++ ds) :
    String.Pos.Raw.IsValid text ⟨(encode cs).length⟩ := by
  rw [String.Pos.Raw.isValid_iff_exists_append]
  refine ⟨String.ofList cs, String.ofList ds, ?_, ?_⟩
  · rw [← String.ofList_append, ← split, String.ofList_toList]
  · rw [← bytes_ofList]
    rfl

theorem findIdx_encode {d : Char} (ascii : d.toNat < 128) (cs : List Char) :
    (encode cs).findIdx (· = d.toUInt8) = (encode (cs.takeWhile (· ≠ d))).length := by
  induction cs with
  | nil => rfl
  | cons c cs ih =>
    by_cases same : c = d
    · subst same
      simp [encode_cons_of_ascii ascii, List.findIdx_cons]
    · have absent : ∀ b ∈ String.utf8EncodeChar c, decide (b = d.toUInt8) = false := by
        intro b inside
        rw [decide_eq_false_iff_not]
        rintro rfl
        exact same ((mem_utf8EncodeChar_iff ascii).1 inside)
      have skipped : (String.utf8EncodeChar c).findIdx (· = d.toUInt8) =
          (String.utf8EncodeChar c).length := List.findIdx_eq_length.2 absent
      have kept : (c :: cs).takeWhile (· ≠ d) = c :: cs.takeWhile (· ≠ d) := by simp [same]
      rw [encode_cons, List.findIdx_append, skipped, if_neg (Nat.lt_irrefl _), ih, kept, encode_cons,
        List.length_append, Nat.add_comm]

section LastPlace

variable {α : Type} [DecidableEq α] {part s : List α}

/-- The last place at which a part stands that is not empty. -/
def lastPlace? (part : List α) : List α → Option Nat
  | [] => none
  | a :: rest =>
    match lastPlace? part rest with
    | some n => some (n + 1)
    | none => if part <+: a :: rest then some 0 else none

theorem prefix_drop_of_lastPlace? {n : Nat} (found : lastPlace? part s = some n) :
    part <+: s.drop n := by
  induction s generalizing n with
  | nil => cases found
  | cons a rest ih =>
    rw [lastPlace?] at found
    split at found
    · next m later =>
      cases found
      exact ih later
    · split at found
      · next here =>
        cases found
        exact here
      · cases found

theorem take_of_lastPlace? {n : Nat} (found : lastPlace? part s = some n) :
    s.take (n + part.length) = s.take n ++ part := by
  obtain ⟨rest, split⟩ := prefix_drop_of_lastPlace? found
  rw [List.take_add, ← split, List.take_left]

/-- A part does not begin where its first item is not. -/
theorem lastPlace?_append {a : α} (absent : a ∉ s) (part rest : List α) :
    lastPlace? (a :: part) (s ++ rest) = (lastPlace? (a :: part) rest).map (s.length + ·) := by
  induction s with
  | nil => simp
  | cons b s ih =>
    rw [List.mem_cons, not_or] at absent
    have elsewhere : ¬ a :: part <+: b :: (s ++ rest) :=
      fun here => absent.1 (List.cons_prefix_cons.1 here).1
    rw [List.cons_append, lastPlace?, ih absent.2, List.length_cons]
    cases lastPlace? (a :: part) rest with
    | none => simp [elsewhere]
    | some n => simp [Nat.add_right_comm]

end LastPlace

theorem encode_prefix_iff {part : List Char} (ascii : ∀ c ∈ part, c.toNat < 128) {cs : List Char} :
    encode part <+: encode cs ↔ part <+: cs := by
  induction part generalizing cs with
  | nil => simp
  | cons d part ih =>
    rw [List.forall_mem_cons] at ascii
    rw [encode_cons_of_ascii ascii.1]
    cases cs with
    | nil => simp
    | cons c cs =>
      by_cases same : c = d
      · subst same
        rw [encode_cons_of_ascii ascii.1, List.cons_prefix_cons, List.cons_prefix_cons, ih ascii.2,
          eq_self, eq_self]
      · obtain ⟨b, form, split⟩ := List.exists_cons_of_ne_nil (String.utf8EncodeChar_ne_nil (c := c))
        have other : d.toUInt8 ≠ b := by
          rintro rfl
          exact same ((mem_utf8EncodeChar_iff ascii.1).1 (split ▸ List.mem_cons_self))
        rw [encode_cons, split, List.cons_append, List.cons_prefix_cons, List.cons_prefix_cons]
        simp [other, Ne.symm same]

/-- The last place of a part in ASCII is behind the same characters in bytes. -/
theorem lastPlace?_encode {part : List Char} (filled : part ≠ []) (ascii : ∀ c ∈ part, c.toNat < 128)
    (cs : List Char) : lastPlace? (encode part) (encode cs) =
      (lastPlace? part cs).map fun n => (encode (cs.take n)).length := by
  obtain ⟨d, more, rfl⟩ := List.exists_cons_of_ne_nil filled
  have small := ascii d List.mem_cons_self
  induction cs with
  | nil => rfl
  | cons c cs ih =>
    by_cases same : c = d
    · subst same
      have begins : encode (c :: more) <+: encode (c :: cs) ↔ c :: more <+: c :: cs :=
        encode_prefix_iff ascii
      rw [encode_cons_of_ascii small cs] at begins ⊢
      rw [lastPlace?, lastPlace?, ih]
      cases lastPlace? (c :: more) cs with
      | none => simp [begins]
      | some n => simp [encode_cons_of_ascii small]
    · have absent : d.toUInt8 ∉ String.utf8EncodeChar c := fun inside =>
        same ((mem_utf8EncodeChar_iff small).1 inside)
      have elsewhere : lastPlace? (d :: more) (c :: cs) =
          (lastPlace? (d :: more) cs).map ([c].length + ·) :=
        lastPlace?_append (List.mem_singleton.not.2 (Ne.symm same)) more cs
      rw [encode_cons_of_ascii small] at ih ⊢
      rw [encode_cons, lastPlace?_append absent, ih, elsewhere, Option.map_map, Option.map_map]
      congr 1
      funext n
      simp [Nat.add_comm 1 n, encode_cons]

end Registrar.Text
