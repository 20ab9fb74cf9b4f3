import Registrar.Proofs.Key.ShortName
import Registrar.Proofs.Text.Search

/-!
# The path that is cut off a name

Whatever text is taken for the name of a type, its short name is what follows the longest beginning
that is free of angle brackets and, if there is any of it, ends with a step of a path. This settles
what becomes of the rest of the name. The bytes of the name are searched for that beginning, and both
places that are found there are boundaries of characters.
-/

namespace Registrar.TypeName

/-- The text may be cut off the beginning of the name. -/
structure Removable (beginning name : List Char) : Prop where
  begins : beginning <+: name
  unmarked : '<' ∉ beginning
  steps : beginning = [] ∨ [':', ':'] <:+ beginning

def pathOf (name : List Char) : List Char :=
  (headOf name).take ((pathLength (headOf name)).getD 0)

theorem pathLength_eq (s : List Char) :
    pathLength s = (Text.lastPlace? [':', ':'] s).map (· + 2) := by
  induction s with
  | nil => rfl
  | cons c s ih =>
    have here : [':', ':'] <+: c :: s ↔ c = ':' ∧ s.head? = some ':' := by
      cases s <;> simp [List.cons_prefix_cons, eq_comm]
    rw [pathLength, Text.lastPlace?, ih]
    cases Text.lastPlace? [':', ':'] s with
    | some n => rfl
    | none =>
      by_cases colons : c = ':' ∧ s.head? = some ':'
      · rw [if_pos (here.2 colons)]
        exact if_pos colons
      · rw [if_neg (mt here.1 colons)]
        exact if_neg colons

theorem suffix_take_of_pathLength {s : List Char} {n : Nat} (found : pathLength s = some n) :
    [':', ':'] <:+ s.take n := by
  rw [pathLength_eq] at found
  obtain ⟨place, last, rfl⟩ := Option.map_eq_some_iff.1 found
  exact ⟨_, (Text.take_of_lastPlace? last).symm⟩

theorem two_le_pathLength {s : List Char} {n : Nat} (found : pathLength s = some n) : 2 ≤ n :=
  (suffix_take_of_pathLength found).length_le.trans (List.length_take_le n s)

theorem exists_le_pathLength (before after : List Char) :
    ∃ n, pathLength (before ++ [':', ':'] ++ after) = some n ∧ before.length + 2 ≤ n := by
  obtain ⟨n, found, -⟩ := exists_pathLength (List.prefix_append [':', ':'] after).isInfix
  rw [List.append_assoc, pathLength_append found]
  exact ⟨_, rfl, Nat.add_le_add_left (two_le_pathLength found) _⟩

theorem pathOf_append_shorten (name : List Char) : pathOf name ++ shorten name = name := by
  have short : (pathLength (headOf name)).getD 0 ≤ (headOf name).length := by
    cases found : pathLength (headOf name) with
    | none => exact Nat.zero_le _
    | some n => exact pathLength_le found
  obtain ⟨rest, split⟩ := headOf_begins name
  rw [pathOf, shorten, ← List.take_append_of_le_length short, split, List.take_append_drop]

theorem angle_notMem_headOf (name : List Char) : '<' ∉ headOf name :=
  fun inside => by simpa using List.mem_takeWhile_imp inside

theorem removable_pathOf (name : List Char) : Removable (pathOf name) name where
  begins := (List.take_prefix _ _).trans (headOf_begins name)
  unmarked inside := angle_notMem_headOf name ((List.take_prefix _ _).subset inside)
  steps := by
    rw [pathOf]
    cases found : pathLength (headOf name) with
    | none => exact .inl rfl
    | some n => exact .inr (suffix_take_of_pathLength found)

/-- No more than the path can be cut off. -/
theorem Removable.prefix_pathOf {beginning name : List Char}
    (removable : Removable beginning name) : beginning <+: pathOf name := by
  obtain ⟨⟨rest, rfl⟩, unmarked, rfl | ⟨before, rfl⟩⟩ := removable
  · exact List.nil_prefix
  · obtain ⟨n, found, long⟩ := exists_le_pathLength before (headOf rest)
    have head := headOf_append_of_notMem unmarked rest
    rw [← head] at found
    rw [pathOf, found, head]
    refine List.prefix_of_prefix_length_le (List.prefix_append _ _) (List.take_prefix _ _) ?_
    rw [← head, Option.getD_some, List.length_take, Nat.min_eq_left (pathLength_le found)]
    simpa using long

theorem shorten_of_longest {beginning rest : List Char}
    (removable : Removable beginning (beginning ++ rest))
    (longest : ∀ other, Removable other (beginning ++ rest) → other <+: beginning) :
    shorten (beginning ++ rest) = rest := by
  have path : pathOf (beginning ++ rest) = beginning :=
    (longest _ (removable_pathOf _)).eq_of_length_le removable.prefix_pathOf.length_le
  have split := pathOf_append_shorten (beginning ++ rest)
  rw [path] at split
  exact List.append_cancel_left split

/-- What could be cut off in a second turn would have gone in the first. -/
theorem shorten_shorten (name : List Char) : shorten (shorten name) = shorten name := by
  have nothing : Removable [] ([] ++ shorten name) := ⟨List.nil_prefix, List.not_mem_nil, .inl rfl⟩
  refine shorten_of_longest nothing fun other removable => ?_
  obtain ⟨begins, unmarked, rfl | steps⟩ := removable
  · exact List.nil_prefix
  have path := removable_pathOf name
  have both : Removable (pathOf name ++ other) name := by
    refine ⟨?_, ?_, .inr (steps.trans (List.suffix_append _ _))⟩
    · obtain ⟨rest, split⟩ := begins
      refine ⟨rest, ?_⟩
      rw [List.append_assoc, split]
      exact pathOf_append_shorten name
    · exact fun inside => (List.mem_append.1 inside).elim path.unmarked unmarked
  have longer := both.prefix_pathOf.length_le
  rw [List.length_append] at longer
  have empty : other = [] := List.eq_nil_of_length_eq_zero (by omega)
  exact empty ▸ List.nil_prefix

theorem prefix_of_notMem {s before rest : List Char} {c : Char} (begins : s <+: before ++ c :: rest)
    (absent : c ∉ s) : s <+: before := by
  rcases List.prefix_or_prefix_of_prefix begins (List.prefix_append before _) with
    within | ⟨more, longer⟩
  · exact within
  · cases more with
    | nil => exact ⟨[], by simpa using longer.symm⟩
    | cons d more =>
      rw [← longer, List.prefix_append_right_inj] at begins
      obtain ⟨rfl, -⟩ := List.cons_prefix_cons.1 begins
      exact absurd (longer ▸ List.mem_append_right before List.mem_cons_self) absent

/-- The text from an angle bracket on is kept. -/
theorem exists_suffix_shorten (before rest : List Char) :
    ∃ kept, kept <:+ before ∧ shorten (before ++ '<' :: rest) = kept ++ '<' :: rest := by
  have path := removable_pathOf (before ++ '<' :: rest)
  obtain ⟨kept, split⟩ := prefix_of_notMem path.begins path.unmarked
  have whole := pathOf_append_shorten (before ++ '<' :: rest)
  refine ⟨kept, ⟨_, split⟩, List.append_cancel_left (whole.trans ?_)⟩
  rw [← List.append_assoc, split]

theorem pathLength_modules (modules : List (List Char)) :
    (pathLength (modules.flatMap (· ++ [':', ':']))).getD 0 =
      (modules.flatMap (· ++ [':', ':'])).length := by
  obtain rfl | ⟨before, name, rfl⟩ := modules.eq_nil_or_concat
  · rfl
  · rw [List.concat_eq_append, List.flatMap_append, List.flatMap_singleton, ← List.append_assoc,
      pathLength_of_step, Option.getD_some]

/-- The name at the end of a path is kept, with the generic arguments behind it. -/
theorem shorten_path {modules : List (List Char)} {head arguments : List Char}
    (plain : ∀ name ∈ modules, '<' ∉ name) (word : ':' ∉ head) (unmarked : '<' ∉ head)
    (generic : arguments = [] ∨ ∃ inner, arguments = '<' :: inner) :
    shorten (modules.flatMap (· ++ [':', ':']) ++ (head ++ arguments)) = head ++ arguments := by
  have free : '<' ∉ modules.flatMap (· ++ [':', ':']) := by
    intro inside
    obtain ⟨name, listed, inside⟩ := List.mem_flatMap.1 inside
    simp [plain name listed] at inside
  have stop : headOf arguments = [] := by
    obtain rfl | ⟨inner, rfl⟩ := generic
    · rfl
    · rfl
  rw [shorten, headOf_append_of_notMem free, headOf_append_of_notMem unmarked, stop, List.append_nil,
    pathLength_append_of_notMem word, pathLength_modules, List.drop_left]

/-- Names that are alike up to their first angle bracket lose the same. -/
theorem eq_of_shorten_eq {name other : List Char} (head : headOf other = headOf name)
    (same : shorten other = shorten name) : other = name := by
  rw [← pathOf_append_shorten other, ← pathOf_append_shorten name, same, pathOf, head, pathOf]

/-- Where the head of the name ends: at the first angle bracket, or with the name. -/
def headEnd (t : TypeName) : Nat := (Text.bytes t.full).findIdx (· = '<'.toUInt8)

/-- Where the short name begins: behind the last step of a path in the head, or with the name. -/
def start (t : TypeName) : Nat :=
  let step := Text.bytes "::"
  ((Text.lastPlace? step ((Text.bytes t.full).take t.headEnd)).map (· + step.length)).getD 0

theorem headEnd_eq (t : TypeName) : t.headEnd = (Text.encode (headOf t.full.toList)).length := by
  rw [headEnd, Text.bytes_eq]
  exact Text.findIdx_encode (by decide) _

theorem start_eq (t : TypeName) : t.start = (Text.encode (pathOf t.full.toList)).length := by
  have head : (Text.bytes t.full).take t.headEnd = Text.encode (headOf t.full.toList) := by
    obtain ⟨rest, split⟩ := headOf_begins t.full.toList
    rw [headEnd_eq, Text.bytes_of_append split.symm, List.take_left]
  have step : Text.bytes "::" = Text.encode [':', ':'] := Text.bytes_ofList [':', ':']
  have ascii : ∀ c ∈ [':', ':'], c.toNat < 128 := by simp
  rw [start, head, step, Text.lastPlace?_encode (by decide) ascii, pathOf, pathLength_eq]
  cases found : Text.lastPlace? [':', ':'] (headOf t.full.toList) with
  | none => rfl
  | some n =>
    -- what stands there is the step itself
    have further : (headOf t.full.toList).take (n + 2) =
        (headOf t.full.toList).take n ++ [':', ':'] := Text.take_of_lastPlace? found
    simp [further, Text.encode_append]

/-- The places that are found by going through the bytes of a name are boundaries of characters, and
the short name is all that comes behind the second one. -/
structure CutAtBoundaries (t : TypeName) : Prop where
  headEnd : String.Pos.Raw.IsValid t.full ⟨t.headEnd⟩
  start : String.Pos.Raw.IsValid t.full ⟨t.start⟩
  ordered : t.start ≤ t.headEnd
  slice : Text.bytes t.short = (Text.bytes t.full).drop t.start

theorem cutAtBoundaries (t : TypeName) : t.CutAtBoundaries := by
  obtain ⟨rest, split⟩ := headOf_begins t.full.toList
  have whole := pathOf_append_shorten t.full.toList
  refine ⟨?_, ?_, ?_, ?_⟩
  · rw [headEnd_eq]
    exact Text.isValid_of_append split.symm
  · rw [start_eq]
    exact Text.isValid_of_append whole.symm
  · obtain ⟨more, longer⟩ : pathOf t.full.toList <+: headOf t.full.toList := List.take_prefix _ _
    rw [start_eq, headEnd_eq, ← longer, Text.encode_append, List.length_append]
    exact Nat.le_add_right _ _
  · rw [start_eq, Text.bytes_of_append whole.symm, List.drop_left, short, Text.bytes_ofList]

/-- The short name of any text is what follows the longest beginning that may be cut off. So the text
from an angle bracket on is kept as it is, a short name is not shortened again, and the bytes of the
name are cut at a boundary. A path is cut down to the name at its end, whatever generic arguments
follow, and names that only differ in these keep different short names. -/
theorem longest_path_is_cut (t : TypeName) :
    (∃ removed, removed ++ t.short.toList = t.full.toList ∧ Removable removed t.full.toList ∧
      ∀ other, Removable other t.full.toList → other <+: removed) ∧
    (∀ before rest, t.full.toList = before ++ '<' :: rest →
      ∃ kept, kept <:+ before ∧ t.short.toList = kept ++ '<' :: rest) ∧
    TypeName.short ⟨t.short⟩ = t.short ∧
    t.CutAtBoundaries ∧
    (∀ (modules : List (List Char)) (head arguments : List Char),
      (∀ name ∈ modules, '<' ∉ name) → ':' ∉ head → '<' ∉ head →
      (arguments = [] ∨ ∃ inner, arguments = '<' :: inner) →
      t.full.toList = modules.flatMap (· ++ [':', ':']) ++ (head ++ arguments) →
      t.short.toList = head ++ arguments) ∧
    ∀ other : TypeName, headOf other.full.toList = headOf t.full.toList → other ≠ t →
      other.short ≠ t.short := by
  have short (t : TypeName) : t.short.toList = shorten t.full.toList := String.toList_ofList
  refine ⟨⟨pathOf t.full.toList, ?_, removable_pathOf _, fun _ => Removable.prefix_pathOf⟩,
    fun before rest split => ?_, ?_, t.cutAtBoundaries,
    fun modules head arguments plain word unmarked generic split => ?_,
    fun other head different same => different ?_⟩
  · rw [short, pathOf_append_shorten]
  · rw [short, split]
    exact exists_suffix_shorten before rest
  · rw [← String.toList_inj, short, short, shorten_shorten]
  · rw [short, split, shorten_path plain word unmarked generic]
  · have rest : shorten other.full.toList = shorten t.full.toList := by
      rw [← short, ← short, same]
    exact congrArg TypeName.mk (String.toList_inj.1 (eq_of_shorten_eq head rest))

/-- Of three colons the first belongs to the path. -/
example : TypeName.short ⟨"a:::B<c::D>"⟩ = "B<c::D>" ∧ TypeName.start ⟨"é::B"⟩ = 4 := by decide

end Registrar.TypeName
