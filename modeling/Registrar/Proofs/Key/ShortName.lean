import Mathlib.Data.List.TakeWhile
import Registrar.Proofs.Key.TypeGrammar

/-!
# Short names of types

The short name is cut after the last step of a path that stands in front of the first angle bracket.
This is the end of the lead of a type as long as no path follows in its own part before an angle
bracket opens. So what is said of a text here is said of its beginning up to the first such bracket.
-/

namespace Registrar.TypeName

theorem headOf_append_of_mem {s : List Char} (mark : '<' ∈ s) (t : List Char) :
    headOf (s ++ t) = headOf s := by
  rw [headOf, List.takeWhile_append, if_neg]
  · rfl
  · intro whole
    have all := List.takeWhile_eq_self_iff.1 ((List.takeWhile_prefix _).eq_of_length whole)
    simpa using all _ mark

theorem headOf_append_of_notMem {s : List Char} (free : '<' ∉ s) (t : List Char) :
    headOf (s ++ t) = s ++ headOf t := by
  refine List.takeWhile_append_of_pos fun c inside => ?_
  simpa using ne_of_mem_of_not_mem inside free

theorem headOf_of_notMem {s : List Char} (free : '<' ∉ s) : headOf s = s := by
  simpa [headOf] using headOf_append_of_notMem free []

theorem headOf_begins (s : List Char) : headOf s <+: s := List.takeWhile_prefix _

theorem pathLength_append {t : List Char} {n : Nat} (found : pathLength t = some n)
    (s : List Char) : pathLength (s ++ t) = some (s.length + n) := by
  induction s with
  | nil => simpa using found
  | cons c s ih => rw [List.cons_append, pathLength, ih, List.length_cons, Nat.add_right_comm]

theorem pathLength_of_step (s : List Char) :
    pathLength (s ++ [':', ':']) = some (s ++ [':', ':']).length := by
  have step : pathLength [':', ':'] = some 2 := rfl
  rw [pathLength_append step, List.length_append]
  rfl

theorem pathLength_of_notMem {s : List Char} (free : ':' ∉ s) : pathLength s = none := by
  induction s with
  | nil => rfl
  | cons c s ih =>
    rw [List.mem_cons, not_or] at free
    rw [pathLength, ih free.2]
    exact if_neg fun colons => free.1 colons.1.symm

theorem pathLength_append_of_notMem {t : List Char} (free : ':' ∉ t) (s : List Char) :
    pathLength (s ++ t) = pathLength s := by
  induction s with
  | nil => exact pathLength_of_notMem free
  | cons c s ih =>
    rw [List.cons_append, pathLength, ih, pathLength]
    cases s with
    | nil =>
      have next : t.head? ≠ some ':' := fun first => free (List.mem_of_head? first)
      simp [pathLength, next]
    | cons d s => rfl

theorem pathLength_le {s : List Char} {n : Nat} (found : pathLength s = some n) :
    n ≤ s.length := by
  induction s generalizing n with
  | nil => simp [pathLength] at found
  | cons c s ih =>
    rw [pathLength] at found
    split at found
    · next m inner =>
      obtain rfl : m + 1 = n := Option.some.inj found
      exact Nat.succ_le_succ (ih inner)
    · split at found
      · next colons =>
        obtain rfl : 2 = n := Option.some.inj found
        exact Nat.succ_le_succ (List.length_pos_of_mem (List.mem_of_head? colons.2))
      · cases found

theorem exists_pathLength {s : List Char} (steps : [':', ':'] <:+: s) :
    ∃ n, pathLength s = some n ∧ 0 < n := by
  obtain ⟨before, after, rfl⟩ := steps
  have colons : ∃ n, pathLength (':' :: ':' :: after) = some n ∧ 0 < n := by
    rw [pathLength]
    split
    · exact ⟨_, rfl, Nat.succ_pos _⟩
    · exact ⟨2, rfl, Nat.two_pos⟩
  obtain ⟨n, found, some⟩ := colons
  rw [List.append_assoc]
  exact ⟨_, pathLength_append found before, Nat.add_pos_right _ some⟩

/-- A step of a path stands in front of the first angle bracket. -/
def Crossed (s : List Char) : Prop := [':', ':'] <:+: headOf s

theorem Crossed.append {s : List Char} (crossed : Crossed s) (t : List Char) :
    Crossed (s ++ t) := by
  by_cases mark : '<' ∈ s
  · rwa [Crossed, headOf_append_of_mem mark]
  · rw [Crossed, headOf_append_of_notMem mark]
    rw [Crossed, headOf_of_notMem mark] at crossed
    exact crossed.trans (List.prefix_append _ _).isInfix

theorem Crossed.prepend {t : List Char} (crossed : Crossed t) {s : List Char} (free : '<' ∉ s) :
    Crossed (s ++ t) := by
  rw [Crossed, headOf_append_of_notMem free]
  exact List.IsInfix.trans crossed (List.suffix_append _ _).isInfix

/-- No bracket, nor the first half of an arrow, stands in front of the first angle bracket. -/
def Quiet (s : List Char) : Prop := ∀ c ∈ headOf s, c ∉ '-' :: brackets

theorem Quiet.append {s t : List Char} (left : Quiet s) (right : Quiet t) : Quiet (s ++ t) := by
  by_cases mark : '<' ∈ s
  · rwa [Quiet, headOf_append_of_mem mark]
  · rw [Quiet, headOf_append_of_notMem mark]
    rw [Quiet, headOf_of_notMem mark] at left
    exact List.forall_mem_append.2 ⟨left, right⟩

theorem quiet_of_forall {s : List Char} (quiet : ∀ c ∈ s, c ∉ '-' :: brackets) : Quiet s :=
  fun c inside => quiet c ((headOf_begins s).subset inside)

theorem Word.notMem (name : Word) {c : Char} (mark : c ∈ ':' :: '-' :: brackets) :
    c ∉ name.chars :=
  fun inside => of_decide_eq_true (List.all_eq_true.1 name.proper c inside) mark

@[simp] theorem Word.colon_notMem (name : Word) : ':' ∉ name.chars := name.notMem (by decide)

@[simp] theorem Word.angle_notMem (name : Word) : '<' ∉ name.chars := name.notMem (by decide)

theorem Word.quiet (name : Word) : Quiet name.chars :=
  quiet_of_forall fun _ inside mark => name.notMem (List.mem_cons_of_mem _ mark) inside

theorem Modules.free_text (modules : Modules) : ∀ c ∈ modules.text, c ∉ '-' :: brackets := by
  intro c inside mark
  obtain ⟨name, -, inside⟩ := List.mem_flatMap.1 inside
  rcases List.mem_append.1 inside with inside | colon
  · exact name.notMem (List.mem_cons_of_mem _ mark) inside
  · obtain rfl : c = ':' := by simpa using colon
    exact absurd mark (by decide)

theorem Modules.notMem_text (modules : Modules) : '<' ∉ modules.text :=
  fun inside => modules.free_text _ inside (by decide)

/-- The path of modules of a name ends in a step. -/
theorem Modules.text_eq (modules : Modules) : ∃ before, modules.text = before ++ [':', ':'] := by
  rw [Modules.text, ← List.dropLast_concat_getLast (List.cons_ne_nil modules.crate modules.inner),
    List.flatMap_append, List.flatMap_singleton, ← List.append_assoc]
  exact ⟨_, rfl⟩

theorem Modules.crossed_text (modules : Modules) : Crossed modules.text := by
  rw [Crossed, headOf_of_notMem modules.notMem_text]
  obtain ⟨before, steps⟩ := modules.text_eq
  exact steps ▸ (List.suffix_append _ _).isInfix

namespace Phrase

/-- The phrase is free of paths, and so of generic arguments. -/
def Pathless {part : Part} : Phrase part → Prop
  | plain _ | stop | noTypes | silent => True
  | reference _ type | pointer _ type | slice type | array type _ | group type | returns type =>
    type.Pathless
  | tuple members => members.Pathless
  | function _ inputs output => inputs.Pathless ∧ output.Pathless
  | next first rest => first.Pathless ∧ rest.Pathless
  | types first rest => first.Pathless ∧ rest.Pathless
  | _ => False

def Angled {part : Part} : Phrase part → Prop
  | trait _ _ (.angled _ _) => True
  | _ => False

/-- No path stands between the start of the head name and the first generic arguments. -/
def Clear {part : Part} : Phrase part → Prop
  | named _ _ _ | trait _ _ _ => True
  | callable _ _ inputs output => inputs.Pathless ∧ output.Pathless
  | object first further => first.Clear ∧ (first.Angled ∨ further = .stop)
  | reference _ type => type.Clear
  | phrase => phrase.Pathless

@[simp] theorem notMem_referenceMark (mutable : Bool) :
    ':' ∉ referenceMark mutable ∧ '<' ∉ referenceMark mutable := by
  cases mutable <;> decide

@[simp] theorem notMem_pointerMark (mutable : Bool) :
    ':' ∉ pointerMark mutable ∧ '<' ∉ pointerMark mutable := by
  cases mutable <;> decide

theorem notMem_trailing (members : Phrase .types) :
    ':' ∉ members.trailing ∧ '<' ∉ members.trailing := by
  cases members with
  | noTypes => simp [trailing]
  | types first rest => cases rest <;> simp [trailing]

theorem Pathless.notMem_text {part : Part} {phrase : Phrase part} (pathless : phrase.Pathless) :
    ':' ∉ phrase.text ∧ '<' ∉ phrase.text := by
  induction phrase with
  | @next kind first rest ihf ihr =>
    cases kind <;> simp_all [Pathless, text, Kind.separator]
  | _ => simp_all [Pathless, text, notMem_trailing]

theorem not_pathless_of_path (path : Phrase .path) : ¬ path.Pathless := by
  cases path <;> exact id

theorem not_pathless_of_bound (bound : Phrase (.one .bound)) : ¬ bound.Pathless := by
  cases bound <;> exact id

/-- Of two phrases in a row the first with a path decides, as long as one of them has a path. -/
theorem crossed_of_not_both {part : Part} {first : Phrase part} {rest : List Char} {Free : Prop}
    (passed : ¬ (first.Pathless ∧ Free)) (left : ¬ first.Pathless → Crossed first.text)
    (right : ¬ Free → Crossed rest) : Crossed (first.text ++ rest) := by
  by_cases pathless : first.Pathless
  · exact (right fun free => passed ⟨pathless, free⟩).prepend pathless.notMem_text.2
  · exact (left pathless).append _

/-- Generic arguments only follow a path: its steps come first. -/
theorem crossed_text {part : Part} {phrase : Phrase part} (outer : part.Outer)
    (passed : ¬ phrase.Pathless) : Crossed phrase.text := by
  induction phrase with
  | plain | stop | noTypes | silent => exact absurd trivial passed
  | bare | angled | ofType | associated | constant => exact outer.elim
  | trait modules | callable modules => exact modules.crossed_text.append _
  | inModule modules => exact modules.crossed_text
  | named path _ _ ih | inItem path _ _ ih => exact (ih trivial path.not_pathless_of_path).append _
  | object first _ ih =>
    exact ((ih trivial first.not_pathless_of_bound).append _).prepend (by decide)
  | reference mutable _ ih => exact (ih trivial passed).prepend (notMem_referenceMark mutable).2
  | pointer mutable _ ih => exact (ih trivial passed).prepend (notMem_pointerMark mutable).2
  | slice _ ih | array _ _ ih =>
    exact ((ih trivial passed).append _).prepend (s := ['[']) (by decide)
  | tuple _ ih | group _ ih =>
    exact ((ih trivial passed).append _).prepend (s := ['(']) (by decide)
  | returns _ ih => exact (ih trivial passed).prepend (by decide)
  | types first rest ihf ihr => exact crossed_of_not_both passed (ihf trivial) (ihr trivial)
  | @next kind first rest ihf ihr =>
    have outerFirst : (Part.one kind).Outer := by cases kind <;> exact outer
    refine Crossed.prepend ?_ (by cases kind <;> decide)
    exact crossed_of_not_both passed (ihf outerFirst) (ihr outer)
  | function marks inputs output ihi iho =>
    have shown : Crossed (inputs.text ++ (')' :: output.text)) :=
      crossed_of_not_both passed (ihi trivial) fun out =>
        (iho trivial out).prepend (s := [')']) (by decide)
    exact (shown.prepend (by decide)).prepend (by simp)

theorem headOf_arguments (arguments : Phrase .arguments) : headOf arguments.text = [] := by
  cases arguments <;> rfl

theorem headOf_name (name : Word) (arguments : Phrase .arguments) :
    headOf (name.chars ++ arguments.text) = name.chars := by
  rw [headOf_append_of_notMem name.angle_notMem, headOf_arguments, List.append_nil]

theorem Pathless.notMem_headOf {part : Part} {phrase : Phrase part} (pathless : phrase.Pathless) :
    ':' ∉ headOf phrase.text :=
  fun inside => pathless.notMem_text.1 ((headOf_begins _).subset inside)

theorem Angled.mem_own {part : Part} {phrase : Phrase part} (angled : phrase.Angled) :
    '<' ∈ phrase.own := by
  unfold Angled at angled
  split at angled
  · simp [own, text]
  · exact angled.elim

/-- In the own part of a clear phrase no step stands in front of the generic arguments. -/
theorem Clear.notMem_headOf_own {part : Part} {phrase : Phrase part} (clear : phrase.Clear) :
    ':' ∉ headOf phrase.own := by
  induction phrase with
  | named _ head arguments => rw [own, headOf_name]; exact head.colon_notMem
  | trait _ name arguments => rw [own, headOf_name]; exact name.colon_notMem
  | callable _ name inputs output =>
    have free : ':' ∉ name.chars ++ '(' :: (inputs.text ++ ')' :: output.text) := by
      simp [clear.1.notMem_text, clear.2.notMem_text]
    exact fun inside => free ((headOf_begins _).subset inside)
  | object first further ih =>
    obtain ⟨clear, angled | rfl⟩ := clear
    · rw [own, headOf_append_of_mem angled.mem_own]
      exact ih clear
    · simpa [own, text] using ih clear
  | reference _ _ ih => exact ih clear
  | ofType | associated | constant | inModule | inItem | bare | angled => exact clear.elim
  | _ => exact Pathless.notMem_headOf clear

theorem angle_notMem_lead_of_bound (bound : Phrase (.one .bound)) : '<' ∉ bound.lead := by
  cases bound <;> exact Modules.notMem_text _

theorem colon_mem_lead_of_bound (bound : Phrase (.one .bound)) : ':' ∈ bound.lead := by
  cases bound <;> simp [lead, Modules.text]

theorem angle_notMem_own {bound : Phrase (.one .bound)} (clear : bound.Clear)
    (bare : ¬ bound.Angled) : '<' ∉ bound.own := by
  cases bound with
  | trait _ name arguments =>
    cases arguments with
    | bare => simp [own, text]
    | angled => exact absurd trivial bare
  | callable _ name inputs output =>
    simp [own, clear.1.notMem_text, clear.2.notMem_text]

/-- The name is cut past the lead of a phrase that is not clear. -/
theorem crossed_own {part : Part} {phrase : Phrase part} (outer : part.Outer)
    (unclear : ¬ phrase.Clear) : '<' ∉ phrase.lead ∧ Crossed phrase.own := by
  induction phrase with
  | named | trait => exact absurd trivial unclear
  | callable modules name inputs output =>
    refine ⟨modules.notMem_text, Crossed.prepend ?_ name.angle_notMem⟩
    have shown : Crossed (inputs.text ++ (')' :: output.text)) :=
      crossed_of_not_both unclear (crossed_text trivial) fun out =>
        have shown : Crossed output.text := crossed_text trivial out
        shown.prepend (s := [')']) (by decide)
    exact shown.prepend (s := ['(']) (by decide)
  | object first further ih =>
    constructor
    · simpa [lead] using first.angle_notMem_lead_of_bound
    · by_cases clear : first.Clear
      · obtain ⟨bare, more⟩ : ¬ first.Angled ∧ ¬ further = .stop := by
          simpa [Clear, clear] using unclear
        refine Crossed.prepend ?_ (angle_notMem_own clear bare)
        cases further with
        | stop => exact absurd rfl more
        | next bound rest =>
          exact crossed_text trivial fun free => bound.not_pathless_of_bound free.1
      · exact (ih trivial clear).2.append _
  | reference mutable target ih =>
    obtain ⟨free, crossed⟩ := ih trivial unclear
    exact ⟨by simpa [lead] using free, crossed⟩
  | bare | angled | ofType | associated | constant => exact outer.elim
  | _ => exact ⟨List.not_mem_nil, crossed_text outer unclear⟩

theorem quiet_path : ∀ path : Phrase .path, Quiet path.text
  | inModule modules => quiet_of_forall modules.free_text
  | inItem path name arguments => by
    have quietArguments : Quiet arguments.text := by simp [Quiet, headOf_arguments]
    have quietStep : Quiet [':', ':'] := quiet_of_forall (by simp [brackets])
    exact (quiet_path path).append (name.quiet.append (quietArguments.append quietStep))

theorem quiet_lead {part : Part} (phrase : Phrase part) : Quiet phrase.lead := by
  induction phrase with
  | named path => exact path.quiet_path
  | trait modules | callable modules => exact quiet_of_forall modules.free_text
  | object first _ ih => exact (quiet_of_forall (by simp [brackets])).append ih
  | reference mutable _ ih =>
    exact (quiet_of_forall (by cases mutable <;> simp [referenceMark, brackets])).append ih
  | _ => exact quiet_of_forall fun c inside => absurd inside List.not_mem_nil

theorem path_text_eq (path : Phrase .path) : ∃ before, path.text = before ++ [':', ':'] := by
  cases path with
  | inModule modules => exact modules.text_eq
  | inItem path name arguments =>
    exact ⟨path.text ++ (name.chars ++ arguments.text), by simp [text]⟩

/-- A lead with a path in it ends with the path. -/
theorem lead_eq_of_mem {part : Part} {phrase : Phrase part} (step : ':' ∈ phrase.lead) :
    ∃ before, phrase.lead = before ++ [':', ':'] := by
  induction phrase with
  | named path => exact path.path_text_eq
  | trait modules | callable modules => exact modules.text_eq
  | object first _ ih =>
    obtain ⟨before, steps⟩ := ih (by simpa [lead] using step)
    exact ⟨"dyn ".toList ++ before, by rw [lead, steps, List.append_assoc]⟩
  | reference mutable target ih =>
    obtain ⟨before, steps⟩ := ih (by simpa [lead] using step)
    exact ⟨referenceMark mutable ++ before, by rw [lead, steps, List.append_assoc]⟩
  | _ => exact absurd step List.not_mem_nil

/-- The steps that a clear phrase is cut after are those of its lead. -/
theorem Clear.pathLength_eq {part : Part} {phrase : Phrase part} (clear : phrase.Clear) :
    pathLength (headOf phrase.text) = pathLength (headOf phrase.lead) := by
  rw [← phrase.lead_append_own]
  by_cases mark : '<' ∈ phrase.lead
  · rw [headOf_append_of_mem mark]
  · rw [headOf_append_of_notMem mark, headOf_of_notMem mark,
      pathLength_append_of_notMem clear.notMem_headOf_own]

theorem Clear.shorten_eq {part : Part} {phrase : Phrase part} (clear : phrase.Clear) :
    ∃ removed, removed <+: headOf phrase.lead ∧
      removed ++ shorten phrase.text = phrase.text := by
  obtain ⟨rest, split⟩ : headOf phrase.lead <+: phrase.text :=
    (headOf_begins _).trans ⟨_, phrase.lead_append_own⟩
  refine ⟨_, List.take_prefix ((pathLength (headOf phrase.lead)).getD 0) _, ?_⟩
  have short : (pathLength (headOf phrase.lead)).getD 0 ≤ (headOf phrase.lead).length := by
    cases found : pathLength (headOf phrase.lead) with
    | none => exact Nat.zero_le _
    | some n => exact pathLength_le found
  rw [shorten, clear.pathLength_eq, ← List.take_append_of_le_length short, split,
    List.take_append_drop]

theorem length_shorten_lt {part : Part} {phrase : Phrase part} (outer : part.Outer)
    (unclear : ¬ phrase.Clear) : (shorten phrase.text).length < phrase.own.length := by
  obtain ⟨free, crossed⟩ := crossed_own outer unclear
  obtain ⟨n, found, some⟩ := exists_pathLength crossed
  have whole := congrArg List.length phrase.lead_append_own
  rw [List.length_append] at whole
  have within := (pathLength_le found).trans (headOf_begins _).length_le
  have cut : pathLength (headOf phrase.text) = .some (phrase.lead.length + n) := by
    rw [← phrase.lead_append_own, headOf_append_of_notMem free]
    exact pathLength_append found _
  rw [shorten, cut, List.length_drop, Option.getD_some]
  omega

theorem Clear.shorten_eq_own {part : Part} {phrase : Phrase part} (clear : phrase.Clear)
    (step : ':' ∈ phrase.lead) (free : '<' ∉ phrase.lead) :
    shorten phrase.text = phrase.own := by
  obtain ⟨before, steps⟩ := lead_eq_of_mem step
  have whole : pathLength phrase.lead = some phrase.lead.length := by
    rw [steps, pathLength_of_step]
  rw [shorten, clear.pathLength_eq, headOf_of_notMem free, whole, ← lead_append_own,
    Option.getD_some, List.drop_left]

/-- Nothing but a part of the lead is cut away, and the whole of it where it is a path without
generic arguments, so that a listing stays readable. -/
structure WellShortened (type : Phrase (.one .type)) : Prop where
  path_only : ∃ removed, removed <+: type.lead ∧
    removed ++ type.typeName.short.toList = type.typeName.full.toList
  whole_path : ':' ∈ type.lead → '<' ∉ type.lead → type.typeName.short.toList = type.own
  balanced : Balanced type.typeName.full.toList → Balanced type.typeName.short.toList
  begins : ∀ first further, type = object first further →
    first.name <+: type.typeName.short.toList

/-- Short names are well formed for named types, for objects whose first trait has arguments between
angle brackets or stands alone and is not called with a path, for references to such types, and for
types without any path. All others lose more than their lead. -/
theorem wellShortened_iff (type : Phrase (.one .type)) : type.WellShortened ↔ type.Clear := by
  have full : type.typeName.full.toList = type.text := by simp [typeName]
  have short : type.typeName.short.toList = shorten type.text := by simp [TypeName.short, typeName]
  constructor
  · intro well
    by_contra unclear
    have outer : (Part.one .type).Outer := trivial
    have less := length_shorten_lt outer unclear
    obtain ⟨removed, within, split⟩ := well.path_only
    rw [full, short] at split
    have whole := congrArg List.length (split.trans type.lead_append_own.symm)
    rw [List.length_append, List.length_append] at whole
    have := within.length_le
    omega
  · intro clear
    obtain ⟨removed, within, split⟩ := clear.shorten_eq
    refine ⟨⟨removed, ?_, ?_⟩, ?_, ?_, ?_⟩
    · exact within.trans (headOf_begins _)
    · rw [full, short, split]
    · intro step free
      rw [short, clear.shorten_eq_own step free]
    · intro balanced
      rw [full, ← split, Balanced, closes_append] at balanced
      · rwa [short]
      · exact fun c inside => type.quiet_lead c (within.subset inside)
    · rintro first further rfl
      have step : ':' ∈ (object first further).lead := by
        simpa [lead] using first.colon_mem_lead_of_bound
      have free : '<' ∉ (object first further).lead := by
        simpa [lead] using first.angle_notMem_lead_of_bound
      rw [short, clear.shorten_eq_own step free]
      exact first.name_prefix_own.trans (List.prefix_append _ _)

/-- The type of what is called with an `Alpha`. -/
def callOfAlpha : Phrase (.one .type) :=
  let tests : Modules :=
    ⟨.mk "mapkey_domain".toList,
      [.mk "value_objects".toList, .mk "type_key".toList, .mk "tests".toList]⟩
  let function : Modules := ⟨.mk "core".toList, [.mk "ops".toList, .mk "function".toList]⟩
  let alpha := named (.inModule tests) (.mk "Alpha".toList) .bare
  object (.callable function (.mk "Fn".toList) (.types alpha .stop) .silent) .stop

/-- Its short name has lost the name of the trait and the bracket that its last one closes. -/
theorem short_callOfAlpha :
    callOfAlpha.typeName.full =
        "dyn core::ops::function::Fn(mapkey_domain::value_objects::type_key::tests::Alpha)" ∧
      callOfAlpha.typeName.short = "Alpha)" ∧
      Balanced callOfAlpha.typeName.full.toList ∧
      ¬ Balanced callOfAlpha.typeName.short.toList ∧
      ¬ callOfAlpha.WellShortened := by
  have full : callOfAlpha.typeName.full =
    "dyn core::ops::function::Fn(mapkey_domain::value_objects::type_key::tests::Alpha)" := by decide
  have short : callOfAlpha.typeName.short = "Alpha)" := by decide
  have balanced : Balanced callOfAlpha.typeName.full.toList := by
    rw [full]
    decide
  have unbalanced : ¬ Balanced callOfAlpha.typeName.short.toList := by
    rw [short]
    decide
  exact ⟨full, short, balanced, unbalanced, fun well => unbalanced (well.balanced balanced)⟩

end Phrase

end Registrar.TypeName
