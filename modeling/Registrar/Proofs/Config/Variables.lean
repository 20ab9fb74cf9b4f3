import Mathlib.Data.List.Infix
import Registrar.Config.Environment
import Registrar.Proofs.Config.Merging

/-!
# What the environment says

Every variable of a loader names a path and gives the value at its end. As long as no two variables
name the same path, or one a part of the path of another, they do not disturb each other: the merged
environment has under each path what the one variable says that reaches it.
-/

namespace Registrar.Environment

open Value (Members along)

theorem proper_plain (cs : List Char) : (plain cs).1.Proper := by
  refine .scalar ?_
  unfold plainScalar
  split
  · simp
  · split
    · simp
    · split <;> simp

theorem proper_of_scalarThen {s : Scalar} {cs rest : List Char} {v : Value} (given : s ≠ .nothing)
    (read : scalarThen s cs = some (v, rest)) : v.Proper := by
  cases read
  exact .scalar given

/-- Values nest through the members of dictionaries; lists need no care. -/
theorem proper_of_read (fuel : Nat) :
    (∀ cs v rest, readValue fuel cs = some (v, rest) → v.Proper) ∧
    ∀ members cs members' rest, Members.Proper members →
      readMembers fuel members cs = some (members', rest) → Members.Proper members' := by
  induction fuel with
  | zero =>
    constructor
    · intro cs v rest read
      cases read
    · intro members cs members' rest _ read
      cases read
  | succ fuel ih =>
    obtain ⟨values, dicts⟩ := ih
    constructor
    · intro cs v rest read
      unfold readValue at read
      split at read
      · exact proper_of_scalarThen (by simp) read
      · exact proper_of_scalarThen (by simp) read
      · obtain ⟨⟨members, rest'⟩, inner, e⟩ := Option.map_eq_some_iff.1 read
        cases e
        exact (dicts _ _ _ _ .empty inner).toDict _
      · obtain ⟨items, -, e⟩ := Option.map_eq_some_iff.1 read
        cases e
        exact .list
      · obtain ⟨text, -, read⟩ := Option.bind_eq_some_iff.1 read
        exact proper_of_scalarThen (by simp) read
      · exact proper_of_scalarThen (by simp) read
      · cases read
      · cases read
        exact proper_plain _
    · intro members cs members' rest proper read
      unfold readMembers at read
      split at read
      · cases read
        exact proper
      · obtain ⟨⟨name, rest₁⟩, -, read⟩ := Option.bind_eq_some_iff.1 read
        dsimp only at read
        split at read
        · obtain ⟨⟨v, rest₂⟩, value, read⟩ := Option.bind_eq_some_iff.1 read
          have next := proper.insertMember (values _ _ _ value) name
          dsimp only at read
          split at read
          · exact dicts _ _ _ _ next read
          · cases read
            exact next
          · cases read
        · cases read

theorem proper_parse (content : String) : (parse content).Proper := by
  unfold parse
  dsimp only
  split
  · next v read => exact (proper_of_read _).1 _ _ _ read
  · exact .scalar (by simp)

/-- The segments of a name, which double underscores part from the left. -/
def segments : List Char → List (List Char)
  | '_' :: '_' :: rest => [] :: segments rest
  | c :: rest =>
    match segments rest with
    | part :: parts => (c :: part) :: parts
    | [] => [[c]]
  | [] => [[]]

theorem splitAt_dotted {cs : List Char} (plain : '.' ∉ cs) :
    Text.splitAt '.' (dotted cs) = segments cs := by
  induction cs using dotted.induct with
  | case1 rest ih =>
    have plain' : '.' ∉ rest := fun mem => plain (by simp [mem])
    rw [dotted, segments, Text.splitAt, if_pos rfl, ih plain']
  | case2 c rest single ih =>
    rw [List.mem_cons, not_or] at plain
    have other : c ≠ '.' := fun same => plain.1 same.symm
    rw [dotted, segments, Text.splitAt, if_neg other, ih plain.2]
    · cases segments rest <;> rfl
    · exact single
    · exact single
  | case3 => rfl

theorem not_mem_of_segments {cs : List Char} (plain : ∀ part ∈ segments cs, '.' ∉ part) :
    '.' ∉ cs := by
  induction cs using dotted.induct with
  | case1 rest ih =>
    rw [segments, List.forall_mem_cons] at plain
    simpa using ih plain.2
  | case2 c rest single ih =>
    rw [segments] at plain
    · split at plain
      · next part parts found =>
        obtain ⟨first, others⟩ := List.forall_mem_cons.1 plain
        rw [List.mem_cons, not_or] at first ⊢
        exact ⟨first.1, ih (by rw [found]; exact List.forall_mem_cons.2 ⟨first.2, others⟩)⟩
      · next found =>
        rw [List.mem_cons, not_or]
        exact ⟨by simpa using plain, ih (by simp [found])⟩
    · exact single
  | case3 => simp

theorem dropPrefix?_append {start beginning : List Char}
    (same : beginning.map Char.toLower = start.map Char.toLower) (rest : List Char) :
    dropPrefix? start (beginning ++ rest) = some rest := by
  induction start generalizing beginning with
  | nil =>
    rw [List.map_nil, List.map_eq_nil_iff] at same
    rw [same]
    rfl
  | cons p ps ih =>
    cases beginning with
    | nil => cases same
    | cons c cs =>
      obtain ⟨first, others⟩ := List.cons.inj same
      rw [List.cons_append, dropPrefix?, if_pos first.symm]
      exact ih others

/-- Blanks at the end of a text go, from the last one on. -/
def dropEnd (cs : List Char) : List Char := (cs.reverse.dropWhile Text.isBlank).reverse

theorem dropEnd_cons (c : Char) (rest : List Char) : dropEnd (c :: rest) =
    if dropEnd rest = [] ∧ Text.isBlank c = true then [] else c :: dropEnd rest := by
  unfold dropEnd
  rw [List.reverse_cons, List.dropWhile_append]
  simp only [List.isEmpty_iff, List.reverse_eq_nil_iff]
  by_cases gone : rest.reverse.dropWhile Text.isBlank = []
  · by_cases blank : Text.isBlank c <;> simp [gone, blank]
  · simp [gone]

theorem head?_of_head?_dropEnd {rest : List Char} {c : Char}
    (head : (dropEnd rest).head? = some c) : rest.head? = some c := by
  cases rest with
  | nil => cases head
  | cons d rest =>
    rw [dropEnd_cons] at head
    split at head
    · cases head
    · exact head

theorem dotted_cons {c : Char} {rest : List Char}
    (single : c = '_' → rest.head? ≠ some '_') : dotted (c :: rest) = c :: dotted rest := by
  rw [dotted]
  rintro rest' rfl rfl
  exact single rfl rfl

theorem head?_ne_of_single {c : Char} {rest : List Char}
    (single : ∀ rest', c = '_' → rest = '_' :: rest' → False) : c = '_' → rest.head? ≠ some '_' := by
  intro same head
  obtain ⟨rest', rfl⟩ := List.head?_eq_some_iff.1 head
  exact single rest' same rfl

theorem dotted_eq_nil_iff {cs : List Char} : dotted cs = [] ↔ cs = [] := by
  unfold dotted
  split <;> simp

theorem dropEnd_dotted (cs : List Char) : dropEnd (dotted cs) = dotted (dropEnd cs) := by
  have mark : Text.isBlank '_' = false ∧ Text.isBlank '.' = false := by decide
  induction cs using dotted.induct with
  | case1 rest ih => simp [dotted, dropEnd_cons, ih, mark]
  | case2 c rest single ih =>
    have alone := head?_ne_of_single single
    rw [dotted_cons alone, dropEnd_cons, dropEnd_cons, ih]
    by_cases gone : dropEnd rest = [] ∧ Text.isBlank c = true
    · rw [if_pos ⟨dotted_eq_nil_iff.2 gone.1, gone.2⟩, if_pos gone]
      rfl
    · have gone' : ¬ (dotted (dropEnd rest) = [] ∧ Text.isBlank c = true) :=
        fun h => gone ⟨dotted_eq_nil_iff.1 h.1, h.2⟩
      rw [if_neg gone', if_neg gone, dotted_cons]
      exact fun same head => alone same (head?_of_head?_dropEnd head)
  | case3 => rfl

theorem dropStart_dotted (cs : List Char) :
    (dotted cs).dropWhile Text.isBlank = dotted (cs.dropWhile Text.isBlank) := by
  have mark : Text.isBlank '_' = false ∧ Text.isBlank '.' = false := by decide
  induction cs using dotted.induct with
  | case1 rest ih => simp [dotted, mark]
  | case2 c rest single ih =>
    by_cases blank : Text.isBlank c = true
    · have other : c ≠ '_' := by
        rintro rfl
        rw [mark.1] at blank
        cases blank
      rw [dotted_cons fun same => absurd same other, List.dropWhile_cons_of_pos blank,
        List.dropWhile_cons_of_pos blank, ih]
    · have alone := head?_ne_of_single single
      rw [dotted_cons alone, List.dropWhile_cons_of_neg blank, List.dropWhile_cons_of_neg blank,
        dotted_cons alone]
  | case3 => rfl

theorem trimChars_dotted (cs : List Char) :
    Text.trimChars (dotted cs) = dotted (Text.trimChars cs) := by
  change dropEnd ((dotted cs).dropWhile Text.isBlank) = dotted (dropEnd _)
  rw [dropStart_dotted, dropEnd_dotted]

/-- The path that a variable names. Without blanks around it the name is the prefix, whatever the
case of its letters, and the rest, of which again no blanks around it count. The segments of the rest
are the path in lower case, provided that none of them is empty or has a dot. -/
theorem path?_eq {start name : String} {beginning rest : List Char}
    (split : Text.trimChars name.toList = beginning ++ rest)
    (same : beginning.map Char.toLower = start.toList.map Char.toLower)
    (plain : ∀ part ∈ segments (Text.trimChars rest), part ≠ [] ∧ '.' ∉ part) :
    path? start name = some ((segments (Text.trimChars rest)).map fun part =>
      String.ofList (part.map Char.toLower)) := by
  have dotless : '.' ∉ Text.trimChars rest := not_mem_of_segments fun part mem => (plain part mem).2
  have whole : (segments (Text.trimChars rest)).any List.isEmpty = false := by
    rw [List.any_eq_false]
    intro part mem
    simpa using (plain part mem).1
  rw [path?, split, dropPrefix?_append same]
  simp only [Option.bind_eq_bind, Option.bind_some, trimChars_dotted, splitAt_dotted dotless, whole]
  rfl

theorem path?_ne_nil {start name : String} {path : List String}
    (named : path? start name = some path) : path ≠ [] := by
  obtain ⟨rest, -, named⟩ := Option.bind_eq_some_iff.1 named
  dsimp only at named
  split at named
  · cases named
  · cases named
    simpa using Text.splitAt_ne_nil '.' _

/-- A value with the path at whose end it is said to stand. -/
abbrev Saying := List String × Value

/-- What the variables of a loader say, each by itself. -/
def sayings (start : String) (given : Variables) : List Saying :=
  given.filterMap fun e => (path? start e.1).map (·, parse e.2)

/-- No two sayings are about the same path, or one about a part of what the other is about. -/
def Apart (said : List Saying) : Prop :=
  said.Pairwise fun a b => ¬ a.1 <+: b.1 ∧ ¬ b.1 <+: a.1

instance : DecidablePred Apart := fun _ => inferInstanceAs (Decidable (List.Pairwise _ _))

/-- What is said about a path: the saying about it, or what a saying about something larger has
inside. -/
def said? (said : List Saying) (path : List String) : Option Value :=
  said.findSome? fun e => if e.1 <+: path then along (some e.2) (path.drop e.1.length) else none

/-- The tree holds what is said and nothing else. -/
structure Tells (root : Value) (said : List Saying) : Prop where
  isDict : root.isDict = true
  found : ∀ e ∈ said, ∀ more, along (some root) (e.1 ++ more) = along (some e.2) more
  above : ∀ e ∈ said, ∀ path, path <+: e.1 → path ≠ e.1 →
    ∃ w, along (some root) path = some w ∧ w.isDict = true
  nothing : ∀ path, path ≠ [] → (∀ e ∈ said, ¬ e.1 <+: path ∧ ¬ path <+: e.1) →
    along (some root) path = none

namespace Tells

variable {root : Value} {said : List Saying}

theorem empty (o : Origin) : Tells (.dict o []) [] where
  isDict := rfl
  found := by simp
  above := by simp
  nothing := by
    intro path nonempty _
    cases path with
    | nil => exact absurd rfl nonempty
    | cons name path => exact Value.along_none path

theorem room (tells : Tells root said) {path : List String}
    (apart : ∀ e ∈ said, ¬ e.1 <+: path ∧ ¬ path <+: e.1) (nonempty : path ≠ []) :
    Value.Room (some root) path := by
  apply Value.room_of_along
  rintro above rest rfl w found
  have start : above <+: above ++ rest := List.prefix_append above rest
  by_cases top : above = []
  · subst top
    cases found
    exact ⟨nonempty, tells.isDict⟩
  -- what is found above the new path is on the way to something said, as nothing said reaches it
  by_cases way : ∃ e ∈ said, above <+: e.1
  · obtain ⟨e, mem, below⟩ := way
    have other : above ≠ e.1 := by
      rintro rfl
      exact (apart e mem).1 start
    obtain ⟨w', here, dict⟩ := tells.above e mem above below other
    rw [found] at here
    cases here
    refine ⟨?_, dict⟩
    rintro rfl
    rw [List.append_nil] at apart
    exact (apart e mem).2 below
  · have none := tells.nothing above top fun e mem =>
      ⟨fun inside => (apart e mem).1 (inside.trans start), fun below => way ⟨e, mem, below⟩⟩
    rw [none] at found
    cases found

theorem add (tells : Tells root said) {path : List String} (o : Origin) (v : Value)
    (apart : ∀ e ∈ said, ¬ e.1 <+: path ∧ ¬ path <+: e.1) (nonempty : path ≠ []) :
    Tells (Value.merge root (Value.nest o path v)) (said ++ [(path, v)]) := by
  have room := tells.room apart nonempty
  constructor
  · obtain ⟨name, rest, rfl⟩ := List.exists_cons_of_ne_nil nonempty
    exact Value.isDict_merge _ _ _
  · intro e mem more
    rcases List.mem_append.1 mem with old | new
    · obtain ⟨before, after⟩ := apart e old
      rw [← tells.found e old more]
      apply Value.along_overlay_nest_of_apart o v (u := some root)
      · intro inside
        rcases List.prefix_or_prefix_of_prefix inside (List.prefix_append e.1 more) with h | h
        · exact after h
        · exact before h
      · exact fun below => before ((List.prefix_append e.1 more).trans below)
    · rw [List.mem_singleton.1 new]
      exact Value.along_overlay_nest o v room more
  · intro e mem above below other
    rcases List.mem_append.1 mem with old | new
    · by_cases way : above <+: path
      · apply Value.along_overlay_nest_above o v (u := some root) way
        rintro rfl
        exact (apart e old).2 below
      · obtain ⟨w, found, dict⟩ := tells.above e old above below other
        refine ⟨w, ?_, dict⟩
        rw [← found]
        apply Value.along_overlay_nest_of_apart o v (u := some root) _ way
        exact fun inside => (apart e old).2 (inside.trans below)
    · rw [List.mem_singleton.1 new] at below other
      exact Value.along_overlay_nest_above o v (u := some root) below other
  · intro elsewhere nonempty' free
    have here : ¬ path <+: elsewhere ∧ ¬ elsewhere <+: path := free (path, v) (by simp)
    rw [← tells.nothing elsewhere nonempty' fun e mem => free e (by simp [mem])]
    exact Value.along_overlay_nest_of_apart o v (u := some root) here.1 here.2

end Tells

theorem said?_eq_none_iff {said : List Saying} {path : List String} : said? said path = none ↔
    ∀ e ∈ said, ∀ more, path = e.1 ++ more → along (some e.2) more = none := by
  rw [said?, List.findSome?_eq_none_iff]
  constructor
  · rintro silent e mem more rfl
    simpa using silent e mem
  · intro silent e mem
    split
    · next start =>
      obtain ⟨more, rfl⟩ := start
      rw [List.drop_left]
      exact silent e mem more rfl
    · rfl

namespace Tells

variable {root : Value} {said : List Saying}

theorem along_of_said? (tells : Tells root said) {path : List String} {v : Value}
    (here : said? said path = some v) : along (some root) path = some v := by
  obtain ⟨e, mem, inside⟩ := List.exists_of_findSome?_eq_some here
  split at inside
  · next start =>
    obtain ⟨more, rfl⟩ := start
    rw [List.drop_left] at inside
    rw [tells.found e mem more, inside]
  · cases inside

/-- Something stands at a path if something is said about it, or about a part of it. -/
theorem isSome_along_iff (tells : Tells root said) {path : List String} (nonempty : path ≠ []) :
    (along (some root) path).isSome = true ↔
      (said? said path).isSome = true ∨ ∃ e ∈ said, path <+: e.1 := by
  constructor
  · intro here
    by_contra silent
    rw [not_or, Bool.not_eq_true, Option.isSome_eq_false_iff, Option.isNone_iff_eq_none,
      said?_eq_none_iff] at silent
    obtain ⟨silent, outside⟩ := silent
    have none : along (some root) path = none := by
      by_cases inside : ∃ e ∈ said, e.1 <+: path
      · obtain ⟨e, mem, more, rfl⟩ := inside
        rw [tells.found e mem more, silent e mem more rfl]
      · exact tells.nothing path nonempty fun e mem =>
          ⟨fun start => inside ⟨e, mem, start⟩, fun below => outside ⟨e, mem, below⟩⟩
    rw [none] at here
    cases here
  · rintro (here | ⟨e, mem, below⟩)
    · obtain ⟨v, here⟩ := Option.isSome_iff_exists.1 here
      rw [tells.along_of_said? here]
      rfl
    · by_cases same : path = e.1
      · have found := tells.found e mem []
        rw [List.append_nil, ← same] at found
        rw [found]
        rfl
      · obtain ⟨w, found, -⟩ := tells.above e mem path below same
        rw [found]
        rfl

/-- What stands at a path and is no dictionary was said about it. -/
theorem said?_of_along (tells : Tells root said) {path : List String} (nonempty : path ≠ [])
    {v : Value} (here : along (some root) path = some v) (plain : v.isDict = false) :
    said? said path = some v := by
  have given : (along (some root) path).isSome = true := by rw [here]; rfl
  cases told : said? said path with
  | some w => rw [← here, tells.along_of_said? told]
  | none =>
    rcases (tells.isSome_along_iff nonempty).1 given with some | ⟨e, mem, below⟩
    · rw [told] at some
      cases some
    · by_cases same : path = e.1
      · have silent := said?_eq_none_iff.1 told e mem [] (by rw [List.append_nil, same])
        cases silent
      · obtain ⟨w, found, dict⟩ := tells.above e mem path below same
        rw [here] at found
        cases found
        rw [plain] at dict
        cases dict

end Tells

theorem addVariable_of_path {start : String} {e : String × String} {path : List String}
    (named : path? start e.1 = some path) (members : Members) :
    Value.dict .environment (addVariable start members e) =
      Value.merge (.dict .environment members) (Value.nest .environment path (parse e.2)) := by
  obtain ⟨name, rest, rfl⟩ := List.exists_cons_of_ne_nil (path?_ne_nil named)
  rw [addVariable, named, Value.nest, Value.merge]

theorem addVariable_of_none {start : String} {e : String × String}
    (unnamed : path? start e.1 = none) (members : Members) :
    addVariable start members e = members := by
  rw [addVariable, unnamed]

theorem tells_foldl {start : String} {given : Variables} {members : Members} {said : List Saying}
    (apart : Apart (said ++ sayings start given)) (tells : Tells (.dict .environment members) said) :
    Tells (.dict .environment (given.foldl (addVariable start) members))
      (said ++ sayings start given) := by
  induction given generalizing members said with
  | nil => simpa [sayings] using tells
  | cons e rest ih =>
    rw [List.foldl_cons]
    cases named : path? start e.1 with
    | none =>
      have skipped : sayings start (e :: rest) = sayings start rest := by simp [sayings, named]
      rw [addVariable_of_none named, skipped]
      rw [skipped] at apart
      exact ih apart tells
    | some path =>
      have next : said ++ sayings start (e :: rest) =
          said ++ [(path, parse e.2)] ++ sayings start rest := by simp [sayings, named]
      rw [next] at apart ⊢
      apply ih apart
      rw [addVariable_of_path named]
      apply tells.add _ _ _ (path?_ne_nil named)
      intro earlier mem
      have together := (List.pairwise_append.1 apart).1
      exact (List.pairwise_append.1 together).2.2 earlier mem (path, parse e.2) (by simp)

/-- The merged environment holds what its variables say, if they are apart. -/
theorem tells_read {start : String} {given : Variables} (apart : Apart (sayings start given)) :
    Tells (.dict .environment (read start given)) (sayings start given) := by
  have first : Tells (.dict .environment []) [] := .empty .environment
  exact tells_foldl apart first

theorem proper_foldl {start : String} {given : Variables} {members : Members}
    (proper : Members.Proper members) :
    Members.Proper (given.foldl (addVariable start) members) := by
  induction given generalizing members with
  | nil => exact proper
  | cons e rest ih =>
    apply ih
    cases named : path? start e.1 with
    | none => rwa [addVariable_of_none named]
    | some path =>
      have merged := ((proper_parse e.2).nest .environment path).merge (proper.toDict .environment)
      rw [← addVariable_of_path named] at merged
      exact merged.members

theorem proper_read (start : String) (given : Variables) : Members.Proper (read start given) :=
  proper_foldl .empty

end Registrar.Environment
