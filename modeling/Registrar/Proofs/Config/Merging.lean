import Registrar.Config.Value
import Registrar.Proofs.Dict

/-!
# Lookups in merged values

A merge is understood from name to name: what it has under a name is what it makes of the two values
that stand under that name. The names of a dictionary have to be distinct for this, which they are
in every proper value, and merging keeps values proper.
-/

namespace Registrar.Value

def isDict : Value → Bool
  | dict _ _ => true
  | _ => false

/-- What a dictionary has under a name. -/
def under (v : Option Value) (name : String) : Option Value :=
  match v with
  | some (dict _ members) => member? members name
  | _ => none

/-- What stands at the end of a path of dictionaries. -/
def along (v : Option Value) (path : List String) : Option Value := path.foldl under v

@[simp] theorem under_none (name : String) : under none name = none := rfl

@[simp] theorem along_nil (v : Option Value) : along v [] = v := rfl

@[simp] theorem along_cons (v : Option Value) (name : String) (path : List String) :
    along v (name :: path) = along (under v name) path := rfl

@[simp] theorem along_none (path : List String) : along none path = none := by
  induction path with
  | nil => rfl
  | cons name path ih => exact ih

/-- What a merge makes of two values that stand in the same place, if they are there. -/
def overlay (earlier later : Option Value) : Option Value :=
  match later, earlier with
  | none, _ => earlier
  | some v, none => some v
  | some v, some u => some (merge u v)

@[simp] theorem overlay_none (earlier : Option Value) : overlay earlier none = earlier := rfl

theorem insertMember_eq_put (name : String) (value : Value) (members : Members) :
    insertMember name value members = Dict.put name value members := by
  induction members with
  | nil => rfl
  | cons e rest ih =>
    obtain ⟨x, y⟩ := e
    rw [insertMember, Dict.put, ih]

theorem member?_insertMember (name : String) (value : Value) (members : Members) (other : String) :
    member? (insertMember name value members) other =
      if other = name then some value else member? members other := by
  rw [member?, insertMember_eq_put, Dict.lookup_put]
  rfl

theorem member?_cons (e : String × Value) (members : Members) (name : String) :
    member? (e :: members) name = if name = e.1 then some e.2 else member? members name :=
  Pairs.lookup_cons e members name

theorem member?_eq_none {members : Members} {name : String}
    (absent : name ∉ members.map Prod.fst) : member? members name = none :=
  Pairs.lookup_eq_none absent

theorem mergeMembers_cons (base : Members) (e : String × Value) (rest : Members) :
    ∃ merged, overlay (member? base e.1) (some e.2) = some merged ∧
      mergeMembers base (e :: rest) = mergeMembers (insertMember e.1 merged base) rest := by
  rw [mergeMembers]
  cases member? base e.1 with
  | none => exact ⟨e.2, rfl, rfl⟩
  | some earlier => exact ⟨merge earlier e.2, rfl, rfl⟩

theorem member?_mergeMembers {base later : Members} (distinct : (later.map Prod.fst).Nodup)
    (name : String) :
    member? (mergeMembers base later) name = overlay (member? base name) (member? later name) := by
  induction later generalizing base with
  | nil => rfl
  | cons e rest ih =>
    rw [List.map_cons, List.nodup_cons] at distinct
    obtain ⟨absent, distinct⟩ := distinct
    obtain ⟨merged, here, next⟩ := mergeMembers_cons base e rest
    rw [next, ih distinct, member?_insertMember, member?_cons]
    by_cases same : name = e.1
    · rw [if_pos same, if_pos same, same, here, member?_eq_none absent, overlay_none]
    · rw [if_neg same, if_neg same]

@[simp] theorem isDict_merge (u : Value) (o : Origin) (members : Members) :
    (merge u (dict o members)).isDict = true := by
  cases u <;> simp [merge, isDict]

theorem isDict_overlay (u : Option Value) (o : Origin) (members : Members) :
    ∃ w, overlay u (some (dict o members)) = some w ∧ w.isDict = true := by
  cases u with
  | none => exact ⟨_, rfl, rfl⟩
  | some u => exact ⟨_, rfl, isDict_merge u o members⟩

theorem under_overlay_dict (u : Option Value) {o : Origin} {members : Members}
    (distinct : (members.map Prod.fst).Nodup) (name : String) :
    under (overlay u (some (dict o members))) name = overlay (under u name) (member? members name) := by
  rcases u with _ | ⟨o', s⟩ | ⟨o', items⟩ | ⟨o', base⟩
  · cases found : member? members name <;> simp [overlay, under, found]
  · cases found : member? members name <;> simp [overlay, under, merge, found]
  · cases found : member? members name <;> simp [overlay, under, merge, found]
  · exact member?_mergeMembers distinct name

/-- A merge that is a dictionary has under each name what it makes of both sides there. -/
theorem under_overlay {u v : Option Value} {w : Value} (merged : overlay u v = some w)
    (dict : w.isDict = true)
    (distinct : ∀ o members, v = some (Value.dict o members) → (members.map Prod.fst).Nodup)
    (name : String) : under (overlay u v) name = overlay (under u name) (under v name) := by
  rcases v with _ | ⟨o, s⟩ | ⟨o, items⟩ | ⟨o, members⟩
  · rfl
  · cases u <;> (cases merged; cases dict)
  · cases u <;> (cases merged; cases dict)
  · exact under_overlay_dict u (distinct o members rfl) name

theorem overlay_eq_none_iff {u v : Option Value} : overlay u v = none ↔ u = none ∧ v = none := by
  cases u <;> cases v <;> simp [overlay]

theorem isSome_overlay_iff {u v : Option Value} :
    (overlay u v).isSome = true ↔ v.isSome = true ∨ u.isSome = true := by
  cases u <;> cases v <;> simp [overlay]

/-- What is no dictionary is left alone by a merge, and takes the place of what was there. -/
theorem overlay_eq_of_not_dict {u v : Option Value} {w : Value} (merged : overlay u v = some w)
    (plain : w.isDict = false) : v.or u = some w := by
  cases v with
  | none => exact merged
  | some later =>
    cases u with
    | none => exact merged
    | some earlier =>
      have same : merge earlier later = w := Option.some.inj merged
      cases later with
      | dict o members =>
        rw [← same, isDict_merge] at plain
        cases plain
      | _ => exact congrArg some same

/-- A value as a source can give it: nothing in it is empty, and dictionaries have ascending names.
What is in a list never takes part in a merge. -/
inductive Proper : Value → Prop
  | scalar {o : Origin} {s : Scalar} (given : s ≠ .nothing) : Proper (.scalar o s)
  | list {o : Origin} {items : List Value} : Proper (.list o items)
  | dict {o : Origin} {members : Members} (ascending : (members.map Prod.fst).Pairwise (· < ·))
      (inner : ∀ e ∈ members, Proper e.2) : Proper (.dict o members)

/-- The members of a proper dictionary. -/
structure Members.Proper (members : Members) : Prop where
  ascending : (members.map Prod.fst).Pairwise (· < ·)
  inner : ∀ e ∈ members, e.2.Proper

theorem Proper.members {o : Origin} {members : Members}
    (proper : (Value.dict o members).Proper) :
    Members.Proper members := by
  cases proper with
  | dict ascending inner => exact ⟨ascending, inner⟩

namespace Members.Proper

variable {members : Members}

theorem empty : Members.Proper [] := ⟨.nil, by simp⟩

theorem toDict (proper : Members.Proper members) (o : Origin) :
    (Value.dict o members).Proper :=
  .dict proper.ascending proper.inner

theorem nodup (proper : Members.Proper members) : (members.map Prod.fst).Nodup := by
  refine proper.ascending.imp ?_
  rintro x y less rfl
  exact String.lt_irrefl x less

theorem member? (proper : Members.Proper members) {name : String} {v : Value}
    (found : Value.member? members name = some v) : v.Proper := by
  obtain ⟨before, after, split, -⟩ := List.lookup_eq_some_iff.1 found
  exact proper.inner (name, v) (by simp [split])

theorem insertMember (proper : Members.Proper members) {value : Value} (given : value.Proper)
    (name : String) : Members.Proper (Value.insertMember name value members) := by
  rw [insertMember_eq_put]
  refine ⟨Dict.ascending_put proper.ascending name value, ?_⟩
  intro e mem
  rcases Dict.mem_put mem with rfl | mem
  · exact given
  · exact proper.inner e mem

/-- Members of which each merges properly are merged properly. -/
theorem mergeMembers {base later : Members} (proper : Members.Proper base)
    (given : ∀ e ∈ later, e.2.Proper ∧ ∀ u : Value, u.Proper → (merge u e.2).Proper) :
    Members.Proper (Value.mergeMembers base later) := by
  induction later generalizing base with
  | nil => exact proper
  | cons e rest ih =>
    rw [List.forall_mem_cons] at given
    obtain ⟨⟨fresh, merges⟩, others⟩ := given
    obtain ⟨merged, here, next⟩ := mergeMembers_cons base e rest
    have keeps : merged.Proper := by
      cases found : Value.member? base e.1 with
      | none =>
        rw [found] at here
        cases here
        exact fresh
      | some u =>
        rw [found] at here
        cases here
        exact merges u (proper.member? found)
    rw [next]
    exact ih (proper.insertMember keeps e.1) others

end Members.Proper

theorem Proper.merge {v : Value} (proper : v.Proper) {u : Value} (earlier : u.Proper) :
    (Value.merge u v).Proper := by
  induction proper generalizing u with
  | scalar given => exact .scalar given
  | list => exact .list
  | @dict o members ascending inner ih =>
    cases u with
    | dict o' base =>
      exact (earlier.members.mergeMembers fun e mem => ⟨inner e mem, fun _ => ih e mem⟩).toDict o
    | _ => exact .dict ascending inner

theorem proper_of_overlay {u v : Option Value} (earlier : ∀ w, u = some w → w.Proper)
    (later : ∀ w, v = some w → w.Proper) (w : Value) (merged : overlay u v = some w) : w.Proper := by
  cases v with
  | none => exact earlier w merged
  | some v' =>
    cases u with
    | none => exact later w merged
    | some u' =>
      cases merged
      exact (later v' rfl).merge (earlier u' rfl)

theorem Members.Proper.merge {base later : Members} (proper : Members.Proper base)
    (proper' : Members.Proper later) : Members.Proper (Value.mergeMembers base later) :=
  proper.mergeMembers fun e mem => ⟨proper'.inner e mem, fun _ => (proper'.inner e mem).merge⟩

theorem Proper.nest {v : Value} (proper : v.Proper) (o : Origin) (path : List String) :
    (nest o path v).Proper := by
  induction path with
  | nil => exact proper
  | cons name path ih => exact .dict (List.pairwise_singleton _ _) (by simpa using ih)

theorem Proper.along {v : Value} (proper : v.Proper) {path : List String} {w : Value}
    (found : along (some v) path = some w) : w.Proper := by
  induction path generalizing v with
  | nil =>
    cases found
    exact proper
  | cons name path ih =>
    rw [along_cons] at found
    cases inner : under (some v) name with
    | none => simp [inner] at found
    | some v' =>
      rw [inner] at found
      cases v with
      | dict o members => exact ih (proper.members.member? inner) found
      | _ => cases inner

/-- A value can be put at the end of the path: nothing stands there yet, and there are only
dictionaries on the way. -/
def Room : Option Value → List String → Prop
  | none, _ => True
  | some _, [] => False
  | some v, name :: path => v.isDict = true ∧ Room (under (some v) name) path

theorem room_none (path : List String) : Room none path := by
  cases path <;> trivial

theorem room_of_along {v : Option Value} {path : List String}
    (free : ∀ above rest, path = above ++ rest → ∀ w, along v above = some w →
      rest ≠ [] ∧ w.isDict = true) : Room v path := by
  induction path generalizing v with
  | nil =>
    cases v with
    | none => exact room_none []
    | some v => exact absurd rfl (free [] [] rfl v rfl).1
  | cons name path ih =>
    cases v with
    | none => exact room_none _
    | some v =>
      refine ⟨(free [] (name :: path) rfl v rfl).2, ih ?_⟩
      intro above rest split w found
      exact free (name :: above) rest (by rw [split, List.cons_append]) w found

section Placed

variable {u : Option Value} {path : List String} (o : Origin) (v : Value)

theorem under_overlay_nest (u : Option Value) (name : String) (path : List String) (other : String) :
    under (overlay u (some (nest o (name :: path) v))) other =
      if other = name then overlay (under u name) (some (nest o path v)) else under u other := by
  rw [nest, under_overlay_dict _ (by simp), member?_cons]
  by_cases same : other = name
  · rw [if_pos same, if_pos same, same]
  · rw [if_neg same, if_neg same]
    rfl

/-- The value is found at the end of its path. -/
theorem along_overlay_nest (room : Room u path) (more : List String) :
    along (overlay u (some (nest o path v))) (path ++ more) = along (some v) more := by
  induction path generalizing u with
  | nil =>
    cases u with
    | none => rfl
    | some u => exact absurd room id
  | cons name path ih =>
    rw [List.cons_append, along_cons, under_overlay_nest, if_pos rfl]
    apply ih
    cases u with
    | none => exact room_none path
    | some u => exact room.2

/-- On the way to it there are dictionaries. -/
theorem along_overlay_nest_above {above : List String} (above_path : above <+: path)
    (other : above ≠ path) :
    ∃ w, along (overlay u (some (nest o path v))) above = some w ∧ w.isDict = true := by
  induction path generalizing u above with
  | nil => exact absurd (List.prefix_nil.1 above_path) other
  | cons name path ih =>
    cases above with
    | nil => exact isDict_overlay u o _
    | cons name' above =>
      obtain ⟨rfl, inner⟩ := List.cons_prefix_cons.1 above_path
      rw [along_cons, under_overlay_nest, if_pos rfl]
      exact ih inner fun same => other (by rw [same])

/-- Elsewhere nothing changes. -/
theorem along_overlay_nest_of_apart {elsewhere : List String} (after : ¬ path <+: elsewhere)
    (before : ¬ elsewhere <+: path) :
    along (overlay u (some (nest o path v))) elsewhere = along u elsewhere := by
  induction path generalizing u elsewhere with
  | nil => exact absurd List.nil_prefix after
  | cons name path ih =>
    cases elsewhere with
    | nil => exact absurd List.nil_prefix before
    | cons name' elsewhere =>
      rw [along_cons, along_cons, under_overlay_nest]
      by_cases same : name' = name
      · subst same
        rw [if_pos rfl]
        apply ih
        · exact fun inner => after (List.cons_prefix_cons.2 ⟨rfl, inner⟩)
        · exact fun inner => before (List.cons_prefix_cons.2 ⟨rfl, inner⟩)
      · rw [if_neg same]

end Placed

end Registrar.Value
