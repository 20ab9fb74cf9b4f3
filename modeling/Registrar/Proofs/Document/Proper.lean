import Registrar.Document.Reader
import Registrar.Proofs.Config.Merging

/-!
# Documents give proper values

Whatever stands in a document, the values that it is read into are proper. This is followed along the
reading of one value, along the changes that statements make to a document under construction, and
at the end into the members that it stands for.
-/

namespace Registrar.Document

open Value (Members)

namespace Node

/-- All values in the node are proper. What stands in a list of tables does not matter. -/
inductive Sound : Node → Prop
  | value {v : Value} (proper : v.Proper) : Sound (.value v)
  | table {kind : TableKind} {members : Node.Members} (inner : ∀ e ∈ members, Sound e.2) :
      Sound (.table kind members)
  | tables {items : List Node.Members} : Sound (.tables items)

def SoundMembers (members : Node.Members) : Prop := ∀ e ∈ members, e.2.Sound

variable {members : Node.Members} {name : String} {node : Node}

theorem Sound.inner {kind : TableKind} {inner : Node.Members} (sound : (Node.table kind inner).Sound) :
    SoundMembers inner := by
  cases sound with
  | table inner => exact inner

theorem SoundMembers.lookup (sound : SoundMembers members) (found : members.lookup name = some node) :
    node.Sound := by
  obtain ⟨before, after, split, -⟩ := List.lookup_eq_some_iff.1 found
  exact sound (name, node) (by simp [split])

theorem SoundMembers.append (sound : SoundMembers members) (given : node.Sound) :
    SoundMembers (members ++ [(name, node)]) := by
  intro e mem
  rcases List.mem_append.1 mem with mem | mem
  · exact sound e mem
  · rw [List.mem_singleton.1 mem]
    exact given

theorem SoundMembers.replace (sound : SoundMembers members) (given : node.Sound) :
    SoundMembers (Node.replace name node members) := by
  induction members with
  | nil => simpa [Node.replace, SoundMembers] using given
  | cons e rest ih =>
    obtain ⟨first, others⟩ := List.forall_mem_cons.1 sound
    unfold Node.replace
    split
    · exact List.forall_mem_cons.2 ⟨given, others⟩
    · exact List.forall_mem_cons.2 ⟨first, ih others⟩

theorem SoundMembers.assign {v : Value} (proper : v.Proper) {path : List String}
    {members changed : Node.Members} (sound : SoundMembers members)
    (assigned : Node.assign name v path members = some changed) : SoundMembers changed := by
  induction path generalizing members changed with
  | nil =>
    rw [Node.assign] at assigned
    split at assigned
    · cases assigned
    · cases assigned
      exact sound.append (.value proper)
  | cons part path ih =>
    rw [Node.assign] at assigned
    split at assigned
    · obtain ⟨inner, assignedInner, e⟩ := Option.bind_eq_some_iff.1 assigned
      cases e
      exact sound.append (.table (ih (by simp [SoundMembers]) assignedInner))
    · next kind inner found =>
      split at assigned
      · cases assigned
      · obtain ⟨inner', assignedInner, e⟩ := Option.bind_eq_some_iff.1 assigned
        cases e
        exact sound.replace (.table (ih (sound.lookup found).inner assignedInner))
    · split at assigned
      · cases assigned
      · obtain ⟨last, -, assigned⟩ := Option.bind_eq_some_iff.1 assigned
        obtain ⟨inner', -, e⟩ := Option.bind_eq_some_iff.1 assigned
        cases e
        exact sound.replace .tables
    · cases assigned

theorem Sound.toValue (sound : node.Sound) : node.toValue.Proper := by
  induction sound with
  | value proper =>
    rw [Node.toValue]
    exact proper
  | @table kind members inner ih =>
    have proper : Members.Proper (toMembers members) := by
      -- the members are a list of their own, with the induction hypothesis for each
      clear inner
      induction members with
      | nil =>
        rw [toMembers]
        exact .empty
      | cons e rest step =>
        obtain ⟨first, others⟩ := List.forall_mem_cons.1 ih
        rw [toMembers]
        exact (step others).insertMember first e.1
    rw [Node.toValue]
    exact proper.toDict .document
  | tables =>
    rw [Node.toValue]
    exact .list

theorem SoundMembers.toMembers (sound : SoundMembers members) :
    Members.Proper (Node.toMembers members) := by
  have whole : (Node.table .explicit members).Sound := .table sound
  have proper := whole.toValue
  rw [Node.toValue] at proper
  exact proper.members

end Node

open Node (SoundMembers)

theorem proper_of_readWord {word : List Char} {v : Value} (read : readWord word = some v) :
    v.Proper := by
  unfold readWord at read
  split at read
  · cases read
    exact .scalar (by simp)
  · cases read
    exact .scalar (by simp)
  · split at read
    · cases read
      exact .dict (List.pairwise_singleton _ _) (by simpa using Value.Proper.scalar (by simp))
    · split at read
      · cases read
        exact .scalar (by simp)
      · obtain ⟨d, -, rfl⟩ := Option.map_eq_some_iff.1 read
        exact .scalar (by simp)

/-- Values nest through the members of tables; lists need no care. -/
theorem proper_of_read (fuel : Nat) :
    (∀ depth cs v rest, readValue depth fuel cs = some (v, rest) → v.Proper) ∧
    ∀ depth members cs members' rest, SoundMembers members →
      readMembers depth fuel members cs = some (members', rest) → SoundMembers members' := by
  induction fuel with
  | zero =>
    constructor
    · intro depth cs v rest read
      cases read
    · intro depth members cs members' rest _ read
      cases read
  | succ fuel ih =>
    obtain ⟨values, tables⟩ := ih
    constructor
    · intro depth cs v rest read
      unfold readValue at read
      split at read
      · obtain ⟨text, -, e⟩ := Option.map_eq_some_iff.1 read
        cases e
        exact .scalar (by simp)
      · obtain ⟨text, -, e⟩ := Option.map_eq_some_iff.1 read
        cases e
        exact .scalar (by simp)
      · split at read
        · cases read
        · obtain ⟨items, -, e⟩ := Option.map_eq_some_iff.1 read
          cases e
          exact .list
      · split at read
        · cases read
        · split at read
          · cases read
            exact Value.Members.Proper.empty.toDict _
          · obtain ⟨⟨members, rest'⟩, inner, e⟩ := Option.map_eq_some_iff.1 read
            cases e
            have sound := tables _ _ _ _ _ (by simp [SoundMembers]) inner
            exact sound.toMembers.toDict _
      · obtain ⟨v', word, e⟩ := Option.map_eq_some_iff.1 read
        cases e
        exact proper_of_readWord word
    · intro depth members cs members' rest sound read
      unfold readMembers at read
      obtain ⟨⟨key, rest₁⟩, -, read⟩ := Option.bind_eq_some_iff.1 read
      dsimp only at read
      split at read
      · obtain ⟨⟨v, rest₂⟩, value, read⟩ := Option.bind_eq_some_iff.1 read
        obtain ⟨name, -, read⟩ := Option.bind_eq_some_iff.1 read
        obtain ⟨changed, assigned, read⟩ := Option.bind_eq_some_iff.1 read
        have next := sound.assign (values _ _ _ _ value) assigned
        dsimp only at read
        split at read
        · cases read
          exact next
        · exact tables _ _ _ _ _ next read
        · cases read
      · cases read

theorem proper_of_readValue {depth fuel : Nat} {cs rest : List Char} {v : Value}
    (read : readValue depth fuel cs = some (v, rest)) : v.Proper :=
  (proper_of_read fuel).1 depth cs v rest read

def Statement.Proper : Statement → Prop
  | .assign _ v => v.Proper
  | _ => True

theorem proper_of_readStatement {cs rest : List Char} {s : Statement}
    (read : readStatement cs = some (s, rest)) : s.Proper := by
  unfold readStatement at read
  split at read
  · obtain ⟨⟨path, rest₁⟩, -, read⟩ := Option.bind_eq_some_iff.1 read
    dsimp only at read
    split at read
    · cases read
      exact True.intro
    · cases read
  · obtain ⟨⟨path, rest₁⟩, -, read⟩ := Option.bind_eq_some_iff.1 read
    cases read
    exact True.intro
  · obtain ⟨⟨key, rest₁⟩, -, read⟩ := Option.bind_eq_some_iff.1 read
    dsimp only at read
    split at read
    · obtain ⟨⟨v, rest₂⟩, value, read⟩ := Option.bind_eq_some_iff.1 read
      cases read
      exact proper_of_readValue value
    · cases read

theorem proper_of_readStatements {fuel : Nat} {cs : List Char} {statements : List Statement}
    (read : readStatements fuel cs = some statements) : ∀ s ∈ statements, s.Proper := by
  induction fuel generalizing cs statements with
  | zero => cases read
  | succ fuel ih =>
    unfold readStatements at read
    split at read
    · cases read
      simp
    · exact ih read
    · exact ih read
    · obtain ⟨rest, -, read⟩ := Option.bind_eq_some_iff.1 read
      exact ih read
    · obtain ⟨⟨s, rest⟩, first, read⟩ := Option.bind_eq_some_iff.1 read
      obtain ⟨rest', -, read⟩ := Option.bind_eq_some_iff.1 read
      obtain ⟨others, later, e⟩ := Option.bind_eq_some_iff.1 read
      cases e
      exact List.forall_mem_cons.2 ⟨proper_of_readStatement first, ih later⟩

section Changes

variable {members changed : Node.Members}

theorem sound_updateAt {f : Node.Members → Option Node.Members}
    (keeps : ∀ inner changed, SoundMembers inner → f inner = some changed → SoundMembers changed)
    {path : List String} (sound : SoundMembers members)
    (updated : updateAt f path members = some changed) : SoundMembers changed := by
  induction path generalizing members changed with
  | nil => exact keeps members changed sound updated
  | cons part path ih =>
    rw [updateAt] at updated
    split at updated
    · obtain ⟨inner, updatedInner, e⟩ := Option.bind_eq_some_iff.1 updated
      cases e
      exact sound.append (.table (ih (by simp [SoundMembers]) updatedInner))
    · next kind inner found =>
      obtain ⟨inner', updatedInner, e⟩ := Option.bind_eq_some_iff.1 updated
      cases e
      exact sound.replace (.table (ih (sound.lookup found).inner updatedInner))
    · obtain ⟨last, -, updated⟩ := Option.bind_eq_some_iff.1 updated
      obtain ⟨inner', -, e⟩ := Option.bind_eq_some_iff.1 updated
      cases e
      exact sound.replace .tables
    · cases updated

theorem sound_openMember {name : String} (sound : SoundMembers members)
    (opened : openMember name members = some changed) : SoundMembers changed := by
  unfold openMember at opened
  split at opened
  · cases opened
    exact sound.append (.table (by simp))
  · next inner found =>
    cases opened
    exact sound.replace (.table (sound.lookup found).inner)
  · cases opened

theorem sound_addMember {name : String} (sound : SoundMembers members)
    (added : addMember name members = some changed) : SoundMembers changed := by
  unfold addMember at added
  split at added
  · cases added
    exact sound.append .tables
  · cases added
    exact sound.replace .tables
  · cases added

end Changes

theorem sound_apply {d d' : Draft} {s : Statement} (proper : s.Proper)
    (sound : SoundMembers d.root) (applied : d.apply s = some d') : SoundMembers d'.root := by
  cases s with
  | openTable path =>
    obtain ⟨name, -, applied⟩ := Option.bind_eq_some_iff.1 applied
    obtain ⟨root, updated, e⟩ := Option.bind_eq_some_iff.1 applied
    cases e
    exact sound_updateAt (fun _ _ => sound_openMember) sound updated
  | addTable path =>
    obtain ⟨name, -, applied⟩ := Option.bind_eq_some_iff.1 applied
    obtain ⟨root, updated, e⟩ := Option.bind_eq_some_iff.1 applied
    cases e
    exact sound_updateAt (fun _ _ => sound_addMember) sound updated
  | assign key v =>
    obtain ⟨name, -, applied⟩ := Option.bind_eq_some_iff.1 applied
    obtain ⟨root, updated, e⟩ := Option.bind_eq_some_iff.1 applied
    cases e
    exact sound_updateAt (fun _ _ inner => inner.assign proper) sound updated

theorem sound_of_build {statements : List Statement} {root : Node.Members}
    (proper : ∀ s ∈ statements, s.Proper) (built : build statements = some root) :
    SoundMembers root := by
  obtain ⟨d, folded, rfl⟩ := Option.map_eq_some_iff.1 built
  have start : SoundMembers (Draft.mk [] []).root := by simp [SoundMembers]
  clear built
  generalize Draft.mk [] [] = first at folded start
  induction statements generalizing first with
  | nil =>
    cases folded
    exact start
  | cons s rest ih =>
    obtain ⟨here, others⟩ := List.forall_mem_cons.1 proper
    rw [List.foldlM_cons] at folded
    obtain ⟨next, applied, folded⟩ := Option.bind_eq_some_iff.1 folded
    exact ih others next folded (sound_apply here start applied)

/-- What a document stands for is proper. -/
theorem proper_of_readDocument {text : String} {members : Members}
    (read : Document.read text = some members) : Members.Proper members := by
  obtain ⟨statements, found, read⟩ := Option.bind_eq_some_iff.1 read
  obtain ⟨root, built, e⟩ := Option.bind_eq_some_iff.1 read
  cases e
  exact (sound_of_build (proper_of_readStatements found) built).toMembers

end Registrar.Document
