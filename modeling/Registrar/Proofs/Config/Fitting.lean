import Registrar.Proofs.Config.Options
import Registrar.Proofs.Config.Extraction
import Registrar.Proofs.Dict

/-!
# Values that fit

A dictionary is read as a configuration exactly if each of its members can be read by itself, whatever
else has been read before. So a member that fits can take the place of another, or a new place, and
nothing but its own option changes.
-/

namespace Registrar.Extraction

open Value (Members under overlay nest member? insertMember)

variable {α β : Type}

theorem Takes.unique {read : β → Value → Extracted β} {v : Option Value} {x y z : β}
    (first : Takes read v x y) (second : Takes read v x z) : y = z := by
  cases v with
  | none =>
    have left : y = x := first
    have right : z = x := second
    rw [left, right]
  | some v =>
    have left : read x v = .ok y := first
    have right : read x v = .ok z := second
    rw [left] at right
    exact Except.ok.inj right

namespace Group

variable {g : Group α}

/-- The value can be read as the option of this name. -/
def Fits (g : Group α) (name : String) (v : Value) : Prop := ∃ a b, g.set name v a = .ok b

/-- What fits does so after whatever has been read. -/
def Steady (g : Group α) : Prop := ∀ name v, g.Fits name v → ∀ a, ∃ b, g.set name v a = .ok b

namespace Steady

theorem setMembers_iff (steady : g.Steady) {members : Members} (a : α) :
    (∃ b, g.setMembers a members = .ok b) ↔ ∀ e ∈ members, g.Fits e.1 e.2 := by
  induction members generalizing a with
  | nil => exact ⟨fun _ => by simp, fun _ => ⟨a, rfl⟩⟩
  | cons e rest ih =>
    obtain ⟨name, v⟩ := e
    rw [List.forall_mem_cons]
    constructor
    · rintro ⟨b, set⟩
      obtain ⟨next, first, others⟩ := of_bind_eq_ok set
      exact ⟨⟨a, next, of_inside_eq_ok first⟩, (ih next).1 ⟨b, others⟩⟩
    · rintro ⟨fits, others⟩
      obtain ⟨next, first⟩ := steady name v fits a
      rw [setMembers_cons first]
      exact (ih next).2 others

theorem setItems_iff (steady : g.Steady) {i : Nat} {names : List String} {items : List Value}
    (a : α) : (∃ b, g.setItems a i names items = .ok b) ↔
      ∀ e ∈ names.zip items, g.Fits e.1 e.2 := by
  induction names generalizing i items a with
  | nil => exact ⟨fun _ => by simp, fun _ => ⟨a, rfl⟩⟩
  | cons name names ih =>
    cases items with
    | nil => exact ⟨fun _ => by simp, fun _ => ⟨a, rfl⟩⟩
    | cons v rest =>
      rw [List.zip_cons_cons, List.forall_mem_cons]
      constructor
      · rintro ⟨b, set⟩
        obtain ⟨next, first, others⟩ := of_bind_eq_ok set
        exact ⟨⟨a, next, of_inside_eq_ok first⟩, (ih next).1 ⟨b, others⟩⟩
      · rintro ⟨fits, others⟩
        obtain ⟨next, first⟩ := steady name v fits a
        rw [setItems, first]
        exact (ih next).2 others

theorem read (steady : g.Steady) {v : Value} (fits : ∃ a b, g.read a v = .ok b) (a : α) :
    ∃ b, g.read a v = .ok b := by
  obtain ⟨a', b, read⟩ := fits
  cases v with
  | scalar => cases read
  | list o items => exact (steady.setItems_iff a).2 ((steady.setItems_iff a').1 ⟨b, read⟩)
  | dict o members => exact (steady.setMembers_iff a).2 ((steady.setMembers_iff a').1 ⟨b, read⟩)

/-- A member that fits gives its own option and no other. -/
theorem setMembers_insertMember (steady : g.Steady) {members : Members} {a b : α} {name : String}
    {v : Value} (proper : Members.Proper members) (given : v.Proper)
    (set : g.setMembers a members = .ok b) (fits : g.Fits name v) :
    ∃ c, g.setMembers a (insertMember name v members) = .ok c ∧
      ∀ {β : Type} {other : String} {get : α → β} {read : β → Value → Extracted β},
        GroupOption g other get read →
        if other = name then read (get a) v = .ok (get c) else get c = get b := by
  have each := (steady.setMembers_iff a).1 ⟨b, set⟩
  obtain ⟨c, set'⟩ : ∃ c, g.setMembers a (insertMember name v members) = .ok c := by
    rw [steady.setMembers_iff, Value.insertMember_eq_put]
    intro e mem
    rcases Dict.mem_put mem with rfl | old
    · exact fits
    · exact each e old
  refine ⟨c, set', fun {_ other _ _} option => ?_⟩
  have old := option.of_setMembers proper.nodup set
  have new := option.of_setMembers (proper.insertMember given name).nodup set'
  rw [Value.member?_insertMember] at new
  split
  · next same =>
    rw [if_pos same] at new
    exact new
  · next apart =>
    rw [if_neg apart] at new
    exact new.unique old

end Steady

end Group

theorem steady_registry : registryGroup.Steady := by
  rintro name v ⟨a, b, set⟩ a'
  unfold registryGroup at set ⊢
  dsimp only at set ⊢
  split at set
  · obtain ⟨x, read, -⟩ := of_bind_eq_ok set
    exact ⟨_, by rw [read]; rfl⟩
  · obtain ⟨x, read, -⟩ := of_bind_eq_ok set
    exact ⟨_, by rw [read]; rfl⟩
  · exact ⟨a', rfl⟩

theorem steady_logging : loggingGroup.Steady := by
  rintro name v ⟨a, b, set⟩ a'
  unfold loggingGroup at set ⊢
  dsimp only at set ⊢
  split at set
  · obtain ⟨x, read, -⟩ := of_bind_eq_ok set
    exact ⟨_, by rw [read]; rfl⟩
  · obtain ⟨x, read, -⟩ := of_bind_eq_ok set
    exact ⟨_, by rw [read]; rfl⟩
  · obtain ⟨x, read, -⟩ := of_bind_eq_ok set
    exact ⟨_, by rw [read]; rfl⟩
  · obtain ⟨x, read, -⟩ := of_bind_eq_ok set
    exact ⟨_, by rw [read]; rfl⟩
  · exact ⟨a', rfl⟩

theorem steady_config : configGroup.Steady := by
  rintro name v ⟨a, b, set⟩ a'
  unfold configGroup at set ⊢
  dsimp only at set ⊢
  split at set
  · obtain ⟨x, read, -⟩ := of_bind_eq_ok set
    obtain ⟨y, read'⟩ := steady_registry.read ⟨_, x, read⟩ a'.registry
    exact ⟨_, by rw [read']; rfl⟩
  · obtain ⟨x, read, -⟩ := of_bind_eq_ok set
    obtain ⟨y, read'⟩ := steady_logging.read ⟨_, x, read⟩ a'.logging
    exact ⟨_, by rw [read']; rfl⟩
  · obtain ⟨x, read, -⟩ := of_bind_eq_ok set
    exact ⟨_, by rw [read]; rfl⟩
  · exact ⟨a', rfl⟩

theorem foldlM_iff {read : Value → Extracted β} {members : Members} (d : Dict β) :
    (∃ d', members.foldlM (fun d (name, inner) => do
      return d.insert name (← inside name (read inner))) d = .ok d') ↔
      ∀ e ∈ members, ∃ b, read e.2 = .ok b := by
  induction members generalizing d with
  | nil => exact ⟨fun _ => by simp, fun _ => ⟨d, rfl⟩⟩
  | cons e rest ih =>
    obtain ⟨name, v⟩ := e
    rw [List.foldlM_cons, List.forall_mem_cons]
    constructor
    · rintro ⟨d', folded⟩
      obtain ⟨next, first, others⟩ := of_bind_eq_ok folded
      obtain ⟨x, taken, -⟩ := of_bind_eq_ok first
      exact ⟨⟨x, of_inside_eq_ok taken⟩, (ih next).1 ⟨d', others⟩⟩
    · rintro ⟨⟨x, taken⟩, others⟩
      dsimp only at taken ⊢
      rw [taken]
      exact (ih (d.insert name x)).2 others

theorem readDict_insertMember {read : Value → Extracted β} {o o' : Origin} {members : Members}
    {name : String} {v : Value} {d : Dict β} {b : β} (proper : Members.Proper members)
    (given : v.Proper) (taken : readDict read (.dict o members) = .ok d) (fits : read v = .ok b) :
    readDict read (.dict o' (insertMember name v members)) = .ok (d.insert name b) := by
  have each := (foldlM_iff .empty).1 ⟨d, taken⟩
  obtain ⟨d', taken'⟩ : ∃ d', readDict read (.dict o' (insertMember name v members)) = .ok d' := by
    refine (foldlM_iff .empty).2 fun e mem => ?_
    rw [Value.insertMember_eq_put] at mem
    rcases Dict.mem_put mem with rfl | old
    · exact ⟨b, fits⟩
    · exact each e old
  have same : d' = d.insert name b := by
    apply Dict.ext_find?
    intro x
    have old := find?_of_foldlM proper.nodup taken x
    have new := find?_of_foldlM (proper.insertMember given name).nodup taken' x
    rw [Value.member?_insertMember] at new
    rw [Dict.find?_insert]
    by_cases here : x = name
    · rw [if_pos here] at new ⊢
      rw [Takes, fits] at new
      exact (Except.ok.inj new).symm
    · rw [if_neg here] at new ⊢
      exact new.unique old
  rw [taken', same]

section Member

variable {members : Members} {c : Config} {v : Value}

theorem extract_insertMember_logging (proper : Members.Proper members) (given : v.Proper)
    (extracted : Config.extract members = .ok c) {o : LoggingOptions}
    (read : loggingGroup.read Config.defaults.logging v = .ok o) :
    Config.extract (insertMember "logging" v members) = .ok { c with logging := o } := by
  have fits : configGroup.Fits "logging" v := ⟨.defaults, _, set_logging read⟩
  obtain ⟨c', set, options⟩ := steady_config.setMembers_insertMember proper given extracted fits
  have registry : c'.registry = c.registry := options registry_option
  have logging : loggingGroup.read Config.defaults.logging v = .ok c'.logging :=
    options logging_option
  have settings : c'.settings = c.settings := options settings_option
  rw [read] at logging
  rw [Config.extract, set, ← registry, Except.ok.inj logging, ← settings]

theorem extract_insertMember_settings (proper : Members.Proper members) (given : v.Proper)
    (extracted : Config.extract members = .ok c) {d : SettingsTable}
    (read : readDict (readDict readText) v = .ok d) :
    Config.extract (insertMember "settings" v members) = .ok { c with settings := d } := by
  have fits : configGroup.Fits "settings" v := ⟨.defaults, _, set_settings read⟩
  obtain ⟨c', set, options⟩ := steady_config.setMembers_insertMember proper given extracted fits
  have registry : c'.registry = c.registry := options registry_option
  have logging : c'.logging = c.logging := options logging_option
  have settings : readDict (readDict readText) v = .ok c'.settings := options settings_option
  rw [read] at settings
  rw [Config.extract, set, ← registry, ← logging, Except.ok.inj settings]

end Member

section Path

variable {u : Option Value} {o : Origin} {name : String} {path : List String} {v : Value}

theorem Takes.getD {read : Value → Extracted β} {x : Option β} {default : β}
    (takes : Takes (fun _ v => (read v).map some) u none x) :
    Takes (fun _ => read) u default (x.getD default) := by
  cases u with
  | none =>
    have absent : x = none := takes
    rw [absent]
    rfl
  | some v =>
    rw [Takes] at takes ⊢
    cases taken : read v with
    | error m =>
      rw [taken] at takes
      cases takes
    | ok y =>
      rw [taken] at takes
      cases takes
      rfl

theorem overlay_scalar (u : Option Value) (o : Origin) (s : Scalar) :
    overlay u (some (.scalar o s)) = some (.scalar o s) := by
  cases u <;> rfl

theorem proper_overlay_nest (proper : ∀ w, u = some w → w.Proper) (given : v.Proper)
    (o : Origin) (path : List String) {w : Value}
    (merged : overlay u (some (nest o path v)) = some w) : w.Proper :=
  Value.proper_of_overlay proper (fun _ e => Option.some.inj e ▸ given.nest o path) w merged

/-- Into a dictionary a path leads by the member of its first name. -/
theorem overlay_nest_of_dict (o o' : Origin) (base : Members) (name : String) (path : List String)
    (v : Value) : ∃ w, overlay (member? base name) (some (nest o path v)) = some w ∧
      overlay (some (.dict o' base)) (some (nest o (name :: path) v)) =
        some (.dict o (insertMember name w base)) := by
  obtain ⟨w, merged, next⟩ := Value.mergeMembers_cons base (name, nest o path v) []
  refine ⟨w, merged, ?_⟩
  rw [nest, overlay, Value.merge, next, Value.mergeMembers]

theorem readDict_overlay {read : Value → Extracted β} {d : Dict β} {b : β}
    (proper : ∀ w, u = some w → w.Proper) (given : v.Proper)
    (base : Takes (fun _ => readDict read) u .empty d)
    (inner : ∀ w, overlay (under u name) (some (nest o path v)) = some w → read w = .ok b) (w : Value)
    (merged : overlay u (some (nest o (name :: path) v)) = some w) :
    readDict read w = .ok (d.insert name b) := by
  rcases u with _ | ⟨o', s⟩ | ⟨o', items⟩ | ⟨o', members⟩
  · have empty : d = .empty := base
    cases merged
    rw [empty]
    exact readDict_insertMember (o := o) .empty (given.nest o path) rfl (inner _ rfl)
  · cases base
  · cases base
  · obtain ⟨w', here, whole⟩ := overlay_nest_of_dict o o' members name path v
    have proper := (proper _ rfl).members
    have given' := proper_overlay_nest (fun _ => proper.member?) given o path here
    rw [merged] at whole
    rw [Option.some.inj whole]
    exact readDict_insertMember proper given' base (inner w' here)

theorem readText_overlay (text : String) (w : Value)
    (merged : overlay u (some (nest o [] (.scalar o (.text text)))) = some w) :
    readText w = .ok text := by
  rw [nest, overlay_scalar] at merged
  cases merged
  rfl

end Path

end Registrar.Extraction
