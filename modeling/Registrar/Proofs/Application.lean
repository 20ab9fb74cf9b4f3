import Registrar.Command
import Registrar.Proofs.Registry.Isolation

/-!
# What the sample application can rely on

Both families of surfaces list their entries in ascending order of labels. Such a family is always
composed, in whatever order its entries are given, and its registry can be read off the list. Of the
surfaces only the one for settings can fail to be built, namely if it is given a theme that is not
known, and it comes last. A check builds every surface twice, under its kind and under its type, so
it finds out whether anything can fail later.
-/

namespace Registrar

/-- The labels of a family ascend. -/
def Entry.Ascending {K F : Type} [Key K] (family : List (Entry K F)) : Prop :=
  family.Pairwise fun a b => Key.label a.key < Key.label b.key

section Families

variable {K F P : Type} [DecidableEq K] [Key K] {make : Furnished F → P} {name : String}
  {family entries : List (Entry K F)} {config : Config} {r : Registry K P}

omit [DecidableEq K] in
theorem Entry.Ascending.labels_nodup (ascending : Entry.Ascending family) :
    (family.map fun e => Key.label e.key).Nodup := by
  apply List.Pairwise.map _ _ ascending
  intro a b less same
  rw [same] at less
  exact String.lt_irrefl _ less

omit [DecidableEq K] in
theorem Entry.Ascending.keys_nodup (ascending : Entry.Ascending family) :
    (family.map (·.key)).Nodup := by
  apply List.Nodup.of_map Key.label
  rw [List.map_map]
  exact ascending.labels_nodup

theorem composed_of_ascending (ascending : Entry.Ascending family) (same : entries.Perm family)
    (valid : ∀ e ∈ family, (e.toBinding make config.settings).Valid) :
    ∃ r, (compose make name entries config).2 = .ok r := by
  have succeeds : (compose make name entries config).2.isOk = true := by
    refine isOk_compose_iff.2 ⟨?_, .inr ?_⟩
    · intro e mem
      exact valid e (same.mem_iff.1 mem)
    · exact (same.map _).nodup_iff.2 ascending.keys_nodup
  cases result : (compose make name entries config).2 with
  | error fault => rw [result] at succeeds; cases succeeds
  | ok r => exact ⟨r, rfl⟩

variable (composed : (compose make name entries config).2 = .ok r) (same : entries.Perm family)
  (ascending : Entry.Ascending family)

include composed same ascending

theorem entries_perm_of_ascending : r.bindings.entries.Perm
    (family.map fun e => (e.key, e.toBinding make config.settings)) := by
  have distinct : (entries.map (·.key)).Nodup :=
    (same.map _).nodup_iff.2 ascending.keys_nodup
  exact (entries_perm_of_compose composed distinct).trans (same.map _)

theorem values_perm_of_ascending :
    r.bindings.values.Perm (family.map (·.toBinding make config.settings)) := by
  have kept := (entries_perm_of_ascending composed same ascending).map Prod.snd
  rwa [List.map_map] at kept

theorem binding_of_mem {e : Entry K F} (mem : e ∈ family) :
    r.binding e.key = .ok (e.toBinding make config.settings) := by
  have kept := entries_perm_of_ascending composed same ascending
  have found : r.bindings.find? e.key = some (e.toBinding make config.settings) :=
    Table.mem_entries_iff.1 (kept.mem_iff.2 (List.mem_map_of_mem mem))
  rw [Registry.binding, found]

/-- A further key that exactly one entry lists, and lists once, leads to the key of that entry. -/
theorem binding_of_listed {k owner : K} (unbound : k ∉ family.map (·.key))
    (once : (family.flatMap fun e => List.replicate (e.aliases.count k) e.key) = [owner]) :
    r.binding k = r.binding owner := by
  have consistent := Registry.consistent_of_compose composed
  have kept := values_perm_of_ascending composed same ascending
  have absent : k ∉ r.keys := by
    have keys := (entries_perm_of_ascending composed same ascending).map Prod.fst
    rw [List.map_map] at keys
    exact fun bound => unbound (keys.mem_iff.1 bound)
  have listed : (r.owners k).Perm [owner] := by
    have built : r = .ofBindings r.bindings := by
      rw [eq_ofSteps_of_compose composed]
      rfl
    rw [← once, built, Registry.owners_ofBindings, Registry.listings, List.map_flatMap]
    refine ((kept.flatMap_right _).trans ?_)
    rw [List.flatMap_map]
    simp [Entry.aliases_toBinding]
  obtain ⟨b, found, -, served⟩ :=
    consistent.binding_of_single absent (List.perm_singleton.1 listed)
  have direct : r.binding owner = .ok b := by rw [Registry.binding, found]
  rw [served, direct]

theorem sortedBindings_of_ascending :
    r.sortedBindings = family.map (·.toBinding make config.settings) := by
  have kept := values_perm_of_ascending composed same ascending
  have labels : (family.map (·.toBinding make config.settings)).Pairwise fun a b =>
      Key.label a.key < Key.label b.key := List.pairwise_map.2 ascending
  have ordered : Text.sortBy (fun b => Key.label b.key)
      (family.map (·.toBinding make config.settings)) = _ :=
    List.mergeSort_of_pairwise
      (labels.imp fun less => Text.atMost_iff.2 (String.not_lt.1 (String.lt_asymm less)))
  rw [Registry.sortedBindings, ← ordered]
  have distinct : ((family.map (·.toBinding make config.settings)).map
      fun b => Key.label b.key).Nodup := by
    rw [List.map_map]
    exact ascending.labels_nodup
  apply Text.sortBy_eq_of_perm _ kept
  intro a ha b hb sameLabel
  exact List.inj_on_of_nodup_map distinct (kept.mem_iff.1 ha) (kept.mem_iff.1 hb) sameLabel

end Families

namespace Sink

variable {out : Sink} (unbounded : out.capacity = none)

include unbounded

theorem writeLine_of_unbounded (line : String) :
    out.writeLine line = .ok { out with written := out.written ++ (line ++ "\n") } := by
  simp [writeLine, write, fits, unbounded]

theorem writeLines_of_unbounded (lines : List String) :
    ∃ out', out.writeLines lines = .ok out' := by
  induction lines generalizing out with
  | nil => exact ⟨out, rfl⟩
  | cons line rest ih =>
    rw [writeLines, List.foldlM_cons, writeLine_of_unbounded unbounded]
    exact ih unbounded

end Sink

namespace Application

section Checks

variable {K : Type} [DecidableEq K] [Key K] {r : Registry K Surface.Maker} {what : String}

theorem buildAll_of_made {bindings : List (Binding K Surface.Maker)}
    (made : ∀ b ∈ bindings, ∃ s, r.create Surface.provide b.key = .ok s) :
    buildAll what r bindings = .ok bindings.length := by
  induction bindings with
  | nil => rfl
  | cons b rest ih =>
    rw [List.forall_mem_cons] at made
    obtain ⟨⟨s, first⟩, others⟩ := made
    rw [buildAll, first, ih others]
    rfl

/-- The first failure ends the building, and tells which binding it was. -/
theorem buildAll_of_failed {before after : List (Binding K Surface.Maker)}
    {b : Binding K Surface.Maker} {fault : Fault}
    (made : ∀ b ∈ before, ∃ s, r.create Surface.provide b.key = .ok s)
    (failed : r.create Surface.provide b.key = .error fault) :
    buildAll what r (before ++ b :: after) =
      .error (.during (what ++ " '" ++ Key.name b.key ++ "' failed to build") fault) := by
  induction before with
  | nil =>
    rw [List.nil_append, buildAll, failed]
    rfl
  | cons a rest ih =>
    rw [List.forall_mem_cons] at made
    obtain ⟨⟨s, first⟩, others⟩ := made
    rw [List.cons_append, buildAll, first, ih others]
    rfl

end Checks

end Application

namespace Surface

/-- The theme that the table of settings under a label gives, if it gives one. -/
def themeGiven (settings : SettingsTable) (label : String) : Option String :=
  (settings.find? label).bind (·.find? "theme")

/-- No theme is given under the label, or one of those that are known. -/
def ThemeFits (settings : SettingsTable) (label : String) : Prop :=
  ∀ theme, themeGiven settings label = some theme → theme ∈ ["light", "dark", "system"]

def unknownTheme (theme : String) : Fault :=
  .invalidArgument ("Unknown theme '" ++ theme ++ "'. Available themes: light, dark, system")

theorem setting_theme (settings : SettingsTable) (label : String) :
    (Context.ofLabel label settings).setting "theme" = themeGiven settings label := by
  rw [Context.setting, Context.ofLabel, themeGiven]
  cases settings.find? label <;> rfl

theorem furnish_of_fits {kind : SurfaceKind} {settings : SettingsTable} {label : String}
    (fits : kind = .settings → ThemeFits settings label) :
    ∃ s, furnish kind (.ofLabel label settings) = .ok s := by
  cases kind with
  | home => exact ⟨_, rfl⟩
  | about => exact ⟨_, rfl⟩
  | settings =>
    rw [furnish, Context.settingOr, setting_theme, chooseTheme]
    cases given : themeGiven settings label with
    | none => exact ⟨_, rfl⟩
    | some theme => exact ⟨_, if_pos (fits rfl theme given)⟩

theorem chooseTheme_of_unknown {theme : String} (unknown : theme ∉ themes) :
    chooseTheme theme = .error (unknownTheme theme) := by
  have listed : "'. Available themes: " ++ ", ".intercalate themes =
      "'. Available themes: light, dark, system" := by cbv
  rw [chooseTheme, if_neg unknown, String.append_assoc, listed]
  rfl

theorem furnish_of_unfit {settings : SettingsTable} {label : String}
    (unfit : ¬ ThemeFits settings label) : ∃ theme, themeGiven settings label = some theme ∧
      furnish .settings (.ofLabel label settings) = .error (unknownTheme theme) := by
  simp only [ThemeFits, not_forall] at unfit
  obtain ⟨theme, given, unknown⟩ := unfit
  refine ⟨theme, given, ?_⟩
  rw [furnish, Context.settingOr, setting_theme, given]
  exact chooseTheme_of_unknown unknown

end Surface

section SurfaceFamilies

variable {K : Type} [DecidableEq K] [Key K] {name : String}
  {family entries : List (Entry K SurfaceKind)} {config : Config} {r : Registry K Surface.Maker}
  (composed : (compose id name entries config).2 = .ok r) (same : entries.Perm family)
  (ascending : Entry.Ascending family)

include composed same ascending

theorem create_of_mem {e : Entry K SurfaceKind} (mem : e ∈ family) :
    r.create Surface.provide e.key =
      (Surface.furnish e.factory (.ofLabel (Key.label e.key) config.settings)).mapError
        (.provider (Key.label e.key)) := by
  rw [Registry.create, binding_of_mem composed same ascending mem]
  rfl

theorem made_of_fits {e : Entry K SurfaceKind} (mem : e ∈ family)
    (fits : e.factory = .settings → Surface.ThemeFits config.settings (Key.label e.key)) :
    ∃ s, Surface.furnish e.factory (.ofLabel (Key.label e.key) config.settings) = .ok s ∧
      r.create Surface.provide e.key = .ok s := by
  obtain ⟨s, made⟩ := Surface.furnish_of_fits fits
  refine ⟨s, made, ?_⟩
  rw [create_of_mem composed same ascending mem, made]
  rfl

theorem buildAll_of_fits (what : String) (fits : ∀ e ∈ family, e.factory = .settings →
      Surface.ThemeFits config.settings (Key.label e.key)) :
    Application.buildAll what r r.sortedBindings = .ok family.length := by
  rw [sortedBindings_of_ascending composed same ascending, Application.buildAll_of_made,
    List.length_map]
  intro b mem
  obtain ⟨e, given, rfl⟩ := List.mem_map.1 mem
  obtain ⟨s, -, made⟩ := made_of_fits composed same ascending given (fits e given)
  exact ⟨s, made⟩

/-- Before the first surface for settings nothing can fail. -/
theorem buildAll_of_unfit (what : String) {before after : List (Entry K SurfaceKind)}
    {e : Entry K SurfaceKind} (split : family = before ++ e :: after)
    (others : ∀ a ∈ before, a.factory ≠ .settings)
    (last : e.factory = .settings)
    (unfit : ¬ Surface.ThemeFits config.settings (Key.label e.key)) :
    ∃ theme, Surface.themeGiven config.settings (Key.label e.key) = some theme ∧
      Application.buildAll what r r.sortedBindings =
        .error (.during (what ++ " '" ++ Key.name e.key ++ "' failed to build")
          (.provider (Key.label e.key) (Surface.unknownTheme theme))) := by
  obtain ⟨theme, given, unknown⟩ := Surface.furnish_of_unfit unfit
  have mem : e ∈ family := by simp [split]
  have failed : r.create Surface.provide e.key =
      .error (.provider (Key.label e.key) (Surface.unknownTheme theme)) := by
    rw [create_of_mem composed same ascending mem, last, unknown]
    rfl
  refine ⟨theme, given, ?_⟩
  rw [sortedBindings_of_ascending composed same ascending, split, List.map_append, List.map_cons]
  apply Application.buildAll_of_failed _ failed
  intro b mem
  obtain ⟨a, earlier, rfl⟩ := List.mem_map.1 mem
  have given : a ∈ family := by simp [split, earlier]
  obtain ⟨s, -, made⟩ := made_of_fits composed same ascending given
    fun settings => absurd settings (others a earlier)
  exact ⟨s, made⟩

end SurfaceFamilies

namespace Surface

theorem mem_kindEntries (kind : SurfaceKind) : kindEntry kind ∈ kindEntries := by
  cases kind <;> simp [kindEntries]

theorem ascending_kindEntries : Entry.Ascending kindEntries := by
  rw [Entry.Ascending]
  decide

theorem ascending_typeEntries : Entry.Ascending typeEntries := by
  rw [Entry.Ascending]
  decide

theorem valid_kindEntries (settings : SettingsTable) :
    ∀ e ∈ kindEntries, (e.toBinding (P := Maker) id settings).Valid := by
  simp [kindEntries, kindEntry, Binding.Valid, Entry.aliases_toBinding, Key.objection]

theorem valid_typeEntries (settings : SettingsTable) :
    ∀ e ∈ typeEntries, (e.toBinding (P := Maker) id settings).Valid := by
  have other : interfaceType ≠ homeType := by decide
  simp [typeEntries, Binding.Valid, Entry.aliases_toBinding, Key.objection, other]

variable {settings : SettingsTable}

theorem fits_kindEntries (fits : ThemeFits settings "settings") :
    ∀ e ∈ kindEntries, e.factory = .settings → ThemeFits settings (Key.label e.key) := by
  have label : ∀ e ∈ kindEntries, e.factory = .settings → Key.label e.key = "settings" := by decide
  intro e mem last
  rwa [label e mem last]

theorem fits_typeEntries (fits : ThemeFits settings settingsType.full) :
    ∀ e ∈ typeEntries, e.factory = .settings → ThemeFits settings (Key.label e.key) := by
  have label : ∀ e ∈ typeEntries, e.factory = .settings → Key.label e.key = settingsType.full := by
    decide
  intro e mem last
  rwa [label e mem last]

/-- What an entry is filed under is the type of what it makes. -/
theorem typeOf_of_furnish {e : Entry TypeKey SurfaceKind} (mem : e ∈ typeEntries) {c : Context}
    {s : Surface} (made : furnish e.factory c = .ok s) : HasType.typeOf s = e.key := by
  simp only [typeEntries, List.mem_cons, List.not_mem_nil, or_false] at mem
  rcases mem with rfl | rfl | rfl
  · cases made
    rfl
  · cases made
    rfl
  · rw [furnish, chooseTheme] at made
    split at made
    · cases made
      rfl
    · cases made

end Surface

namespace Application

variable {kinds : List (Entry SurfaceKind SurfaceKind)} {types : List (Entry TypeKey SurfaceKind)}
  {config : Config} {a : Application}

/-- Both registries hold all entries of their families. -/
structure Composed (a : Application) (kinds : List (Entry SurfaceKind SurfaceKind))
    (types : List (Entry TypeKey SurfaceKind)) : Prop where
  surfaces : (Registrar.compose id "surfaces" kinds a.config).2 = .ok a.surfaces
  surfaceTypes : (Registrar.compose id "surface_types" types a.config).2 = .ok a.surfaceTypes
  kinds : kinds.Perm Surface.kindEntries
  types : types.Perm Surface.typeEntries

theorem exists_composed (config : Config) (sameKinds : kinds.Perm Surface.kindEntries)
    (sameTypes : types.Perm Surface.typeEntries) :
    ∃ a, (compose kinds types config).2 = .ok a ∧ a.config = config ∧ a.Composed kinds types := by
  obtain ⟨surfaces, composed⟩ :
      ∃ r, (Registrar.compose id "surfaces" kinds config).2 = .ok r :=
    composed_of_ascending Surface.ascending_kindEntries sameKinds
      (Surface.valid_kindEntries config.settings)
  obtain ⟨surfaceTypes, composed'⟩ :
      ∃ r, (Registrar.compose id "surface_types" types config).2 = .ok r :=
    composed_of_ascending Surface.ascending_typeEntries sameTypes
      (Surface.valid_typeEntries config.settings)
  have passed : (composeClosed id "surfaces" kinds config).2 = .ok surfaces := by
    apply composeCovering_of_served composed
    intro kind _
    exact Registry.serves_eq_true_iff.2
      ⟨_, binding_of_mem composed sameKinds Surface.ascending_kindEntries (Surface.mem_kindEntries kind)⟩
  refine ⟨⟨config, surfaces, surfaceTypes⟩, ?_, rfl, composed, composed', sameKinds, sameTypes⟩
  unfold compose
  split
  · next failed =>
    rw [failed] at passed
    cases passed
  · next found =>
    rw [found] at passed
    cases passed
    split
    · next failed =>
      rw [failed] at composed'
      cases composed'
    · next found' =>
      rw [found'] at composed'
      cases composed'
      rfl

theorem showSurface_of_made {kind : SurfaceKind} {s : Surface} (made : a.surface kind = .ok s)
    (out : Sink) : a.showSurface kind out = out.writeLines [s.title, s.render] := by
  rw [showSurface, made]
  rfl

namespace Composed

variable (composed : a.Composed kinds types)

include composed

theorem ensureComplete : a.surfaces.ensureComplete = .ok () := by
  apply Registry.ensureCovers_eq_ok
  rw [Registry.unserved_eq_nil_iff]
  intro kind _
  exact Registry.serves_eq_true_iff.2 ⟨_, binding_of_mem composed.surfaces composed.kinds
    Surface.ascending_kindEntries (Surface.mem_kindEntries kind)⟩

/-- What building all surfaces of both registries comes to, whatever is done with the number. -/
theorem check_eq (out : Sink) : a.check out = (do
    let kinds ← buildAll "Surface" a.surfaces a.surfaces.sortedBindings
    let types ← buildAll "Surface type" a.surfaceTypes a.surfaceTypes.sortedBindings
    out.writeLine ("ok: " ++ toString (kinds + types) ++ " bindings built")) := by
  rw [check, composed.ensureComplete]
  rfl

theorem buildAll_kinds (fits : Surface.ThemeFits a.config.settings "settings") :
    buildAll "Surface" a.surfaces a.surfaces.sortedBindings = .ok 3 :=
  buildAll_of_fits composed.surfaces composed.kinds Surface.ascending_kindEntries "Surface"
    (Surface.fits_kindEntries fits)

theorem buildAll_types (fits : Surface.ThemeFits a.config.settings Surface.settingsType.full) :
    buildAll "Surface type" a.surfaceTypes a.surfaceTypes.sortedBindings = .ok 3 :=
  buildAll_of_fits composed.surfaceTypes composed.types Surface.ascending_typeEntries "Surface type"
    (Surface.fits_typeEntries fits)

theorem check_of_fits (fits : Surface.ThemeFits a.config.settings "settings")
    (fits' : Surface.ThemeFits a.config.settings Surface.settingsType.full) (out : Sink) :
    a.check out = out.writeLine "ok: 6 bindings built" := by
  rw [composed.check_eq, composed.buildAll_kinds fits, composed.buildAll_types fits']
  rfl

theorem check_of_unfit_kind (unfit : ¬ Surface.ThemeFits a.config.settings "settings") :
    ∃ theme, Surface.themeGiven a.config.settings "settings" = some theme ∧
      ∀ out, a.check out = .error (.during "Surface 'settings' failed to build"
        (.provider "settings" (Surface.unknownTheme theme))) := by
  have split : Surface.kindEntries =
      [Surface.kindEntry .about, Surface.kindEntry .home] ++ [Surface.kindEntry .settings] := rfl
  obtain ⟨theme, given, failed⟩ := buildAll_of_unfit composed.surfaces composed.kinds
    Surface.ascending_kindEntries "Surface" split (by decide) rfl unfit
  refine ⟨theme, given, ?_⟩
  intro out
  rw [composed.check_eq, failed]
  rfl

theorem check_of_unfit_type (fits : Surface.ThemeFits a.config.settings "settings")
    (unfit : ¬ Surface.ThemeFits a.config.settings Surface.settingsType.full) :
    ∃ theme, Surface.themeGiven a.config.settings Surface.settingsType.full = some theme ∧
      ∀ out, a.check out = .error (.during "Surface type 'SettingsSurface' failed to build"
        (.provider Surface.settingsType.full (Surface.unknownTheme theme))) := by
  have split : Surface.typeEntries = Surface.typeEntries.take 2 ++
      [⟨Surface.settingsType, [], Surface.describe .settings, .settings⟩] := rfl
  have told : "Surface type" ++ " '" ++ Key.name Surface.settingsType ++ "' failed to build" =
      "Surface type 'SettingsSurface' failed to build" := by cbv
  obtain ⟨theme, given, failed⟩ := buildAll_of_unfit composed.surfaceTypes composed.types
    Surface.ascending_typeEntries "Surface type" split (by decide) rfl unfit
  refine ⟨theme, given, ?_⟩
  intro out
  rw [composed.check_eq, composed.buildAll_kinds fits, failed, told]
  rfl

theorem surface_of_fits (fits : Surface.ThemeFits a.config.settings "settings")
    (kind : SurfaceKind) : ∃ s, a.surface kind = .ok s := by
  have mem := Surface.mem_kindEntries kind
  obtain ⟨s, -, made⟩ := made_of_fits composed.surfaces composed.kinds
    Surface.ascending_kindEntries mem (Surface.fits_kindEntries fits _ mem)
  exact ⟨s, made⟩

theorem surfaceAs_of_fits (fits : Surface.ThemeFits a.config.settings Surface.settingsType.full)
    {e : Entry TypeKey SurfaceKind} (mem : e ∈ Surface.typeEntries) :
    ∃ s, a.surfaceOf e.key = .ok s ∧ a.surfaceAs e.key = .ok s ∧ HasType.typeOf s = e.key := by
  obtain ⟨s, furnished, made⟩ := made_of_fits composed.surfaceTypes composed.types
    Surface.ascending_typeEntries mem (Surface.fits_typeEntries fits e mem)
  have type := Surface.typeOf_of_furnish mem furnished
  refine ⟨s, made, ?_, type⟩
  rw [surfaceAs, surfaceOf, made]
  exact if_pos type

theorem defaultSurface_eq : a.defaultSurface = a.surfaceOf Surface.homeType := by
  have served : a.surfaceTypes.binding Surface.interfaceType =
      a.surfaceTypes.binding Surface.homeType :=
    binding_of_listed composed.surfaceTypes composed.types Surface.ascending_typeEntries
      (by decide) (by decide)
  rw [defaultSurface, surfaceOf, surfaceOf, Registry.create, Registry.create, served]

end Composed

/-- What the sample application can rely on. Whatever the configuration, and in whatever order the
entries of its families are given, it is composed. If no theme is at fault a check writes one line;
otherwise it fails whatever it is to write to, be it to something that takes nothing, and names the
first binding that is at fault. After a check that succeeded every surface can be shown, every type
of surfaces can be asked for, and the surface for the family as a whole is the home surface. -/
theorem check_decides_surfaces (config : Config) (sameKinds : kinds.Perm Surface.kindEntries)
    (sameTypes : types.Perm Surface.typeEntries) :
    ∃ a, (compose kinds types config).2 = .ok a ∧ a.config = config ∧
      let fitsKind := Surface.ThemeFits config.settings "settings"
      let fitsType := Surface.ThemeFits config.settings Surface.settingsType.full
      (fitsKind → fitsType → ∀ out, a.check out = out.writeLine "ok: 6 bindings built") ∧
      (¬ fitsKind → ∃ theme, Surface.themeGiven config.settings "settings" = some theme ∧
        ∀ out, a.check out = .error (.during "Surface 'settings' failed to build"
          (.provider "settings" (Surface.unknownTheme theme)))) ∧
      (fitsKind → ¬ fitsType →
        ∃ theme, Surface.themeGiven config.settings Surface.settingsType.full = some theme ∧
          ∀ out, a.check out = .error (.during "Surface type 'SettingsSurface' failed to build"
            (.provider Surface.settingsType.full (Surface.unknownTheme theme)))) ∧
      (∀ out, out.capacity = none → ((∃ out', a.check out = .ok out') ↔ fitsKind ∧ fitsType)) ∧
      ((∃ out out', a.check out = .ok out') →
        (∀ kind, ∃ s, a.surface kind = .ok s ∧
          ∀ out, a.showSurface kind out = out.writeLines [s.title, s.render] ∧
            (out.capacity = none → ∃ out', a.showSurface kind out = .ok out')) ∧
        (∀ type ∈ [Surface.homeType, Surface.settingsType, Surface.aboutType],
          ∃ s, a.surfaceAs type = .ok s ∧ HasType.typeOf s = type) ∧
        ∃ s, a.defaultSurface = .ok s ∧ a.surfaceAs Surface.homeType = .ok s) := by
  obtain ⟨a, made, rfl, composed⟩ := exists_composed config sameKinds sameTypes
  -- both faults are found by every check, so a check that succeeded rules them out
  have fits_of_check {out out' : Sink} (passed : a.check out = .ok out') :
      Surface.ThemeFits a.config.settings "settings" ∧
        Surface.ThemeFits a.config.settings Surface.settingsType.full := by
    by_cases fits : Surface.ThemeFits a.config.settings "settings"
    · refine ⟨fits, ?_⟩
      by_contra unfit
      obtain ⟨theme, -, failed⟩ := composed.check_of_unfit_type fits unfit
      rw [failed] at passed
      cases passed
    · obtain ⟨theme, -, failed⟩ := composed.check_of_unfit_kind fits
      rw [failed] at passed
      cases passed
  refine ⟨a, made, rfl, composed.check_of_fits, composed.check_of_unfit_kind,
    composed.check_of_unfit_type, ?_, ?_⟩
  · intro out unbounded
    constructor
    · rintro ⟨out', passed⟩
      exact fits_of_check passed
    · rintro ⟨fits, fits'⟩
      rw [composed.check_of_fits fits fits']
      exact ⟨_, Sink.writeLine_of_unbounded unbounded _⟩
  · rintro ⟨out, out', passed⟩
    obtain ⟨fits, fits'⟩ := fits_of_check passed
    refine ⟨?_, ?_, ?_⟩
    · intro kind
      obtain ⟨s, found⟩ := composed.surface_of_fits fits kind
      refine ⟨s, found, fun out => ⟨showSurface_of_made found out, fun unbounded => ?_⟩⟩
      rw [showSurface_of_made found]
      exact Sink.writeLines_of_unbounded unbounded _
    · intro type asked
      have listed : ∀ t ∈ [Surface.homeType, Surface.settingsType, Surface.aboutType],
          ∃ e ∈ Surface.typeEntries, e.key = t := by decide
      obtain ⟨e, mem, rfl⟩ := listed type asked
      obtain ⟨s, -, narrowed, same⟩ := composed.surfaceAs_of_fits fits' mem
      exact ⟨s, narrowed, same⟩
    · have home : (⟨Surface.homeType, [Surface.interfaceType], Surface.describe .home, .home⟩ :
          Entry TypeKey SurfaceKind) ∈ Surface.typeEntries := by simp [Surface.typeEntries]
      obtain ⟨s, found, narrowed, -⟩ := composed.surfaceAs_of_fits fits' home
      exact ⟨s, composed.defaultSurface_eq.trans found, narrowed⟩

/-- Settings that give a theme to each of the two settings surfaces. -/
def themed (kindTheme typeTheme : String) : Config :=
  { Config.defaults with
    registry := ⟨.replace, false⟩
    settings := .ofList [("settings", .ofList [("theme", kindTheme)]),
      (Surface.settingsType.full, .ofList [("theme", typeTheme)])] }

/-- Entries in the opposite order, and a theme that is not known for the type alone. -/
theorem check_of_unknown_theme :
    Surface.kindEntries.reverse.Perm Surface.kindEntries ∧
    Surface.typeEntries.reverse.Perm Surface.typeEntries ∧
    ∃ a, (compose Surface.kindEntries.reverse Surface.typeEntries.reverse
        (themed "dark" "neon")).2 = .ok a ∧
      ∀ out, a.check out = .error (.during "Surface type 'SettingsSurface' failed to build"
        (.provider "mapkey::surfaces::settings::SettingsSurface" (.invalidArgument
          "Unknown theme 'neon'. Available themes: light, dark, system"))) := by
  have sameKinds : Surface.kindEntries.reverse.Perm Surface.kindEntries := List.reverse_perm _
  have sameTypes : Surface.typeEntries.reverse.Perm Surface.typeEntries := List.reverse_perm _
  refine ⟨sameKinds, sameTypes, ?_⟩
  obtain ⟨a, made, -, -, -, failed, -⟩ :=
    check_decides_surfaces (themed "dark" "neon") sameKinds sameTypes
  have given : Surface.themeGiven (themed "dark" "neon").settings "settings" = some "dark" := by cbv
  have given' : Surface.themeGiven (themed "dark" "neon").settings Surface.settingsType.full =
      some "neon" := by cbv
  have fits : Surface.ThemeFits (themed "dark" "neon").settings "settings" := by
    simp [Surface.ThemeFits, given]
  have unfit : ¬ Surface.ThemeFits (themed "dark" "neon").settings Surface.settingsType.full := by
    simp [Surface.ThemeFits, given']
  obtain ⟨theme, found, message⟩ := failed fits unfit
  rw [given'] at found
  cases found
  exact ⟨a, made, message⟩

end Application
end Registrar
