import Registrar.Config.Extraction
import Registrar.Proofs.Document.Build

/-!
# From the values back to the configuration

The members of a written configuration come in the order of their names. Read one after the other
over the defaults, they give the configuration back, whatever the defaults are, except that an
absent output file has to be absent there too.
-/

namespace Registrar

theorem Policy.ofName?_name (p : Policy) : Policy.ofName? p.name = some p := by
  cases p <;> decide

namespace Extraction

variable {β : Type}

/-- Entries that ascend are all inserted, each of them at the end. -/
theorem foldlM_insert {read : Value → Extracted β} {value : β → Value}
    (entries : List (String × β)) (reads : ∀ e ∈ entries, read (value e.2) = .ok e.2)
    (d whole : Dict β) (parts : d.entries ++ entries = whole.entries) :
    (entries.map fun e => (e.1, value e.2)).foldlM
      (fun d (name, inner) => do return d.insert name (← inside name (read inner))) d =
        .ok whole := by
  induction entries generalizing d with
  | nil =>
    rw [List.append_nil] at parts
    rw [Dict.eq_of_entries_eq parts]
    rfl
  | cons e entries ih =>
    have greater : ∀ x ∈ d.entries.map Prod.fst, x < e.1 := by
      have ascending := whole.ascending
      rw [← parts, List.map_append, List.pairwise_append] at ascending
      exact fun x mem => ascending.2.2 x mem e.1 (by simp)
    have inserted : (d.insert e.1 e.2).entries = d.entries ++ [e] := Dict.put_of_greater greater
    have later := ih (fun x mem => reads x (List.mem_cons_of_mem e mem)) (d.insert e.1 e.2)
      (by rw [inserted, ← parts, List.append_assoc, List.singleton_append])
    rw [List.map_cons, List.foldlM_cons]
    dsimp only
    rw [reads e List.mem_cons_self]
    exact later

theorem readDict_map (read : Value → Extracted β) (value : β → Value) (d : Dict β)
    (reads : ∀ e ∈ d.entries, read (value e.2) = .ok e.2) :
    readDict read (.dict .document (d.entries.map fun e => (e.1, value e.2))) = .ok d :=
  foldlM_insert d.entries reads .empty d rfl

theorem readDict_scalars (settings : Dict String) :
    readDict readText (Document.scalars (Document.settingsEntries settings)) = .ok settings := by
  have texts : readDict readText (.dict .document
      (settings.entries.map fun e => (e.1, .scalar .document (.text e.2)))) = .ok settings :=
    readDict_map readText (fun s => .scalar .document (.text s)) settings fun _ _ => rfl
  simpa [Document.scalars, Document.settingsEntries, Function.comp_def] using texts

theorem setMembers_cons {α : Type} {g : Group α} {name : String} {v : Value} {options next : α}
    (fits : g.set name v options = .ok next) (rest : Value.Members) :
    g.setMembers options ((name, v) :: rest) = g.setMembers next rest := by
  rw [Group.setMembers, fits]
  rfl

theorem read_registry (options o : RegistryOptions) :
    registryGroup.read options (Document.scalars (Document.registryEntries o)) = .ok o := by
  have policy : registryGroup.set "duplicate_policy"
      (.scalar .document (.text o.duplicatePolicy.name)) options =
        .ok { options with duplicatePolicy := o.duplicatePolicy } := by
    simp [registryGroup, readPolicy, policyNamed, Policy.ofName?_name]
  exact setMembers_cons policy _

theorem read_logging (options o : LoggingOptions) (unset : options.fileOutput = none) :
    loggingGroup.read options (Document.scalars (Document.loggingByName o)) = .ok o := by
  have limit : ∀ options, loggingGroup.set "max_files"
      (.scalar .document (.signed o.maxFiles.toNat)) options =
        .ok { options with maxFiles := o.maxFiles } := by
    intro options
    simp [loggingGroup, readCount]
  have others : ∀ options, options.fileOutput = o.fileOutput → loggingGroup.setMembers options
      [("json_format", .scalar .document (.truth o.jsonFormat)),
        ("level", .scalar .document (.text o.level)),
        ("max_files", .scalar .document (.signed o.maxFiles.toNat))] = .ok o := by
    intro options same
    have last := setMembers_cons
      (limit { options with jsonFormat := o.jsonFormat, level := o.level }) []
    refine Eq.trans last ?_
    rw [same]
    rfl
  unfold Document.loggingByName
  cases output : o.fileOutput with
  | none => exact others options (by rw [unset, output])
  | some path => exact others { options with fileOutput := some path } (Eq.symm output)

theorem set_logging {c : Config} {v : Value} {o : LoggingOptions}
    (read : loggingGroup.read c.logging v = .ok o) :
    configGroup.set "logging" v c = .ok { c with logging := o } := by
  simp only [configGroup, read]
  rfl

theorem set_registry {c : Config} {v : Value} {o : RegistryOptions}
    (read : registryGroup.read c.registry v = .ok o) :
    configGroup.set "registry" v c = .ok { c with registry := o } := by
  simp only [configGroup, read]
  rfl

theorem set_settings {c : Config} {v : Value} {settings : SettingsTable}
    (read : readDict (readDict readText) v = .ok settings) :
    configGroup.set "settings" v c = .ok { c with settings := settings } := by
  simp only [configGroup, read]
  rfl

end Extraction

theorem Config.extract_members (c : Config) : Config.extract (Document.members c) = .ok c := by
  have logging := Extraction.set_logging
    (Extraction.read_logging defaults.logging c.logging rfl)
  have registry := Extraction.set_registry (c := { defaults with logging := c.logging })
    (Extraction.read_registry defaults.registry c.registry)
  have settings := Extraction.set_settings
    (c := { defaults with registry := c.registry, logging := c.logging })
    (Extraction.readDict_map _ (fun d => Document.scalars (Document.settingsEntries d)) c.settings
      fun e _ => Extraction.readDict_scalars e.2)
  rw [extract, Document.members, Extraction.setMembers_cons logging,
    Extraction.setMembers_cons registry, Extraction.setMembers_cons settings]
  rfl

end Registrar
