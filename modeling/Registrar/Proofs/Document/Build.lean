import Registrar.Proofs.Dict
import Registrar.Proofs.Document.Lines
import Registrar.Proofs.Table

/-!
# The document that the statements build

Building goes from statement to statement, each of which changes one table in the tree. `Leads`
says which table a path leads to and how the tree looks when that table changes; the header of a
new table gives such a path, and the entries below it are put at its end one after the other.

A written configuration has every table once and every entry of a table once, so the building never
fails.
-/

namespace Registrar.Document

namespace Node

theorem lookup_append_self {name : String} {members : Members}
    (absent : name ∉ members.map Prod.fst) (node : Node) :
    (members ++ [(name, node)]).lookup name = some node := by
  rw [List.lookup_append, Pairs.lookup_eq_none absent]
  simp

theorem replace_append_self {name : String} {members : Members}
    (absent : name ∉ members.map Prod.fst) (node node' : Node) :
    replace name node' (members ++ [(name, node)]) = members ++ [(name, node')] := by
  induction members with
  | nil => simp [replace]
  | cons e members ih =>
    rw [List.map_cons, List.mem_cons, not_or] at absent
    rw [List.cons_append, replace, if_neg (fun same => absent.1 (Eq.symm same)), ih absent.2]
    rfl

end Node

theorem updateAt_append (f : Node.Members → Option Node.Members) (p q : List String)
    (members : Node.Members) :
    updateAt f (p ++ q) members = updateAt (updateAt f q) p members := by
  induction p generalizing members with
  | nil => rfl
  | cons part p ih =>
    rw [List.cons_append, updateAt, updateAt]
    simp only [ih]

/-- The path leads to the table `inner`, and `place` puts another table there. -/
def Leads (path : List String) (root inner : Node.Members)
    (place : Node.Members → Node.Members) : Prop :=
  ∀ f, updateAt f path root = (f inner).map place

namespace Leads

variable {path : List String} {root inner : Node.Members} {place : Node.Members → Node.Members}

theorem here (root : Node.Members) : Leads [] root root id := by
  intro f
  rw [updateAt, Option.map_id, id]

theorem missing {name : String} (absent : name ∉ root.map Prod.fst) :
    Leads [name] root [] fun members => root ++ [(name, .table .implicit members)] := by
  intro f
  rw [updateAt, Pairs.lookup_eq_none absent]
  simp only [updateAt]
  cases f [] <;> rfl

theorem last {name : String} (absent : name ∉ root.map Prod.fst) (kind : TableKind)
    (inner : Node.Members) : Leads [name] (root ++ [(name, .table kind inner)]) inner
      fun members => root ++ [(name, .table kind members)] := by
  intro f
  rw [updateAt, Node.lookup_append_self absent]
  simp only [updateAt, Node.replace_append_self absent]
  cases f inner <;> rfl

theorem append {more : List String} {target : Node.Members}
    {place' : Node.Members → Node.Members} (h : Leads path root inner place)
    (h' : Leads more inner target place') : Leads (path ++ more) root target (place ∘ place') := by
  intro f
  rw [updateAt_append, h, h', Option.map_map]

end Leads

/-- The table of some scalars, as its header opens it. -/
def tableNode (entries : List (String × Scalar)) : Node :=
  .table .explicit (entries.map fun e => (e.1, .value (.scalar .document e.2)))

theorem foldlM_assign {path : List String} {place : Node.Members → Node.Members}
    (leads : ∀ members, Leads path (place members) members place)
    (entries : List (String × Scalar)) (inner : Node.Members)
    (distinct : (inner.map Prod.fst ++ entries.map Prod.fst).Nodup) :
    (entries.map fun e => Statement.assign [e.1] (.scalar .document e.2)).foldlM Draft.apply
        ⟨path, place inner⟩ =
      some ⟨path, place (inner ++ entries.map fun e => (e.1, .value (.scalar .document e.2)))⟩ := by
  induction entries generalizing inner with
  | nil => simp
  | cons e entries ih =>
    have absent : e.1 ∉ inner.map Prod.fst := by
      intro mem
      have apart := (List.nodup_append.1 distinct).2.2 e.1 mem e.1 (by simp)
      exact apart rfl
    have applied : Draft.apply ⟨path, place inner⟩ (.assign [e.1] (.scalar .document e.2)) =
        some ⟨path, place (inner ++ [(e.1, .value (.scalar .document e.2))])⟩ := by
      simp [Draft.apply, leads inner _, Node.assign, Pairs.lookup_eq_none absent]
    have later := ih (inner ++ [(e.1, .value (.scalar .document e.2))]) (by simpa using distinct)
    rw [List.map_cons, List.foldlM_cons, applied]
    simpa using later

theorem foldlM_tableStatements {path : List String} {root inner : Node.Members}
    {place : Node.Members → Node.Members} (leads : Leads path root inner place)
    (again : ∀ members, Leads path (place members) members place) {name : String}
    (absent : name ∉ inner.map Prod.fst) {entries : List (String × Scalar)}
    (distinct : (entries.map Prod.fst).Nodup) (current : List String) :
    (tableStatements (path ++ [name]) entries).foldlM Draft.apply ⟨current, root⟩ =
      some ⟨path ++ [name], place (inner ++ [(name, tableNode entries)])⟩ := by
  have opened : Draft.apply ⟨current, root⟩ (.openTable (path ++ [name])) =
      some ⟨path ++ [name], place (inner ++ [(name, .table .explicit [])])⟩ := by
    simp [Draft.apply, leads _, openMember, Pairs.lookup_eq_none absent]
  have inside : ∀ members, Leads (path ++ [name])
      (place (inner ++ [(name, .table .explicit members)])) members
      (place ∘ fun members => inner ++ [(name, .table .explicit members)]) :=
    fun members => (again _).append (.last absent .explicit members)
  have filled := foldlM_assign inside entries [] (by simpa using distinct)
  rw [tableStatements, List.foldlM_cons, opened]
  simpa [tableNode] using filled

theorem map_root_foldlM_tables {path : List String} {place : Node.Members → Node.Members}
    (leads : ∀ members, Leads path (place members) members place)
    (tables : List (String × List (String × Scalar))) (inner : Node.Members)
    (distinct : (inner.map Prod.fst ++ tables.map Prod.fst).Nodup)
    (entriesDistinct : ∀ t ∈ tables, (t.2.map Prod.fst).Nodup) (current : List String) :
    ((tables.flatMap fun t => tableStatements (path ++ [t.1]) t.2).foldlM Draft.apply
        ⟨current, place inner⟩).map (·.root) =
      some (place (inner ++ tables.map fun t => (t.1, tableNode t.2))) := by
  induction tables generalizing inner current with
  | nil => simp
  | cons t tables ih =>
    have absent : t.1 ∉ inner.map Prod.fst := by
      intro mem
      have apart := (List.nodup_append.1 distinct).2.2 t.1 mem t.1 (by simp)
      exact apart rfl
    have first := foldlM_tableStatements (leads inner) leads absent
      (entriesDistinct t List.mem_cons_self) current
    have later := ih (inner ++ [(t.1, tableNode t.2)]) (by simpa using distinct)
      (fun u mem => entriesDistinct u (List.mem_cons_of_mem t mem)) (path ++ [t.1])
    rw [List.flatMap_cons, List.foldlM_append, first]
    simpa using later

/-- The settings tables of a configuration, as nodes of one table. It has a header only if it is
empty. -/
def settingsNode (settings : SettingsTable) : Node :=
  if settings.isEmpty then tableNode []
  else .table .implicit (settings.entries.map fun e => (e.1, tableNode (settingsEntries e.2)))

theorem settingsEntries_nodup (settings : Dict String) :
    ((settingsEntries settings).map Prod.fst).Nodup := by
  simpa [settingsEntries, Function.comp_def] using settings.nodup

theorem map_root_foldlM_settingsStatements (settings : SettingsTable) {root : Node.Members}
    (absent : "settings" ∉ root.map Prod.fst) (current : List String) :
    ((settingsStatements settings).foldlM Draft.apply ⟨current, root⟩).map (·.root) =
      some (root ++ [("settings", settingsNode settings)]) := by
  have distinct := settings.nodup
  unfold settingsStatements settingsNode Dict.isEmpty
  cases entries : settings.entries with
  | nil =>
    have bare : (([] : List (String × Scalar)).map Prod.fst).Nodup := List.nodup_nil
    have opened := foldlM_tableStatements (.here root) Leads.here absent bare current
    simpa [tableStatements] using congrArg (Option.map (·.root)) opened
  | cons e rest =>
    -- the first header makes the table of all settings, the others find it there
    have first := foldlM_tableStatements (.missing absent) (.last absent .implicit)
      (List.not_mem_nil (a := e.1)) (settingsEntries_nodup e.2) current
    have later := map_root_foldlM_tables (Leads.last absent .implicit)
      (rest.map fun e => (e.1, settingsEntries e.2)) [(e.1, tableNode (settingsEntries e.2))]
      (by simpa [entries, Function.comp_def] using distinct)
      (List.forall_mem_map.2 fun t _ => settingsEntries_nodup t.2) ["settings", e.1]
    rw [List.flatMap_map] at later
    rw [List.isEmpty_cons, if_neg (by decide), List.flatMap_cons, List.foldlM_append]
    simp only [List.singleton_append] at first later
    rw [first]
    simpa [Function.comp_def] using later

theorem build_statements (c : Config) : build (statements c) =
    some [("registry", tableNode (registryEntries c.registry)),
      ("logging", tableNode (loggingEntries c.logging)),
      ("settings", settingsNode c.settings)] := by
  have registryDistinct : ((registryEntries c.registry).map Prod.fst).Nodup := by
    simp [registryEntries]
  have loggingDistinct : ((loggingEntries c.logging).map Prod.fst).Nodup := by
    unfold loggingEntries
    cases c.logging.fileOutput <;> simp
  have registry := foldlM_tableStatements (.here []) Leads.here
    (List.not_mem_nil (a := "registry")) registryDistinct []
  have logging := foldlM_tableStatements
    (.here [("registry", tableNode (registryEntries c.registry))]) Leads.here
    (show "logging" ∉ _ by simp) loggingDistinct ["registry"]
  have settings := map_root_foldlM_settingsStatements c.settings
    (show "settings" ∉ List.map Prod.fst [("registry", tableNode (registryEntries c.registry)),
      ("logging", tableNode (loggingEntries c.logging))] by simp) ["logging"]
  simp only [List.nil_append, id] at registry logging
  rw [build, statements, List.foldlM_append, List.foldlM_append, registry, Option.bind_eq_bind,
    Option.bind_some, logging]
  exact settings

theorem insertMember_nil (name : String) (v : Value) :
    Value.insertMember name v [] = [(name, v)] := rfl

theorem insertMember_of_less {name first : String} (less : name < first) (v w : Value)
    (members : Value.Members) : Value.insertMember name v ((first, w) :: members) =
      (name, v) :: (first, w) :: members := by
  rw [Value.insertMember, if_pos less]

theorem insertMember_of_greater {name first : String} (greater : first < name) (v w : Value)
    (members : Value.Members) : Value.insertMember name v ((first, w) :: members) =
      (first, w) :: Value.insertMember name v members := by
  rw [Value.insertMember, if_neg (String.lt_asymm greater), if_pos greater]

theorem toMembers_of_ascending {members : Node.Members}
    (ascending : (members.map Prod.fst).Pairwise (· < ·)) :
    Node.toMembers members = members.map fun e => (e.1, e.2.toValue) := by
  induction members with
  | nil => rw [Node.toMembers, List.map_nil]
  | cons e members ih =>
    rw [List.map_cons, List.pairwise_cons] at ascending
    rw [Node.toMembers, ih ascending.2, List.map_cons]
    cases members with
    | nil => rfl
    | cons next rest => exact insertMember_of_less (ascending.1 next.1 (by simp)) _ _ _

/-- A table of scalars as a value. -/
def scalars (entries : List (String × Scalar)) : Value :=
  .dict .document (entries.map fun e => (e.1, .scalar .document e.2))

theorem toValue_tableNode {entries : List (String × Scalar)}
    (ascending : (entries.map Prod.fst).Pairwise (· < ·)) :
    (tableNode entries).toValue = scalars entries := by
  rw [tableNode, Node.toValue,
    toMembers_of_ascending (by simpa [Function.comp_def] using ascending)]
  simp [scalars, Node.toValue, Function.comp_def]

/-- The logging options in the order of their names, which is not the order they are written in. -/
def loggingByName (o : LoggingOptions) : List (String × Scalar) :=
  o.fileOutput.toList.map (fun path => ("file_output", .text path)) ++
    [("json_format", .truth o.jsonFormat), ("level", .text o.level),
      ("max_files", .signed o.maxFiles.toNat)]

/-- The members of a written configuration, in the order of their names. -/
def members (c : Config) : Value.Members :=
  [("logging", scalars (loggingByName c.logging)),
    ("registry", scalars (registryEntries c.registry)),
    ("settings",
      .dict .document (c.settings.entries.map fun e => (e.1, scalars (settingsEntries e.2))))]

theorem toValue_logging (o : LoggingOptions) :
    (tableNode (loggingEntries o)).toValue = scalars (loggingByName o) := by
  have outputFormat : "file_output" < "json_format" := by decide
  have outputLevel : "file_output" < "level" := by decide
  have outputLimit : "file_output" < "max_files" := by decide
  have formatLevel : "json_format" < "level" := by decide
  have formatLimit : "json_format" < "max_files" := by decide
  have levelLimit : "level" < "max_files" := by decide
  unfold loggingEntries loggingByName
  cases o.fileOutput with
  | none =>
    simp only [tableNode, scalars, Node.toValue, Node.toMembers, List.map_cons, List.map_nil,
      Option.toList_none, List.nil_append, List.cons_append, insertMember_nil,
      insertMember_of_less formatLimit, insertMember_of_greater formatLevel,
      insertMember_of_less levelLimit]
  | some path =>
    simp only [tableNode, scalars, Node.toValue, Node.toMembers, List.map_cons, List.map_nil,
      Option.toList_some, List.nil_append, List.cons_append, insertMember_nil,
      insertMember_of_less outputLimit, insertMember_of_greater outputFormat,
      insertMember_of_less formatLimit, insertMember_of_greater outputLevel,
      insertMember_of_greater formatLevel, insertMember_of_less levelLimit]

theorem toValue_settingsNode (settings : SettingsTable) : (settingsNode settings).toValue =
    .dict .document (settings.entries.map fun e => (e.1, scalars (settingsEntries e.2))) := by
  have entryAscending : ∀ d : Dict String,
      ((settingsEntries d).map Prod.fst).Pairwise (· < ·) := fun d => by
    simpa [settingsEntries, Function.comp_def] using d.ascending
  unfold settingsNode Dict.isEmpty
  cases entries : settings.entries with
  | nil => simp [tableNode, Node.toValue, Node.toMembers]
  | cons e rest =>
    have ascending := settings.ascending
    rw [entries] at ascending
    rw [List.isEmpty_cons, if_neg (by decide), Node.toValue,
      toMembers_of_ascending (by simpa [Function.comp_def] using ascending), List.map_map]
    refine congrArg _ (List.map_congr_left fun d _ => ?_)
    simp only [Function.comp_apply, toValue_tableNode (entryAscending d.2)]

theorem toMembers_nodes (c : Config) : Node.toMembers
    [("registry", tableNode (registryEntries c.registry)),
      ("logging", tableNode (loggingEntries c.logging)), ("settings", settingsNode c.settings)] =
    members c := by
  have registry : (tableNode (registryEntries c.registry)).toValue =
      scalars (registryEntries c.registry) :=
    toValue_tableNode (show ["duplicate_policy", "require_complete"].Pairwise (· < ·) by decide)
  have loggingFirst : "logging" < "registry" := by decide
  have loggingBefore : "logging" < "settings" := by decide
  have registryBefore : "registry" < "settings" := by decide
  simp only [Node.toMembers, members, registry, toValue_logging, toValue_settingsNode,
    insertMember_nil, insertMember_of_less loggingBefore, insertMember_of_greater loggingFirst,
    insertMember_of_less registryBefore]

/-- What is read from a written configuration. -/
theorem read_write (c : Config) : read (write c) =
    if c.logging.maxFiles.toNat < signedLimit then some (members c) else none := by
  have unmarked : dropMark (write c).toList = (write c).toList := by
    simp [write, registryTable, dropMark]
  have lines := (readsAs_write c).readStatements_eq
  dsimp only [read]
  rw [unmarked, lines]
  split
  · simp [build_statements, toMembers_nodes]
  · rfl

end Registrar.Document
