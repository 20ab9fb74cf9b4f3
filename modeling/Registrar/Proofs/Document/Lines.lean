import Mathlib.Data.List.Forall2
import Registrar.Document.Reader
import Registrar.Proofs.Document.Value

/-!
# The lines of a written document

Every line of a written document is empty, a header, or an entry of the table above it. `ReadsAs`
says what a text of whole lines adds to the statements that a reader finds: the statements of the
lines, or none at all if one of them is no statement. Texts are put together, and so is what they
are read as.
-/

namespace Registrar.Document

/-- The text holds at most as many lines as characters, and a reader takes one step for each. -/
def ReadsAs (text : String) (result : Option (List Statement)) : Prop :=
  ∃ lines ≤ text.toList.length, ∀ fuel rest,
    readStatements (lines + fuel) (text.toList ++ rest) =
      result.bind fun statements => (readStatements fuel rest).map (statements ++ ·)

namespace ReadsAs

theorem empty : ReadsAs "" (some []) := by
  refine ⟨0, Nat.zero_le _, fun fuel rest => ?_⟩
  simp

theorem append {first second : String} {before after : Option (List Statement)}
    (h : ReadsAs first before) (h' : ReadsAs second after) :
    ReadsAs (first ++ second) (before.bind fun a => after.map (a ++ ·)) := by
  obtain ⟨lines, few, read⟩ := h
  obtain ⟨lines', few', read'⟩ := h'
  refine ⟨lines + lines', ?_, fun fuel rest => ?_⟩
  · rw [String.toList_append, List.length_append]
    exact Nat.add_le_add few few'
  · rw [String.toList_append, List.append_assoc, Nat.add_assoc, read, read']
    cases before with
    | none => rfl
    | some a =>
      cases after with
      | none => rfl
      | some b => simp [Function.comp_def]

/-- A reader with a step for each character, and one for the end, reads the whole text. -/
theorem readStatements_eq {text : String} {result : Option (List Statement)}
    (h : ReadsAs text result) : readStatements (text.toList.length + 1) text.toList = result := by
  obtain ⟨lines, few, read⟩ := h
  have whole := read (text.toList.length - lines + 1) []
  have steps : lines + (text.toList.length - lines + 1) = text.toList.length + 1 := by omega
  rw [List.append_nil, steps] at whole
  rw [whole]
  cases result <;> simp [readStatements, skipSpaces]

end ReadsAs

theorem readsAs_emptyLine : ReadsAs "\n" (some []) := by
  refine ⟨1, by simp, fun fuel rest => ?_⟩
  rw [Nat.add_comm, show "\n".toList ++ rest = '\n' :: rest by simp, readStatements,
    skipSpaces_of_head (by decide)]
  simp

theorem readStatements_statement {fuel : Nat} {c : Char} {cs : List Char}
    (space : isSpace c = false) (other : c ∉ ['\n', '\r', '#']) :
    readStatements (fuel + 1) (c :: cs) = (readStatement (c :: cs)).bind fun (statement, rest) =>
      (endLine rest).bind fun rest => (readStatements fuel rest).map (statement :: ·) := by
  have line : c ≠ '\n' := by rintro rfl; simp at other
  have return' : c ≠ '\r' := by rintro rfl; simp at other
  have comment : c ≠ '#' := by rintro rfl; simp at other
  rw [readStatements, skipSpaces_of_head space]
  split
  · next same => cases same
  · next same => exact absurd (List.cons.inj same).1 line
  · next same => exact absurd (List.cons.inj same).1 return'
  · next same => exact absurd (List.cons.inj same).1 comment
  · simp only [Option.bind_eq_bind, Option.pure_def, Option.map_eq_bind, Function.comp_def]

theorem endLine_break (rest : List Char) : endLine ('\n' :: rest) = some rest := by
  have start : skipSpaces ('\n' :: rest) = '\n' :: rest := skipSpaces_of_head (by decide)
  simp [endLine, start]

theorem readStatement_header {key rest : List Char} {path : List String}
    (start : ∃ c tail, key = c :: tail ∧ isSpace c = false ∧ c ≠ '[')
    (read : readKey (key ++ ']' :: rest) = some (path, ']' :: rest)) :
    readStatement ('[' :: (key ++ ']' :: rest)) = some (.openTable path, rest) := by
  obtain ⟨c, tail, rfl, space, bracket⟩ := start
  have ended : skipSpaces (']' :: rest) = ']' :: rest := skipSpaces_of_head (by decide)
  rw [List.cons_append] at read ⊢
  simp [readStatement, bracket, readHeader, skipSpaces_of_head space, read, ended]

theorem readStatement_assignment (key : String) {x : Char} (gap : isSpace x = false)
    (rest : List Char) : readStatement ((writeKey key).toList ++ ' ' :: '=' :: ' ' :: x :: rest) =
      (readValue nestingLimit (rest.length + 2) (x :: rest)).map
        fun (v, rest) => (.assign [key] v, rest) := by
  obtain ⟨c, tail, text, -, special⟩ := writeKey_head key
  have bracket : c ≠ '[' := by rintro rfl; simp at special
  have equals : skipSpaces (' ' :: '=' :: ' ' :: x :: rest) = '=' :: ' ' :: x :: rest := by
    rw [skipSpaces_blank, skipSpaces_of_head (by decide)]
  have value : skipSpaces (' ' :: x :: rest) = x :: rest := by
    rw [skipSpaces_blank, skipSpaces_of_head gap]
  have name : readKey ((writeKey key).toList ++ ' ' :: '=' :: ' ' :: x :: rest) =
      some ([key], ' ' :: '=' :: ' ' :: x :: rest) := by
    refine readKeyParts_last _ key ?_ (by simp [equals])
    intro d first
    cases first
    decide
  rw [text, List.cons_append] at name ⊢
  simp [readStatement, bracket, name, equals, value, Option.map_eq_bind]

theorem readsAs_header {key : String} {path : List String}
    (start : ∃ c tail, key.toList = c :: tail ∧ isSpace c = false ∧ c ≠ '[')
    (read : ∀ rest, readKey (key.toList ++ ']' :: rest) = some (path, ']' :: rest)) :
    ReadsAs ("[" ++ key ++ "]\n") (some [.openTable path]) := by
  refine ⟨1, by simp, fun fuel rest => ?_⟩
  have line : ("[" ++ key ++ "]\n").toList ++ rest =
      '[' :: (key.toList ++ ']' :: '\n' :: rest) := by
    simp
  rw [Nat.add_comm, line, readStatements_statement (by decide) (by decide),
    readStatement_header start (read ('\n' :: rest))]
  simp [endLine_break]

theorem readsAs_assignment (key : String) {text : String} {result : Option Value}
    (h : Denotes text result) : ReadsAs (assignment (writeKey key) text)
      (result.map fun v => [.assign [key] v]) := by
  refine ⟨1, by simp [assignment]; omega, fun fuel rest => ?_⟩
  obtain ⟨c, tail, start, space, special⟩ := writeKey_head key
  obtain ⟨x, more, begins, gap⟩ := h.start
  have line : (assignment (writeKey key) text).toList ++ rest =
      (writeKey key).toList ++ ' ' :: '=' :: ' ' :: (text.toList ++ '\n' :: rest) := by
    simp [assignment]
  have statement := readStatement_assignment key gap (more ++ '\n' :: rest)
  rw [← List.cons_append, ← begins, h.read] at statement
  rw [Nat.add_comm, line, start, List.cons_append, readStatements_statement space
    (fun mem => special (List.mem_append_left ['['] mem)), ← List.cons_append, ← start, statement]
  cases result <;> simp [endLine_break]

theorem writeKey_of_bare {name : String} (bare : isBareKey name.toList = true) :
    writeKey name = name := by
  simp [writeKey, bare]

/-- The statements of a table of scalars with its header. -/
def tableStatements (path : List String) (entries : List (String × Scalar)) : List Statement :=
  .openTable path :: entries.map fun e => .assign [e.1] (.scalar .document e.2)

def registryEntries (o : RegistryOptions) : List (String × Scalar) :=
  [("duplicate_policy", .text o.duplicatePolicy.name),
    ("require_complete", .truth o.requireComplete)]

def loggingEntries (o : LoggingOptions) : List (String × Scalar) :=
  [("level", .text o.level), ("json_format", .truth o.jsonFormat)] ++
    o.fileOutput.toList.map (fun path => ("file_output", .text path)) ++
    [("max_files", .signed o.maxFiles.toNat)]

def settingsEntries (settings : Dict String) : List (String × Scalar) :=
  settings.entries.map fun e => (e.1, .text e.2)

def settingsStatements (settings : SettingsTable) : List Statement :=
  if settings.isEmpty then [.openTable ["settings"]]
  else settings.entries.flatMap fun e => tableStatements ["settings", e.1] (settingsEntries e.2)

/-- The statements of a written configuration. -/
def statements (c : Config) : List Statement :=
  tableStatements ["registry"] (registryEntries c.registry) ++
    tableStatements ["logging"] (loggingEntries c.logging) ++ settingsStatements c.settings

theorem readKeyParts_bracket (fuel : Nat) (name : String) (rest : List Char) :
    readKeyParts (fuel + 1) ((writeKey name).toList ++ ']' :: rest) =
      some ([name], ']' :: rest) := by
  have bracket : skipSpaces (']' :: rest) = ']' :: rest := skipSpaces_of_head (by decide)
  refine readKeyParts_last fuel name ?_ (by simp [bracket])
  intro c first
  cases first
  decide

theorem readsAs_openTable (name : String) :
    ReadsAs ("[" ++ writeKey name ++ "]\n") (some [.openTable [name]]) := by
  obtain ⟨c, tail, text, space, special⟩ := writeKey_head name
  exact readsAs_header ⟨c, tail, text, space, by rintro rfl; simp at special⟩
    fun rest => readKeyParts_bracket _ name rest

theorem readsAs_openSettings (name : String) :
    ReadsAs ("[settings." ++ writeKey name ++ "]\n") (some [.openTable ["settings", name]]) := by
  obtain ⟨c, tail, text, space, -⟩ := writeKey_head name
  have settings : (writeKey "settings").toList = "settings".toList := by
    rw [writeKey_of_bare (by decide)]
  have read : ∀ rest, readKey (("settings." ++ writeKey name).toList ++ ']' :: rest) =
      some (["settings", name], ']' :: rest) := by
    intro rest
    have first := readKeyParts_dot (nestingLimit - 1) "settings" space (tail ++ ']' :: rest)
    have second : readKeyParts (nestingLimit - 1) ((writeKey name).toList ++ ']' :: rest) =
        some ([name], ']' :: rest) := readKeyParts_bracket (nestingLimit - 2) name rest
    rw [text, List.cons_append] at second
    rw [settings, second] at first
    have whole : ("settings." ++ writeKey name).toList ++ ']' :: rest =
        "settings".toList ++ '.' :: c :: (tail ++ ']' :: rest) := by
      simp [text]
    rw [whole]
    exact first
  have header := readsAs_header
    ⟨'s', "ettings.".toList ++ (writeKey name).toList, by simp, by decide, by decide⟩ read
  simpa [← String.append_assoc] using header

theorem readsAs_registryTable (o : RegistryOptions) :
    ReadsAs (registryTable o) (some (tableStatements ["registry"] (registryEntries o))) := by
  have header := readsAs_openTable "registry"
  have policy := readsAs_assignment "duplicate_policy" (denotes_writeText o.duplicatePolicy.name)
  have complete := readsAs_assignment "require_complete" (denotes_writeTruth o.requireComplete)
  rw [writeKey_of_bare (by decide)] at header policy complete
  exact (header.append policy).append complete

theorem readsAs_loggingTable (o : LoggingOptions) : ReadsAs (loggingTable o)
    (if o.maxFiles.toNat < signedLimit then some (tableStatements ["logging"] (loggingEntries o))
      else none) := by
  have header := readsAs_openTable "logging"
  have level := readsAs_assignment "level" (denotes_writeText o.level)
  have format := readsAs_assignment "json_format" (denotes_writeTruth o.jsonFormat)
  have limit := readsAs_assignment "max_files" (denotes_toString o.maxFiles.toNat)
  rw [writeKey_of_bare (by decide)] at header level format limit
  have before := (header.append level).append format
  cases output : o.fileOutput with
  | none =>
    have whole := before.append limit
    by_cases small : o.maxFiles.toNat < signedLimit
    · simpa [loggingTable, loggingEntries, tableStatements, output, small] using whole
    · simpa [loggingTable, output, small] using whole
  | some path =>
    have line := readsAs_assignment "file_output" (denotes_writeText path)
    rw [writeKey_of_bare (by decide)] at line
    have whole := (before.append line).append limit
    by_cases small : o.maxFiles.toNat < signedLimit
    · simpa [loggingTable, loggingEntries, tableStatements, output, small] using whole
    · simpa [loggingTable, output, small] using whole

/-- Texts one after the other, an empty line between them. -/
theorem readsAs_intercalate {texts : List String} {results : List (List Statement)}
    (h : List.Forall₂ (fun text result => ReadsAs text (some result)) texts results) :
    ReadsAs ("\n".intercalate texts) (some results.flatten) := by
  induction h with
  | nil => exact .empty
  | @cons text result texts results first rest ih =>
    cases rest with
    | nil => simpa using first
    | cons second more =>
      rw [String.intercalate_cons_cons, List.flatten_cons]
      simpa using (first.append readsAs_emptyLine).append ih

theorem readsAs_settingsTable (name : String) (settings : Dict String) :
    ReadsAs (settingsTable name settings)
      (some (tableStatements ["settings", name] (settingsEntries settings))) := by
  have lines : ∀ entries : List (String × String),
      ReadsAs (String.join (entries.map fun e => assignment (writeKey e.1) (writeText e.2)))
        (some (entries.map fun e => .assign [e.1] (.scalar .document (.text e.2)))) := by
    intro entries
    induction entries with
    | nil => exact .empty
    | cons e entries ih =>
      have line := readsAs_assignment e.1 (denotes_writeText e.2)
      rw [List.map_cons, String.join_cons]
      exact line.append ih
  simpa [settingsTable, tableStatements, settingsEntries, Function.comp_def] using
    (readsAs_openSettings name).append (lines settings.entries)

theorem readsAs_settingsTables (settings : SettingsTable) :
    ReadsAs ("\n".intercalate (settingsTables settings)) (some (settingsStatements settings)) := by
  unfold settingsTables settingsStatements
  split
  · have header := readsAs_openTable "settings"
    rw [writeKey_of_bare (by decide)] at header
    simpa using header
  · rw [List.flatMap_def]
    refine readsAs_intercalate (List.forall₂_map_left_iff.2 (List.forall₂_map_right_iff.2 ?_))
    exact List.forall₂_same.2 fun e _ => readsAs_settingsTable e.1 e.2

/-- A written configuration is read as its statements, unless it bounds the number of log files by
a number that a document cannot hold. -/
theorem readsAs_write (c : Config) : ReadsAs (write c)
    (if c.logging.maxFiles.toNat < signedLimit then some (statements c) else none) := by
  have parts : write c = registryTable c.registry ++ "\n" ++ (loggingTable c.logging ++ "\n" ++
      "\n".intercalate (settingsTables c.settings)) := by
    have filled : settingsTables c.settings ≠ [] := by
      unfold settingsTables
      split
      · simp
      · next h => simpa [Dict.isEmpty] using h
    rw [write, String.intercalate_cons_cons, String.intercalate_cons_of_ne_nil filled]
  rw [parts]
  have registry := (readsAs_registryTable c.registry).append readsAs_emptyLine
  have logging := (readsAs_loggingTable c.logging).append readsAs_emptyLine
  have whole := registry.append (logging.append (readsAs_settingsTables c.settings))
  by_cases small : c.logging.maxFiles.toNat < signedLimit
  · simpa [small, statements] using whole
  · simpa [small] using whole

end Registrar.Document
