import Registrar.Logging.Journal
import Registrar.Proofs.Config.Layers
import Registrar.Proofs.Config.RoundTrip
import Registrar.Proofs.Text.LowerCase

/-!
# What a loaded configuration is fit for

A configuration is loaded if its level is one of six words, in letters of any case, and no settings
table has a blank name. The words are the same for everyone who reads a level, so once a
configuration is loaded neither the filter for its level nor the setting up of the journal can fail
over it.
-/

namespace Registrar

namespace Severity

def words : List (String × Severity) :=
  [("trace", trace), ("debug", debug), ("info", info), ("warn", warn), ("warning", warn),
    ("error", error)]

/-- The text is a word for the severity, up to the case of ASCII letters. -/
def IsWord (text : String) (severity : Severity) : Prop :=
  ∃ word, (word, severity) ∈ words ∧ text.toList.map Char.toLower = word.toList

theorem ofLowerCase?_eq_some_iff {text : String} {severity : Severity} :
    ofLowerCase? text = some severity ↔ (text, severity) ∈ words := by
  unfold ofLowerCase?
  split <;> simp_all [words, eq_comm]

theorem letters_of_mem_words : ∀ e ∈ words, ∀ c ∈ e.1.toList,
    97 ≤ c.toNat ∧ c.toNat ≤ 122 ∧ c ≠ 'k' := by
  have checked : words.all (fun e => e.1.toList.all fun c =>
    97 ≤ c.toNat ∧ c.toNat ≤ 122 ∧ c ≠ 'k') = true := by decide
  simpa only [List.all_eq_true, decide_eq_true_eq] using checked

theorem parse_eq_ok_iff {text : String} {severity : Severity} :
    parse text = .ok severity ↔ IsWord text severity := by
  have read : parse text = .ok severity ↔ ofLowerCase? (Text.lowerCase text) = some severity := by
    unfold parse
    cases ofLowerCase? (Text.lowerCase text) <;> simp
  have same {word : String} (mem : (word, severity) ∈ words) :
      Text.lowerCase text = word ↔ text.toList.map Char.toLower = word.toList := by
    apply Text.lowerCase_eq_iff
    intro c inside
    obtain ⟨-, small, other⟩ := letters_of_mem_words _ mem c inside
    exact ⟨by omega, other⟩
  rw [read, ofLowerCase?_eq_some_iff]
  constructor
  · intro mem
    exact ⟨_, mem, (same mem).1 rfl⟩
  · rintro ⟨word, mem, lower⟩
    rwa [(same mem).2 lower]

theorem eq_unknownLevel_of_parse {text : String} {fault : Fault}
    (failed : parse text = .error fault) : fault = unknownLevel text := by
  unfold parse at failed
  split at failed <;> cases failed
  rfl

/-- No blanks around a word, and no characters outside ASCII. -/
theorem isAlpha_of_isWord {text : String} {severity : Severity} (word : IsWord text severity) :
    ∀ c ∈ text.toList, c.isAlpha = true := by
  obtain ⟨word, mem, lower⟩ := word
  intro c inText
  have inWord : c.toLower ∈ word.toList := lower ▸ List.mem_map_of_mem inText
  obtain ⟨first, last, -⟩ := letters_of_mem_words _ mem _ inWord
  rw [Text.toNat_toLower] at first last
  split at first
  · next upper =>
    have capital : c.isUpper = true := decide_eq_true upper
    exact Bool.or_eq_true_iff.2 (.inl capital)
  · next other =>
    rw [if_neg other] at last
    have small : c.isLower = true :=
      Bool.and_eq_true_iff.2 ⟨decide_eq_true first, decide_eq_true last⟩
    exact Bool.or_eq_true_iff.2 (.inr small)

end Severity

theorem Filter.ofLevel_eq (s : Severity) : ofLevel s = ⟨[.ofLevel s]⟩ := rfl

theorem Filter.admits_ofLevel (s : Severity) (e : Metadata) :
    (ofLevel s).admits e = true ↔ s.rank ≤ e.severity.rank := by
  rw [ofLevel_eq]
  simp [admits, deciding?, Directive.caresAbout, Directive.ofLevel, Threshold.admits]

theorem levelFilter_eq_ok_iff {text : String} {f : Filter} : levelFilter text = .ok f ↔
    ∃ severity, Severity.parse text = .ok severity ∧ f = .ofLevel severity := by
  rw [levelFilter]
  cases Severity.parse text <;> simp [Except.map, eq_comm]

/-- What setting up a journal can fail with when the level is known. -/
theorem Journal.of_setUp_eq_error {taken : Bool} {options : LoggingOptions} {s s' : Surroundings}
    {severity : Severity} {fault : Fault} (known : Severity.parse options.level = .ok severity)
    (failed : setUp taken options s = (s', .error fault)) :
    (openFile? options s).2 = .error fault ∨ fault = occupied := by
  unfold setUp at failed
  rw [known] at failed
  dsimp only at failed
  split at failed
  · next opened =>
    rw [opened]
    cases failed
    exact .inl rfl
  · split at failed
    · cases failed
      exact .inr rfl
    · cases failed

/-- The level is a word, and every settings table has a character in its name that is not blank. -/
structure Config.Acceptable (c : Config) : Prop where
  level : ∃ severity, Severity.IsWord c.logging.level severity
  tables : ∀ name ∈ c.settings.keys, ∃ ch ∈ name.toList, Text.isBlank ch = false

theorem Config.acceptable_iff {c : Config} : c.Acceptable ↔ c.check = .ok () := by
  have tables (name : String) :
      (∃ ch ∈ name.toList, Text.isBlank ch = false) ↔ Text.isBlankText name = false := by
    simp [Text.isBlankText]
  have level : (∃ severity, Severity.IsWord c.logging.level severity) ↔
      ∃ severity, Severity.ofLowerCase? (Text.lowerCase c.logging.level) = some severity := by
    simp only [← Severity.parse_eq_ok_iff, Severity.parse]
    cases Severity.ofLowerCase? (Text.lowerCase c.logging.level) <;> simp
  rw [Config.check_eq_ok_iff, ← level]
  simp only [← tables]
  exact ⟨fun acceptable => ⟨acceptable.level, acceptable.tables⟩, fun both => ⟨both.1, both.2⟩⟩

/-- What is said about a configuration that is not accepted, the level before the tables. -/
theorem Config.check_of_not_acceptable {c : Config} (refused : ¬ c.Acceptable) :
    (¬ ∃ severity, Severity.IsWord c.logging.level severity) ∧
        c.check = .error (Severity.unknownLevel c.logging.level) ∨
      (∃ severity, Severity.IsWord c.logging.level severity) ∧
      ∃ name ∈ c.settings.keys, (∀ ch ∈ name.toList, Text.isBlank ch = true) ∧
        c.check = .error (.configuration
          ("Settings table name cannot be blank: " ++ Text.quote name) none) := by
  rw [acceptable_iff] at refused
  cases parsed : Severity.parse c.logging.level with
  | error fault =>
    refine .inl ⟨?_, ?_⟩
    · rintro ⟨severity, word⟩
      rw [Severity.parse_eq_ok_iff.2 word] at parsed
      cases parsed
    · rw [check, parsed, Severity.eq_unknownLevel_of_parse parsed]
      rfl
  | ok severity =>
    right
    refine ⟨⟨severity, Severity.parse_eq_ok_iff.1 parsed⟩, ?_⟩
    cases blank : c.blankTable? with
    | none =>
      have accepted : c.check = .ok () := by
        rw [check, parsed, blank]
        rfl
      exact absurd accepted refused
    | some name =>
      refine ⟨name, List.mem_of_find?_eq_some blank, ?_, ?_⟩
      · simpa [Text.isBlankText] using List.find?_some blank
      · rw [check, parsed, blank]
        rfl

namespace Loader

variable {l : Loader} {s : Surroundings} {c : Config}

theorem load_of_gather (gathered : l.gather s = .ok c) :
    (l.load s).2 = c.check.map fun _ => c := by
  simp only [load, gathered, Bind.bind, Except.bind]
  cases c.check <;> rfl

theorem load_of_gather_failed {fault : Fault} (failed : l.gather s = .error fault) :
    (l.load s).2 = .error fault := by
  simp only [load, failed, Bind.bind, Except.bind]

theorem acceptable_of_load (loaded : (l.load s).2 = .ok c) : l.gather s = .ok c ∧ c.Acceptable := by
  cases gathered : l.gather s with
  | error fault =>
    rw [load_of_gather_failed gathered] at loaded
    cases loaded
  | ok c' =>
    rw [load_of_gather gathered] at loaded
    cases accepted : c'.check with
    | error fault =>
      rw [accepted] at loaded
      cases loaded
    | ok _ =>
      rw [accepted] at loaded
      cases loaded
      exact ⟨rfl, Config.acceptable_iff.2 accepted⟩

/-- A configuration that is loaded has a level that everyone can read and no blank settings table.
So the filter for its level exists, and setting up a journal fails only over the log file or over a
journal that is there already. What has been put together but is not accepted is a fault of
configuration that has no other behind it: that of the level unless the level is known. The levels
are the words for severities in letters of any case, without anything around them, and the filter
for a level lets through exactly the events that are as severe or more. -/
theorem loaded_configurations_are_accepted (l : Loader) (s : Surroundings) :
    (∀ c, (l.load s).2 = .ok c ↔ l.gather s = .ok c ∧ c.Acceptable) ∧
    (∀ c, (l.load s).2 = .ok c → ∃ severity, Severity.parse c.logging.level = .ok severity ∧
      levelFilter c.logging.level = .ok (.ofLevel severity) ∧
      ∀ taken s₁ s₂ fault, Journal.setUp taken c.logging s₁ = (s₂, .error fault) →
        (Journal.openFile? c.logging s₁).2 = .error fault ∨ fault = Journal.occupied) ∧
    (∀ c, l.gather s = .ok c → ¬ c.Acceptable → ∃ text,
      (l.load s).2 = .error (.configuration text none) ∧
      ((¬ ∃ severity, Severity.IsWord c.logging.level severity) → text =
        "Invalid log level: " ++ c.logging.level ++ ". Use trace, debug, info, warn, or error") ∧
      ((∃ severity, Severity.IsWord c.logging.level severity) → ∃ name ∈ c.settings.keys,
        (∀ ch ∈ name.toList, Text.isBlank ch = true) ∧
        text = "Settings table name cannot be blank: " ++ Text.quote name)) ∧
    (∀ text severity, Severity.parse text = .ok severity ↔ Severity.IsWord text severity) ∧
    (∀ text severity, Severity.IsWord text severity → ∀ ch ∈ text.toList, ch.isAlpha = true) ∧
    (∀ text f, levelFilter text = .ok f ↔
      ∃ severity, Severity.parse text = .ok severity ∧ f = .ofLevel severity) ∧
    ∀ severity (e : Metadata),
      (Filter.ofLevel severity).admits e = true ↔ severity.rank ≤ e.severity.rank := by
  refine ⟨fun c => ?_, fun c loaded => ?_, fun c gathered refused => ?_,
    fun _ _ => Severity.parse_eq_ok_iff, fun _ _ => Severity.isAlpha_of_isWord,
    fun _ _ => levelFilter_eq_ok_iff, Filter.admits_ofLevel⟩
  · constructor
    · exact acceptable_of_load
    · rintro ⟨gathered, acceptable⟩
      rw [load_of_gather gathered, Config.acceptable_iff.1 acceptable]
      rfl
  · obtain ⟨severity, word⟩ := (acceptable_of_load loaded).2.level
    have known := Severity.parse_eq_ok_iff.2 word
    exact ⟨severity, known, levelFilter_eq_ok_iff.2 ⟨severity, known, rfl⟩,
      fun _ _ _ _ => Journal.of_setUp_eq_error known⟩
  · have result := load_of_gather gathered
    rcases Config.check_of_not_acceptable refused with
      ⟨unknown, said⟩ | ⟨level, name, mem, blank, said⟩
    · rw [said] at result
      exact ⟨_, result, fun _ => rfl, fun known => absurd known unknown⟩
    · rw [said] at result
      exact ⟨_, result, fun none => absurd level none, fun _ => ⟨name, mem, blank, rfl⟩⟩

/-- The level is in capitals. -/
def loud : Surroundings := shelf "[logging]\nlevel = \"WARNING\"\n" []

/-- The level has a blank behind it, and the name of a table is a blank that is not in ASCII. -/
def blurred : Surroundings :=
  shelf "[logging]\nlevel = \"info \"\n\n[settings.\"\\u00A0\"]\n" []

def configOf (level : String) (settings : SettingsTable) : Config :=
  ⟨Config.defaults.registry, { Config.defaults.logging with level }, settings⟩

theorem load_loud :
    (∃ c, (atShelf.load loud).2 = .ok c ∧ levelFilter c.logging.level = .ok (.ofLevel .warn)) ∧
    ∃ c, atShelf.gather blurred = .ok c ∧ ¬ c.Acceptable ∧
      (atShelf.load blurred).2 = .error (Severity.unknownLevel "info ") := by
  constructor
  · have loaded : (atShelf.load loud).2 = .ok (configOf "WARNING" .empty) :=
      of_toOption_eq_some (by decide +kernel)
    have known : Severity.parse "WARNING" = .ok .warn :=
      (loaded_configurations_are_accepted atShelf loud).2.2.2.1 _ _ |>.2
        ⟨"warning", by decide, by decide⟩
    obtain ⟨severity, parsed, filter, -⟩ :=
      (loaded_configurations_are_accepted atShelf loud).2.1 _ loaded
    have same : severity = .warn := by
      rw [show (configOf "WARNING" .empty).logging.level = "WARNING" from rfl, known] at parsed
      exact (Except.ok.inj parsed).symm
    exact ⟨_, loaded, same ▸ filter⟩
  · have gathered : atShelf.gather blurred = .ok (configOf "info " (.ofList [("\u00A0", .empty)])) :=
      of_toOption_eq_some (by decide +kernel)
    have unknown : ¬ ∃ severity, Severity.IsWord "info " severity := by
      rintro ⟨severity, word⟩
      have letters := (loaded_configurations_are_accepted atShelf blurred).2.2.2.2.1 _ _ word
      exact absurd (letters ' ' (by decide)) (by decide)
    have refused : ¬ (configOf "info " (.ofList [("\u00A0", .empty)])).Acceptable :=
      fun acceptable => unknown acceptable.level
    obtain ⟨text, result, said, -⟩ :=
      (loaded_configurations_are_accepted atShelf blurred).2.2.1 _ gathered refused
    rw [said unknown] at result
    exact ⟨_, gathered, refused, result⟩

end Loader

end Registrar
