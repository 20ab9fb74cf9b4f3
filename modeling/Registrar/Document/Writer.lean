import Registrar.Config.Basic
import Registrar.Document.Text
import Registrar.Text.Digits

/-!
# Writing configuration documents

A configuration is written as one table for the registry options, one for the logging options and
one for each settings table, or an empty one if there is none. A text is written in the first form
that fits it: on one line without escapes, between double and then between single quotes; on
several lines; and with escapes.
-/

namespace Registrar.Document

/-- Controls that no form can hold as they are. -/
def isControl (c : Char) : Bool := (c.toNat < 32 && c ≠ '\t' && c ≠ '\n') || c.toNat = 127

def hasControl (cs : List Char) : Bool := cs.any isControl

/-- Whether `n` of the character `c` follow each other. -/
def hasRun (c : Char) (n : Nat) : List Char → Bool
  | [] => n = 0
  | x :: rest => (List.replicate n c).isPrefixOf (x :: rest) || hasRun c n rest

inductive TextForm where
  | quoted | verbatim | quotedLines | verbatimLines
deriving DecidableEq, Repr

def chooseForm (cs : List Char) : TextForm :=
  let control := hasControl cs
  let broken := cs.contains '\n'
  if !control && !cs.contains '\\' && !cs.contains '"' && !broken then .quoted
  else if !control && !cs.contains '\'' && !broken then .verbatim
  else if !control && !cs.contains '\\' && !hasRun '"' 3 cs then .quotedLines
  else if !control && !hasRun '\'' 3 cs then .verbatimLines
  else if broken then .quotedLines else .quoted

def capitalHex (n : Nat) : List Char :=
  Text.padLeft 4 '0' ((Nat.toDigits 16 n).map Char.toUpper)

/-- The escape of a character other than the quote and the line break, if it needs one. -/
def escapeControl (c : Char) : List Char :=
  if c = '\x08' then ['\\', 'b']
  else if c = '\t' then ['\\', 't']
  else if c = '\x0c' then ['\\', 'f']
  else if c = '\r' then ['\\', 'r']
  else if c = '\\' then ['\\', '\\']
  else if isControl c then ['\\', 'u'] ++ capitalHex c.toNat
  else [c]

def escapeQuoted (c : Char) : List Char :=
  if c = '"' then ['\\', '"'] else if c = '\n' then ['\\', 'n'] else escapeControl c

/-- Over several lines, only the third quote of a run is escaped. `seen` counts the quotes before. -/
def escapeLines (seen : Nat) : List Char → List Char
  | [] => []
  | c :: rest =>
    if c = '"' then
      if seen = 2 then '\\' :: '"' :: escapeLines 0 rest else '"' :: escapeLines (seen + 1) rest
    else if c = '\n' then '\n' :: escapeLines 0 rest
    else escapeControl c ++ escapeLines 0 rest

/-- A text of several lines starts on a line of its own. -/
def opening (cs : List Char) : List Char := if cs.contains '\n' then ['\n'] else []

def writeChars (form : TextForm) (cs : List Char) : List Char :=
  match form with
  | .quoted => '"' :: cs.flatMap escapeQuoted ++ ['"']
  | .verbatim => '\'' :: cs ++ ['\'']
  | .quotedLines => ['"', '"', '"'] ++ opening cs ++ escapeLines 0 cs ++ ['"', '"', '"']
  | .verbatimLines => ['\'', '\'', '\''] ++ opening cs ++ cs ++ ['\'', '\'', '\'']

def writeText (s : String) : String :=
  let cs := s.toList
  String.ofList (writeChars (chooseForm cs) cs)

def isBareKey (cs : List Char) : Bool :=
  !cs.isEmpty && cs.all fun c => c.isAlphanum || c = '_' || c = '-'

def chooseKeyForm (cs : List Char) : TextForm :=
  let control := hasControl cs || cs.contains '\n'
  if !control && !cs.contains '\\' && !cs.contains '"' then .quoted
  else if !control && !cs.contains '\'' then .verbatim
  else .quoted

def writeKey (name : String) : String :=
  let cs := name.toList
  if isBareKey cs then name else String.ofList (writeChars (chooseKeyForm cs) cs)

def writeTruth (b : Bool) : String := if b then "true" else "false"

def assignment (key value : String) : String := key ++ " = " ++ value ++ "\n"

def registryTable (o : RegistryOptions) : String :=
  "[registry]\n" ++ assignment "duplicate_policy" (writeText o.duplicatePolicy.name) ++
    assignment "require_complete" (writeTruth o.requireComplete)

def loggingTable (o : LoggingOptions) : String :=
  let output := match o.fileOutput with
    | some path => assignment "file_output" (writeText path)
    | none => ""
  "[logging]\n" ++ assignment "level" (writeText o.level) ++
    assignment "json_format" (writeTruth o.jsonFormat) ++ output ++
    assignment "max_files" (toString o.maxFiles.toNat)

def settingsTable (name : String) (settings : Dict String) : String :=
  "[settings." ++ writeKey name ++ "]\n" ++
    String.join (settings.entries.map fun e => assignment (writeKey e.1) (writeText e.2))

def settingsTables (settings : SettingsTable) : List String :=
  if settings.isEmpty then ["[settings]\n"]
  else settings.entries.map fun e => settingsTable e.1 e.2

/-- The document of a configuration. -/
def write (c : Config) : String :=
  "\n".intercalate (registryTable c.registry :: loggingTable c.logging :: settingsTables c.settings)

end Registrar.Document
