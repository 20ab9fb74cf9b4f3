import Registrar.Registry.Entry
import Registrar.Policy
import Registrar.Severity

/-!
# Configuration

What the program can be told about composing registries, about logging, and about the settings of
each key. A configuration is accepted if its log level is one and no settings table has a blank
name.
-/

namespace Registrar

structure RegistryOptions where
  duplicatePolicy : Policy
  requireComplete : Bool
deriving DecidableEq

structure LoggingOptions where
  level : String
  jsonFormat : Bool
  fileOutput : Option String
  maxFiles : UInt64
deriving DecidableEq

structure Config where
  registry : RegistryOptions
  logging : LoggingOptions
  settings : SettingsTable
deriving DecidableEq

namespace Config

def defaults : Config := ⟨⟨.reject, true⟩, ⟨"info", false, none, 7⟩, .empty⟩

def blankTable? (c : Config) : Option String := c.settings.keys.find? Text.isBlankText

def check (c : Config) : Except Fault Unit := do
  let _ ← Severity.parse c.logging.level
  match c.blankTable? with
  | some name =>
    .error (.configuration ("Settings table name cannot be blank: " ++ Text.quote name) none)
  | none => .ok ()

end Config

end Registrar
