import Registrar.Binding
import Registrar.Dict

/-!
# Entries and their settings

A family declares its bindings as entries. The provider of an entry is its factory together with
the context it is handed at every call: the label of the entry's own key and the settings filed
under that label.
-/

namespace Registrar

/-- Settings by key label, then by name. -/
abbrev SettingsTable := Dict (Dict String)

structure Context where
  key : String
  settings : Dict String
deriving DecidableEq

namespace Context

def empty : Context := ⟨"", .empty⟩

def setting (c : Context) (name : String) : Option String := c.settings.find? name

def settingOr (c : Context) (name fallback : String) : String := (c.setting name).getD fallback

def ofLabel (label : String) (settings : SettingsTable) : Context :=
  ⟨label, (settings.find? label).getD .empty⟩

def inspect (c : Context) : String :=
  let items := c.settings.entries.map fun e => Text.quote e.1 ++ ": " ++ Text.quote e.2
  "ProviderContext \x7b key: " ++ Text.quote c.key ++ ", settings: \x7b" ++
    ", ".intercalate items ++ "\x7d \x7d"

end Context

structure Entry (K F : Type) where
  key : K
  aliases : List K
  description : String
  factory : F

/-- A factory bound to the context of its entry. -/
structure Furnished (F : Type) where
  factory : F
  context : Context
deriving DecidableEq

namespace Entry

variable {K F P : Type} [Key K]

def context (e : Entry K F) (settings : SettingsTable) : Context :=
  .ofLabel (Key.label e.key) settings

def toBinding (make : Furnished F → P) (settings : SettingsTable) (e : Entry K F) : Binding K P :=
  ((Binding.new e.key (make ⟨e.factory, e.context settings⟩)).withDescription
    e.description).withAliases e.aliases

end Entry

end Registrar
