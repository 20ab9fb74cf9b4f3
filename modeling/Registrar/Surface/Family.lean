import Registrar.Event
import Registrar.Registry.Basic
import Registrar.Scope.Errand
import Registrar.Surface.Kind

/-!
# The surface family

The screens of the sample application, and the entries that declare them twice: under their kinds
and under their types. The entries of a family are listed by the names of their keys.
-/

namespace Registrar

/-- The version of the program. -/
def version : String := "0.1.0"

inductive Surface where
  | home (greeting : String)
  | settings (theme : String)
  | about (versionLabel : String)
deriving DecidableEq, Repr

namespace Surface

def homeType : TypeKey := ⟨⟨"mapkey::surfaces::home::HomeSurface"⟩, 0⟩
def settingsType : TypeKey := ⟨⟨"mapkey::surfaces::settings::SettingsSurface"⟩, 1⟩
def aboutType : TypeKey := ⟨⟨"mapkey::surfaces::about::AboutSurface"⟩, 2⟩

/-- The interface that all surfaces share, as a type. -/
def interfaceType : TypeKey := ⟨⟨"dyn mapkey::surfaces::Surface"⟩, 3⟩

instance : HasType Surface where
  typeOf
    | home _ => homeType
    | settings _ => settingsType
    | about _ => aboutType

def title : Surface → String
  | home _ => "Home"
  | settings _ => "Settings"
  | about _ => "About"

def render : Surface → String
  | home greeting => greeting ++ "!"
  | settings theme => "Theme: " ++ theme
  | about label => "mapkey " ++ label

/-- The one text that a surface was made with. -/
def detail : Surface → String
  | home greeting => greeting
  | settings theme => theme
  | about label => label

def themes : List String := ["light", "dark", "system"]

def chooseTheme (theme : String) : Except Fault Surface :=
  if theme ∈ themes then .ok (settings theme)
  else .error (.invalidArgument
    ("Unknown theme '" ++ theme ++ "'. Available themes: " ++ ", ".intercalate themes))

/-- A surface is made from the settings of the key that it is bound to. -/
def furnish (kind : SurfaceKind) (c : Context) : Except Fault Surface :=
  match kind with
  | .home => .ok (home (c.settingOr "greeting" "Welcome"))
  | .settings => chooseTheme (c.settingOr "theme" "system")
  | .about => .ok (about (c.settingOr "version_label" version))

abbrev Maker := Furnished SurfaceKind

def provide (maker : Maker) : Except Fault Surface := furnish maker.factory maker.context

def describe : SurfaceKind → String
  | .home => "Landing surface"
  | .settings => "Preferences surface"
  | .about => "Version and build information"

def kindEntry (kind : SurfaceKind) : Entry SurfaceKind SurfaceKind := ⟨kind, [], describe kind, kind⟩

def kindEntries : List (Entry SurfaceKind SurfaceKind) :=
  [kindEntry .about, kindEntry .home, kindEntry .settings]

/-- The home surface also stands for the family as a whole. -/
def typeEntries : List (Entry TypeKey SurfaceKind) :=
  [⟨aboutType, [], describe .about, .about⟩,
    ⟨homeType, [interfaceType], describe .home, .home⟩,
    ⟨settingsType, [], describe .settings, .settings⟩]

/-- Surfaces make no requests; a settings surface reports that it has been let go. -/
def conduct : Conduct String SurfaceKind Maker Surface where
  produce maker _ := .done ((provide maker).map .fresh)
  release held _ :=
    match held.value with
    | settings theme => .report (.settingsReleased theme) (.done ())
    | _ => .done ()

end Surface

end Registrar
