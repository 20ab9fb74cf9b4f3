import Registrar.Surface.Family
import Registrar.Text.Digits

/-!
# Help pages

What the command line offers, place by place: at the top a command has to be chosen, and every
command has a page of its own. A page lists what a place knows in two columns.
-/

namespace Registrar

/-- Where on the command line an argument stands. -/
inductive Place where
  | top | keys | check | surface | help
deriving DecidableEq, Repr

namespace Place

def commands : List Place := [keys, check, surface, help]

def word : Place → String
  | top => "mapkey"
  | keys => "keys"
  | check => "check"
  | surface => "show"
  | help => "help"

def command? (text : String) : Option Place := commands.find? (·.word = text)

def about : Place → String
  | top => "mapkey - Keyed multi-binding registry inspector"
  | keys => "List registered keys"
  | check => "Verify that every surface is bound and builds"
  | surface => "Render a surface (home, settings, about)"
  | help => "Print this message or the help of the given subcommand(s)"

def usage : Place → String
  | top => "Usage: mapkey [OPTIONS] <COMMAND>"
  | keys => "Usage: mapkey keys [OPTIONS]"
  | check => "Usage: mapkey check [OPTIONS]"
  | surface => "Usage: mapkey show [OPTIONS] <SURFACE>"
  | help => "Usage: mapkey help [COMMAND]..."

/-- What stands at a place without a dash in front. -/
def arguments : Place → List (String × String)
  | surface => [("<SURFACE>", "Surface to render")]
  | help => [("[COMMAND]...", "Print help for the subcommand(s)")]
  | _ => []

def configOption : String × String := ("-c, --config <CONFIG>", "Path to configuration file")
def helpOption : String × String := ("-h, --help", "Print help")
def versionOption : String × String := ("-V, --version", "Print version")
def jsonOption : String × String := ("    --json", "Emit JSON instead of a table")

def options : Place → List (String × String)
  | top => [configOption, helpOption, versionOption]
  | keys => [jsonOption, configOption, helpOption]
  | check | surface => [configOption, helpOption]
  | help => []

/-- Rows of two columns, of which the second one lines up. -/
def columns (rows : List (String × String)) : List String :=
  let width := (rows.map (·.1.length)).foldl max 0
  rows.map fun row =>
    "  " ++ Text.leftAligned (width + 2) row.1 ++ row.2

def chapter (heading : String) (rows : List (String × String)) : List String :=
  if rows.isEmpty then [] else "" :: heading :: columns rows

def commandRows : Place → List (String × String)
  | top => commands.map fun c => (c.word, c.about)
  | _ => []

def helpPage (p : Place) : String :=
  let lines := [p.about, "", p.usage] ++ chapter "Commands:" p.commandRows ++
    chapter "Arguments:" p.arguments ++ chapter "Options:" p.options
  "\n".intercalate lines ++ "\n"

def versionLine : String := "mapkey " ++ version ++ "\n"

end Place

end Registrar
