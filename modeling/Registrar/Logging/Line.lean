import Registrar.Event
import Registrar.Text.Json

/-!
# Lines of a log

An event as one line of a log file, either plain or as a JSON object. The time at which it happened
is given as a text. What a console shows of an event besides is left out: the name of the thread and,
in a JSON object, the place in the source that reports it.
-/

namespace Registrar

namespace Field

def plain : Field → String
  | text value => Text.quote value
  | shown value => value
  | count value => toString value

def json : Field → Text.Json
  | text value | shown value => .text value
  | count value => .number value

end Field

namespace Event

/-- The line after the time and the severity. -/
def text (e : Event) : String :=
  e.fields.foldl (fun line f => line ++ " " ++ f.1 ++ "=" ++ f.2.plain)
    (" " ++ e.target ++ ": " ++ e.message)

/-- The line without the time. -/
def plainLine (e : Event) : String := e.severity.capitals ++ e.text

def json (time : String) (e : Event) : Text.Json :=
  .object [("timestamp", .text time), ("level", .text e.severity.capitals),
    ("fields", .object (("message", .text e.message) :: e.fields.map fun f => (f.1, f.2.json))),
    ("target", .text e.target)]

/-- The line in a log file. Severities line up on their right sides. -/
def line (json : Bool) (time : String) (e : Event) : String :=
  if json then (e.json time).compact
  else time ++ " " ++ Text.rightAligned 5 e.severity.capitals ++ e.text

end Event

end Registrar
