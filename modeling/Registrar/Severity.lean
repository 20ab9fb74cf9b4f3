import Registrar.Fault
import Registrar.Text.LowerCase

/-!
# Severities

How much an event matters. A configured level is read without regard to case and knows one
synonym.
-/

namespace Registrar

inductive Severity where
  | trace | debug | info | warn | error
deriving DecidableEq, Repr

namespace Severity

/-- Ascending from the least severe. -/
def rank : Severity → Nat
  | trace => 0 | debug => 1 | info => 2 | warn => 3 | error => 4

def word : Severity → String
  | trace => "trace" | debug => "debug" | info => "info" | warn => "warn" | error => "error"

def capitals : Severity → String
  | trace => "TRACE" | debug => "DEBUG" | info => "INFO" | warn => "WARN" | error => "ERROR"

def all : List Severity := [error, warn, info, debug, trace]

def ofLowerCase? : String → Option Severity
  | "trace" => some trace
  | "debug" => some debug
  | "info" => some info
  | "warn" | "warning" => some warn
  | "error" => some error
  | _ => none

def unknownLevel (level : String) : Fault :=
  .configuration
    ("Invalid log level: " ++ level ++ ". Use trace, debug, info, warn, or error") none

def parse (level : String) : Except Fault Severity :=
  match ofLowerCase? (Text.lowerCase level) with
  | some severity => .ok severity
  | none => .error (unknownLevel level)

end Severity

end Registrar
