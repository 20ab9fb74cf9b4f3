import Registrar.Text.Quoted

/-!
# Faults

A fault says what went wrong, and behind it may stand another one. `message` is the text of the
fault alone, `sources` the texts of those behind it, nearest first. A fault of composition is one
that the people who wire a program together have to mend.
-/

namespace Registrar

inductive Fault where
  | invalidArgument (message : String)
  | duplicateKey (key : String)
  | unknownKey (key : String) (available : List String)
  | ambiguousKey (key : String) (candidates : List String)
  | typeMismatch (key expected : String)
  | provider (key : String) (source : Fault)
  | incompleteRegistry (missing : List String)
  | configuration (message : String) (source : Option Fault)
  | disk (message : String) (source : Option Fault)
  /-- A fault of the surroundings, which has no kind of its own here. -/
  | foreign (message : String) (source : Option Fault)

namespace Fault

def message : Fault → String
  | invalidArgument text => "Invalid argument: " ++ text
  | duplicateKey key => "Duplicate key: '" ++ key ++ "' is already registered"
  | unknownKey key available =>
    "Unknown key: '" ++ key ++ "' is not registered. Available keys: " ++ Text.quoteList available
  | ambiguousKey key candidates =>
    "Ambiguous key: '" ++ key ++ "' is served by " ++ Text.quoteList candidates
  | typeMismatch key expected =>
    "Type mismatch: provider for '" ++ key ++ "' did not produce a " ++ expected
  | provider key source => "Provider for '" ++ key ++ "' failed: " ++ source.message
  | incompleteRegistry missing =>
    "Incomplete registry: missing providers for " ++ Text.quoteList missing
  | configuration text _ => "Configuration error: " ++ text
  | disk text _ => "I/O error: " ++ text
  | foreign text _ => text

/-- The texts of the faults behind a fault, nearest first. -/
def sources : Fault → List String
  | provider _ source => source.message :: source.sources
  | configuration _ (some source) => source.message :: source.sources
  | disk _ (some source) => source.message :: source.sources
  | foreign _ (some source) => source.message :: source.sources
  | _ => []

def isComposition : Fault → Bool
  | invalidArgument _ | duplicateKey _ | incompleteRegistry _ | configuration _ _ => true
  | _ => false

/-- The configuration fault that met `source` while doing what `context` says. -/
def inConfiguration (context : String) (source : Fault) : Fault :=
  configuration (context ++ ": " ++ source.message) (some source)

def onDisk (context : String) (source : Fault) : Fault :=
  disk (context ++ ": " ++ source.message) (some source)

/-- A bare statement of what failed, with the fault behind it. -/
def during (context : String) (source : Fault) : Fault := foreign context (some source)

end Fault

/-- Names what was being configured, in case of a failure. -/
def configContext (context : String) (result : Except Fault α) : Except Fault α :=
  result.mapError (Fault.inConfiguration context)

def diskContext (context : String) (result : Except Fault α) : Except Fault α :=
  result.mapError (Fault.onDisk context)

/-- As `configContext`, with a context that is worked out after a failure only. -/
def configContextBy [Monad m] (context : m String) (result : Except Fault α) :
    m (Except Fault α) :=
  match result with
  | .ok value => pure (.ok value)
  | .error source => do return .error (.inConfiguration (← context) source)

end Registrar
