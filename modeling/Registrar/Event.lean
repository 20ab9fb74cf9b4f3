import Registrar.Policy
import Registrar.Severity

/-!
# Events

What the program reports while it works. An event has a severity, a target (the part of the
program that reports it), a fixed message and named fields.
-/

namespace Registrar

/-- A `text` is quoted where fields are written in a line, a `shown` one is not. -/
inductive Field where
  | text (value : String)
  | shown (value : String)
  | count (value : Nat)
deriving DecidableEq, Repr

inductive Event where
  | bindingRegistered (key : String)
  | bindingReplaced (key previous : String)
  | registryBuilt (bindings : Nat) (policy : Policy)
  | compositionFailed (family error : String)
  | registryComposed (family : String) (bindings : Nat)
  | familyIncomplete (family error : String)
  | instanceCreated (scope key : String)
  | duplicateDiscarded (scope key : String)
  | scopeCleared (scope : String) (count : Nat)
  | scopeDisposed (scope : String) (count : Nat)
  | applicationReady (surfaces surfaceTypes : Nat)
  | settingsReleased (theme : String)
  | configurationLoaded (path : String)
  | configurationMissing (path : String)
  | loggingInitialized (level : Severity)
deriving DecidableEq, Repr

namespace Event

def severity : Event → Severity
  | bindingRegistered _ | instanceCreated _ _ | duplicateDiscarded _ _ | scopeCleared _ _
  | scopeDisposed _ _ | settingsReleased _ => .debug
  | registryBuilt _ _ | registryComposed _ _ | applicationReady _ _ | configurationLoaded _
  | loggingInitialized _ => .info
  | bindingReplaced _ _ | configurationMissing _ => .warn
  | compositionFailed _ _ | familyIncomplete _ _ => .error

def target : Event → String
  | bindingRegistered _ | bindingReplaced _ _ | registryBuilt _ _ =>
    "mapkey_application::registry::builder"
  | compositionFailed _ _ | registryComposed _ _ | familyIncomplete _ _ =>
    "mapkey_infrastructure::di::bootstrap"
  | instanceCreated _ _ | duplicateDiscarded _ _ | scopeCleared _ _ | scopeDisposed _ _ =>
    "mapkey_application::scope"
  | applicationReady _ _ => "mapkey::context"
  | settingsReleased _ => "mapkey::surfaces::settings"
  | configurationLoaded _ | configurationMissing _ | loggingInitialized _ =>
    "mapkey_infrastructure::logging"

def message : Event → String
  | bindingRegistered _ => "Registered binding"
  | bindingReplaced _ _ => "Replacing existing binding"
  | registryBuilt _ _ => "Built keyed registry"
  | compositionFailed _ _ => "Registry composition failed"
  | registryComposed _ _ => "Registry composed"
  | familyIncomplete _ _ => "Closed key set is not fully bound"
  | instanceCreated _ _ => "Scoped instance created"
  | duplicateDiscarded _ _ => "Scoped instance already stored, discarding duplicate"
  | scopeCleared _ _ => "Scope cleared"
  | scopeDisposed _ _ => "Scope disposed"
  | applicationReady _ _ => "Application context ready"
  | settingsReleased _ => "Settings surface released"
  | configurationLoaded path => "Configuration loaded from " ++ path
  | configurationMissing path => "Configuration file not found: " ++ path
  | loggingInitialized level => "Logging initialized with level: " ++ level.capitals

def fields : Event → List (String × Field)
  | bindingRegistered key => [("key", .shown key)]
  | bindingReplaced key previous => [("key", .shown key), ("previous", .text previous)]
  | registryBuilt bindings policy => [("bindings", .count bindings), ("policy", .shown policy.name)]
  | compositionFailed family error => [("family", .text family), ("error", .shown error)]
  | registryComposed family bindings => [("family", .text family), ("bindings", .count bindings)]
  | familyIncomplete family error => [("family", .text family), ("error", .shown error)]
  | instanceCreated scope key => [("scope", .shown scope), ("key", .shown key)]
  | duplicateDiscarded scope key => [("scope", .shown scope), ("key", .shown key)]
  | scopeCleared scope count => [("scope", .shown scope), ("count", .count count)]
  | scopeDisposed scope count => [("scope", .shown scope), ("count", .count count)]
  | applicationReady surfaces surfaceTypes =>
    [("surfaces", .count surfaces), ("surface_types", .count surfaceTypes)]
  | settingsReleased theme => [("theme", .shown theme)]
  | configurationLoaded _ | configurationMissing _ | loggingInitialized _ => []

end Event

end Registrar
