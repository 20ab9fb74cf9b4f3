import Registrar.Registry.Composition
import Registrar.Scope.Step
import Registrar.Surface.Family

/-!
# The sample application

Both registries of surfaces, composed from one configuration.
-/

namespace Registrar

structure Application where
  config : Config
  surfaces : Registry SurfaceKind Surface.Maker
  surfaceTypes : Registry TypeKey Surface.Maker

namespace Application

/-- Composes an application from entries in any order. -/
def compose (kinds : List (Entry SurfaceKind SurfaceKind)) (types : List (Entry TypeKey SurfaceKind))
    (config : Config) : List Event × Except Fault Application :=
  match composeClosed id "surfaces" kinds config with
  | (events, .error fault) => (events, .error fault)
  | (events, .ok surfaces) =>
    match Registrar.compose id "surface_types" types config with
    | (more, .error fault) => (events ++ more, .error fault)
    | (more, .ok surfaceTypes) =>
      (events ++ more ++ [.applicationReady surfaces.size surfaceTypes.size],
        .ok ⟨config, surfaces, surfaceTypes⟩)

def new : Config → List Event × Except Fault Application :=
  compose Surface.kindEntries Surface.typeEntries

def surface (a : Application) (kind : SurfaceKind) : Except Fault Surface :=
  a.surfaces.create Surface.provide kind

def surfaceOf (a : Application) (type : TypeKey) : Except Fault Surface :=
  a.surfaceTypes.create Surface.provide type

def surfaceAs (a : Application) (type : TypeKey) : Except Fault Surface := do
  narrow type type (← a.surfaceOf type)

def defaultSurface (a : Application) : Except Fault Surface := a.surfaceOf Surface.interfaceType

def inspect (a : Application) : String :=
  "AppContext \x7b surfaces: " ++ a.surfaces.inspect ++ ", surface_types: " ++
    a.surfaceTypes.inspect ++ " \x7d"

end Application

end Registrar
