import Registrar.Config.Basic
import Registrar.Registry.Basic

/-!
# Composition

A family of entries becomes a registry as the configuration says. A closed family is checked for
completeness afterwards, if the configuration asks for it. Every composition reports how it
ended.
-/

namespace Registrar

variable {K F P : Type} [DecidableEq K] [Key K]

def compose (make : Furnished F → P) (family : String) (entries : List (Entry K F))
    (config : Config) : List Event × Except Fault (Registry K P) :=
  let start : Builder K P := Builder.new.withPolicy config.registry.duplicatePolicy
  match start.addEntries make config.settings entries with
  | (_, events, some fault) =>
    (events ++ [.compositionFailed family fault.message], .error fault)
  | (builder, events, none) =>
    let (registry, built) := builder.build
    (events ++ [built, .registryComposed family registry.size], .ok registry)

/-- Composes a family of which every key in `variants` has to be served. -/
def composeCovering (variants : List K) (make : Furnished F → P) (family : String)
    (entries : List (Entry K F)) (config : Config) : List Event × Except Fault (Registry K P) :=
  match compose make family entries config with
  | (events, .error fault) => (events, .error fault)
  | (events, .ok registry) =>
    if config.registry.requireComplete then
      match registry.ensureCovers variants with
      | .ok () => (events, .ok registry)
      | .error fault => (events ++ [.familyIncomplete family fault.message], .error fault)
    else (events, .ok registry)

def composeClosed {K : Type} [DecidableEq K] [ClosedKey K] (make : Furnished F → P)
    (family : String) (entries : List (Entry K F)) (config : Config) :
    List Event × Except Fault (Registry K P) :=
  composeCovering ClosedKey.variants make family entries config

end Registrar
