import Registrar.Application
import Registrar.Text.Digits
import Registrar.Text.Json

/-!
# Commands

What can be asked of the sample application: a listing of all bindings, a check that every surface
can be built, and one surface. A command writes to a sink, which takes each piece as a whole or
fails.
-/

namespace Registrar

/-- Where output goes. A sink with a capacity takes no piece that would exceed it, in bytes. -/
structure Sink where
  capacity : Option Nat
  written : String

namespace Sink

def unbounded : Sink := ⟨none, ""⟩

def fits (s : Sink) (text : String) : Bool :=
  match s.capacity with
  | none => true
  | some bytes => text.utf8ByteSize ≤ bytes

def write (s : Sink) (piece : String) : Except Fault Sink :=
  let written := s.written ++ piece
  if s.fits written then .ok { s with written } else .error (.foreign "writer is full" none)

def writeLine (s : Sink) (line : String) : Except Fault Sink := s.write (line ++ "\n")

def writeLines (s : Sink) (lines : List String) : Except Fault Sink := lines.foldlM writeLine s

end Sink

/-- One line of the listing. -/
structure BindingReport where
  registry : String
  key : String
  name : String
  description : String
  aliases : List String
deriving DecidableEq, Repr

namespace BindingReport

def ofBinding [Key K] (registry : String) (b : Binding K P) : BindingReport :=
  ⟨registry, Key.label b.key, Key.name b.key, b.description, Text.sort (b.aliases.map Key.name)⟩

def ofRegistry [DecidableEq K] [Key K] (name : String) (r : Registry K P) : List BindingReport :=
  r.sortedBindings.map (ofBinding name)

def line (r : BindingReport) : String :=
  let start := Text.leftAligned 14 r.registry ++ " " ++ Text.leftAligned 18 r.name ++ " " ++ r.description
  if r.aliases.isEmpty then start
  else start ++ " (also serves: " ++ ", ".intercalate r.aliases ++ ")"

def json (r : BindingReport) : Text.Json :=
  .object [("registry", .text r.registry), ("key", .text r.key), ("name", .text r.name),
    ("description", .text r.description), ("aliases", .array (r.aliases.map .text))]

end BindingReport

namespace Application

def reports (a : Application) : List BindingReport :=
  BindingReport.ofRegistry "surfaces" a.surfaces ++ BindingReport.ofRegistry "surface_types" a.surfaceTypes

def listing (a : Application) : String := (Text.Json.array (a.reports.map (·.json))).render 0

def listKeys (a : Application) (json : Bool) (out : Sink) : Except Fault Sink :=
  if json then do
    let out ← (out.write a.listing).mapError (.during "Failed to encode key listing")
    out.writeLine ""
  else out.writeLines (a.reports.map (·.line))

/-- Builds the instance of every binding and counts them. -/
def buildAll [DecidableEq K] [Key K] (what : String) (r : Registry K Surface.Maker) :
    List (Binding K Surface.Maker) → Except Fault Nat
  | [] => .ok 0
  | b :: rest => do
    let _ ← (r.create Surface.provide b.key).mapError
      (.during (what ++ " '" ++ Key.name b.key ++ "' failed to build"))
    return (← buildAll what r rest) + 1

def check (a : Application) (out : Sink) : Except Fault Sink := do
  a.surfaces.ensureComplete.mapError (.during "Surface registry is incomplete")
  let kinds ← buildAll "Surface" a.surfaces a.surfaces.sortedBindings
  let types ← buildAll "Surface type" a.surfaceTypes a.surfaceTypes.sortedBindings
  out.writeLine ("ok: " ++ toString (kinds + types) ++ " bindings built")

def showSurface (a : Application) (kind : SurfaceKind) (out : Sink) : Except Fault Sink := do
  let surface ← (a.surface kind).mapError
    (.during ("Failed to build surface '" ++ kind.name ++ "'"))
  out.writeLines [surface.title, surface.render]

end Application

end Registrar
