import Registrar.Fault
import Registrar.Key

/-!
# Kinds of surfaces

The keys of the surface family. A kind is read without regard to ASCII case and to blanks around
its name.
-/

namespace Registrar

inductive SurfaceKind where
  | home | settings | about
deriving DecidableEq, Repr

namespace SurfaceKind

def name : SurfaceKind → String
  | home => "home"
  | settings => "settings"
  | about => "about"

def inspect : SurfaceKind → String
  | home => "Home"
  | settings => "Settings"
  | about => "About"

def all : List SurfaceKind := [home, settings, about]

instance : ClosedKey SurfaceKind where
  label := name
  name := name
  inspect := inspect
  objection _ := none
  variants := all

def foldCase (cs : List Char) : List Char := cs.map Char.toLower

def readAs (text : String) (kind : SurfaceKind) : Bool :=
  foldCase (Text.trimChars text.toList) = foldCase kind.name.toList

def parse (text : String) : Except Fault SurfaceKind :=
  match all.find? (readAs text) with
  | some kind => .ok kind
  | none => .error (.unknownKey text (Key.labels all))

def index (kind : SurfaceKind) : Nat := all.idxOf kind

end SurfaceKind

end Registrar
