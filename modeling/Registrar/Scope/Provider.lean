import Registrar.Scope.World

/-!
# Described providers

Providers whose behaviour is written down. A recipe tells how a provider behaves from call to call
and makes at most one request of its own, on its first call; what it makes may have one request to
make when it is let go. A factory makes its text from the context of its entry.
-/

namespace Registrar

/-- What a described provider makes. -/
structure Item where
  text : String
  type : TypeKey
deriving DecidableEq, Repr

instance : HasType Item := ⟨Item.type⟩

structure Recipe (H K : Type) where
  item : Item
  /-- Every call fails with this. -/
  failure : Option Fault
  /-- That many calls fail before the first success. -/
  failures : Nat
  onFirstCall : Option (H × K)
  onRelease : Option (H × K)

inductive Wording where
  | setting (name fallback : String)
  | required (name : String)
  | failing (fault : Fault)
  | inspected
  | summary

structure Factory where
  wording : Wording
  type : TypeKey

inductive Source (H K : Type) where
  | recipe (r : Recipe H K)
  | factory (f : Factory)

namespace Wording

def summarize (c : Context) : String :=
  c.settings.entries.foldl (fun text e => text ++ "|" ++ e.1 ++ "=" ++ e.2) c.key

def words (c : Context) : Wording → Except Fault String
  | setting name fallback => .ok (c.settingOr name fallback)
  | required name =>
    match c.setting name with
    | some value => .ok value
    | none => .error (.invalidArgument ("missing setting '" ++ name ++ "' for '" ++ c.key ++ "'"))
  | failing fault => .error fault
  | inspected => .ok c.inspect
  | summary => .ok (summarize c)

end Wording

def Factory.make (f : Factory) (c : Context) : Except Fault Item :=
  (f.wording.words c).map (⟨·, f.type⟩)

namespace Recipe

variable {H K : Type}

def answer (r : Recipe H K) (number : Nat) : Except Fault Item :=
  match r.failure with
  | some fault => .error fault
  | none =>
    if number ≤ r.failures then .error (.invalidArgument ("attempt " ++ toString number))
    else .ok r.item

/-- Makes the request, if there is one, and goes on whatever the reply. -/
def after (request : Option (H × K)) (result : α) : Errand H K R α :=
  match request with
  | some (scope, key) => .request scope key fun _ => .done result
  | none => .done result

def produce (r : Recipe H K) (number : Nat) : Errand H K R (Except Fault (Yield P Item)) :=
  after (if number = 1 then r.onFirstCall else none) ((r.answer number).map .fresh)

def release (r : Recipe H K) : Errand H K R Unit := after r.onRelease ()

end Recipe

/-- A described provider is known by its number in a catalogue; one that stands for an entry has
the context of the entry besides. -/
structure Supplier where
  number : Nat
  context : Option Context
deriving DecidableEq

abbrev Catalogue (H K : Type) := List (Source H K)

namespace Catalogue

variable {H K : Type}

def produce (catalogue : Catalogue H K) (s : Supplier) (number : Nat) :
    Errand H K R (Except Fault (Yield P Item)) :=
  match catalogue[s.number]? with
  | some (.recipe r) => r.produce number
  | some (.factory f) => .done ((f.make (s.context.getD .empty)).map .fresh)
  | none => .done (.error (.foreign "no such provider" none))

def release (catalogue : Catalogue H K) (s : Supplier) : Errand H K R Unit :=
  match catalogue[s.number]? with
  | some (.recipe r) => r.release
  | _ => .done ()

def conduct (c : Catalogue H K) : Conduct H K Supplier Item :=
  ⟨c.produce, fun held _ => c.release held.maker⟩

/-- Deep enough for any run: each provider nests a request on its first call only, and a release
starts from the top. -/
def depth (c : Catalogue H K) : Nat := c.length + 1

end Catalogue

end Registrar
