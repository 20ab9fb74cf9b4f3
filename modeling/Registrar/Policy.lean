/-!
# Duplicate policies

What a second registration under the same key does: it is refused, or it takes the place of the
first.
-/

namespace Registrar

inductive Policy where
  | reject | replace
deriving DecidableEq, Repr

namespace Policy

instance : Inhabited Policy := ⟨reject⟩

def name : Policy → String
  | reject => "reject"
  | replace => "replace"

def inspect : Policy → String
  | reject => "Reject"
  | replace => "Replace"

def all : List Policy := [reject, replace]

def ofName? (text : String) : Option Policy := all.find? (·.name = text)

end Policy

end Registrar
