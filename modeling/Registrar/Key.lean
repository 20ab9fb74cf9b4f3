import Registrar.Text.Blank
import Registrar.Text.Quoted

/-!
# Keys

What a registry is keyed by. A key has a label, which identifies it in faults and in settings, a
shorter name for listings, and the form in which it is inspected. A key with an objection cannot
be bound.
-/

namespace Registrar

class Key (K : Type) where
  label : K → String
  name : K → String
  inspect : K → String
  objection : K → Option String

/-- A family whose keys are known beforehand. -/
class ClosedKey (K : Type) extends Key K where
  variants : List K

namespace Key

variable {K : Type} [Key K]

def labels (keys : List K) : List String := keys.map label

def inspectList (keys : List K) : String := Text.bracketed (keys.map inspect)

end Key

instance : Key String where
  label := id
  name := id
  inspect := Text.quote
  objection text := if Text.isBlankText text then some "key tag cannot be empty" else none

end Registrar
