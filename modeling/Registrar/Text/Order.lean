/-!
# Order of texts

Texts are ordered by code points, which is also the order of their UTF-8 bytes. Sorting by a text
is stable: what has equal texts keeps its order.
-/

namespace Registrar.Text

def atMost (a b : String) : Bool := !decide (b < a)

def sortBy (text : α → String) (items : List α) : List α :=
  items.mergeSort fun a b => atMost (text a) (text b)

def sort (items : List String) : List String := sortBy id items

end Registrar.Text
