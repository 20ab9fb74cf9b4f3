import Registrar.Key.TypeName

/-!
# The names of types

The grammar of the full names of types, with the text of each. A text falls into its lead, the
module path in front of the head name with the `dyn` and reference marks before it, and its own
part from the head name on. What has no head name of its own, such as a slice or a tuple, has none
of this but the reference marks before it.
-/

namespace Registrar.TypeName

def brackets : List Char := ['<', '>', '(', ')', '[', ']']

/-- A name between the marks of a text. -/
structure Word where
  chars : List Char
  proper : chars.all (fun c => c ∉ ':' :: '-' :: brackets) = true := by decide

/-- A path of plain modules from the crate on. -/
structure Modules where
  crate : Word
  inner : List Word

inductive Kind
  | type
  | argument
  | bound

def Kind.separator : Kind → List Char
  | .type | .argument => [',', ' ']
  | .bound => [' ', '+', ' ']

/-- The places a phrase can take in the text of a type. -/
inductive Part
  | one (kind : Kind)
  | more (kind : Kind)
  | types
  | path
  | arguments
  | result

/-- What can stand outside of angle brackets. -/
def Part.Outer : Part → Prop
  | .one .argument | .more .argument | .arguments => False
  | _ => True

/-- The grammar: types, and the parts they are made of. -/
inductive Phrase : Part → Type
  | plain (name : Word) : Phrase (.one .type)
  | named (path : Phrase .path) (head : Word) (arguments : Phrase .arguments) : Phrase (.one .type)
  | object (first : Phrase (.one .bound)) (further : Phrase (.more .bound)) : Phrase (.one .type)
  | reference (mutable : Bool) (target : Phrase (.one .type)) : Phrase (.one .type)
  | pointer (mutable : Bool) (target : Phrase (.one .type)) : Phrase (.one .type)
  | slice (element : Phrase (.one .type)) : Phrase (.one .type)
  | array (element : Phrase (.one .type)) (length : Word) : Phrase (.one .type)
  | tuple (members : Phrase .types) : Phrase (.one .type)
  -- Bounds joined by a `+` are put between round brackets where they could be misread.
  | group (inner : Phrase (.one .type)) : Phrase (.one .type)
  | function (marks : List Word) (inputs : Phrase .types) (output : Phrase .result) :
    Phrase (.one .type)
  -- The first bound of an object is its trait. One of the `Fn` family shows its inputs as a call.
  | trait (modules : Modules) (name : Word) (arguments : Phrase .arguments) : Phrase (.one .bound)
  | callable (modules : Modules) (name : Word) (inputs : Phrase .types) (output : Phrase .result) :
    Phrase (.one .bound)
  -- Between angle brackets stand types, associated types and constants, these with any text.
  | ofType (type : Phrase (.one .type)) : Phrase (.one .argument)
  | associated (name : Word) (type : Phrase (.one .type)) : Phrase (.one .argument)
  | constant (value : List Char) : Phrase (.one .argument)
  | stop {kind : Kind} : Phrase (.more kind)
  | next {kind : Kind} (first : Phrase (.one kind)) (rest : Phrase (.more kind)) :
    Phrase (.more kind)
  | noTypes : Phrase .types
  | types (first : Phrase (.one .type)) (rest : Phrase (.more .type)) : Phrase .types
  -- What is declared inside of a generic item has the arguments of the item in its path.
  | inModule (modules : Modules) : Phrase .path
  | inItem (path : Phrase .path) (name : Word) (arguments : Phrase .arguments) : Phrase .path
  | bare : Phrase .arguments
  | angled (first : Phrase (.one .argument)) (rest : Phrase (.more .argument)) : Phrase .arguments
  | silent : Phrase .result
  | returns (type : Phrase (.one .type)) : Phrase .result

def Modules.text (modules : Modules) : List Char :=
  (modules.crate :: modules.inner).flatMap fun name => name.chars ++ [':', ':']

namespace Phrase

def referenceMark (mutable : Bool) : List Char :=
  if mutable then "&mut ".toList else ['&']

def pointerMark (mutable : Bool) : List Char :=
  if mutable then "*mut ".toList else "*const ".toList

/-- A tuple of one type is told from a type between brackets by its comma. -/
def trailing : Phrase .types → List Char
  | types _ .stop => [',']
  | _ => []

def text {part : Part} : Phrase part → List Char
  | plain name => name.chars
  | named path head arguments => path.text ++ (head.chars ++ arguments.text)
  | object first further => "dyn ".toList ++ (first.text ++ further.text)
  | reference mutable target => referenceMark mutable ++ target.text
  | pointer mutable target => pointerMark mutable ++ target.text
  | slice element => '[' :: (element.text ++ [']'])
  | array element length => '[' :: (element.text ++ (';' :: ' ' :: length.chars ++ [']']))
  | tuple members => '(' :: (members.text ++ (members.trailing ++ [')']))
  | group inner => '(' :: (inner.text ++ [')'])
  | function marks inputs output =>
    marks.flatMap (·.chars ++ [' ']) ++ ("fn(".toList ++ (inputs.text ++ (')' :: output.text)))
  | trait modules name arguments => modules.text ++ (name.chars ++ arguments.text)
  | callable modules name inputs output =>
    modules.text ++ (name.chars ++ ('(' :: (inputs.text ++ (')' :: output.text))))
  | ofType type => type.text
  | associated name type => name.chars ++ (" = ".toList ++ type.text)
  | constant value => value
  | stop => []
  | @next kind first rest => kind.separator ++ (first.text ++ rest.text)
  | noTypes => []
  | types first rest => first.text ++ rest.text
  | inModule modules => modules.text
  | inItem path name arguments => path.text ++ (name.chars ++ (arguments.text ++ [':', ':']))
  | bare => []
  | angled first rest => '<' :: (first.text ++ (rest.text ++ ['>']))
  | silent => []
  | returns type => " -> ".toList ++ type.text

def lead {part : Part} : Phrase part → List Char
  | named path _ _ => path.text
  | object first _ => "dyn ".toList ++ first.lead
  | reference mutable target => referenceMark mutable ++ target.lead
  | trait modules _ _ => modules.text
  | callable modules _ _ _ => modules.text
  | _ => []

def own {part : Part} : Phrase part → List Char
  | named _ head arguments => head.chars ++ arguments.text
  | object first further => first.own ++ further.text
  | reference _ target => target.own
  | trait _ name arguments => name.chars ++ arguments.text
  | callable _ name inputs output =>
    name.chars ++ ('(' :: (inputs.text ++ (')' :: output.text)))
  | phrase => phrase.text

def name : Phrase (.one .bound) → List Char
  | trait _ name _ => name.chars
  | callable _ name _ _ => name.chars

def typeName (type : Phrase (.one .type)) : TypeName := ⟨String.ofList type.text⟩

theorem lead_append_own {part : Part} (phrase : Phrase part) :
    phrase.lead ++ phrase.own = phrase.text := by
  induction phrase with
  | object first further ih _ =>
    rw [lead, own, text, ← ih]
    simp only [List.append_assoc]
  | reference mutable target ih => rw [lead, own, text, ← ih, List.append_assoc]
  | _ => rfl

theorem name_prefix_own (bound : Phrase (.one .bound)) : bound.name <+: bound.own := by
  cases bound <;> exact List.prefix_append _ _

end Phrase

def closer? : Char → Option Char
  | '<' => some '>'
  | '(' => some ')'
  | '[' => some ']'
  | _ => none

/-- Every bracket closes the last open one, from the closing brackets that are awaited. The end of
an arrow is no bracket. -/
def closes : List Char → List Char → Bool
  | awaited, [] => awaited.isEmpty
  | awaited, '-' :: '>' :: rest => closes awaited rest
  | awaited, c :: rest =>
    match closer? c with
    | some closer => closes (closer :: awaited) rest
    | none =>
      if c ∈ brackets then awaited.head? = some c && closes awaited.tail rest
      else closes awaited rest

def Balanced (s : List Char) : Prop := closes [] s

instance : DecidablePred Balanced := fun s => inferInstanceAs (Decidable (closes [] s))

theorem closes_cons {c : Char} (free : c ∉ '-' :: brackets) (awaited rest : List Char) :
    closes awaited (c :: rest) = closes awaited rest := by
  simp only [brackets, List.mem_cons, not_or] at free
  rw [closes]
  · have : closer? c = none := by
      unfold closer?
      split <;> simp_all
    rw [this]
    simp [brackets, free]
  · grind

theorem closes_append {s : List Char} (free : ∀ c ∈ s, c ∉ '-' :: brackets)
    (awaited rest : List Char) : closes awaited (s ++ rest) = closes awaited rest := by
  induction s with
  | nil => rfl
  | cons c s ih =>
    rw [List.forall_mem_cons] at free
    rw [List.cons_append, closes_cons free.1, ih free.2]

end Registrar.TypeName
