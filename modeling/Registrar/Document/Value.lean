import Registrar.Config.Value
import Registrar.Document.Moment
import Registrar.Document.Number

/-!
# Values and keys in a document

A value is a text, a word (a truth value, a number or a moment), a list, or a table on one line.
Lists may run over lines and hold comments. `depth` bounds how deeply lists and tables nest, and
`fuel` the number of steps, of which a value takes at most one per character.

The members of a table on one line may be given by dotted keys, so they are collected first and
put together by `Node.assign`.
-/

namespace Registrar.Document

/-- How many values a value may be nested in, and how many parts a dotted key may have. -/
def nestingLimit : Nat := 79

/-- Where a table comes from: its own header, the header of a table inside it, or a dotted key. -/
inductive TableKind where
  | explicit | implicit | dotted
deriving DecidableEq, Repr

/-- A document under construction. -/
inductive Node where
  | value (v : Value)
  | table (kind : TableKind) (members : List (String × Node))
  | tables (items : List (List (String × Node)))

namespace Node

abbrev Members := List (String × Node)

def replace (name : String) (node : Node) : Members → Members
  | [] => [(name, node)]
  | (x, y) :: rest => if x = name then (x, node) :: rest else (x, y) :: replace name node rest

/-- Gives the member at the end of a dotted key its value. Only tables that no header has opened
can be extended so, and the innermost only if dotted keys have made it. -/
def assign (name : String) (v : Value) : List String → Members → Option Members
  | [], members => if (members.lookup name).isSome then none else some (members ++ [(name, value v)])
  | part :: path, members =>
    match members.lookup part with
    | none => do return members ++ [(part, table .dotted (← assign name v path []))]
    | some (table kind inner) =>
      if kind = .explicit ∨ (path = [] ∧ kind ≠ .dotted) then none
      else do return replace part (table kind (← assign name v path inner)) members
    | some (tables items) =>
      if path = [] then none
      else do
        let last ← items.getLast?
        return replace part (tables (items.dropLast ++ [← assign name v path last])) members
    | some (value _) => none

mutual

def toValue : Node → Value
  | value v => v
  | table _ members => .dict .document (toMembers members)
  | tables items => .list .document (toItems items)

def toMembers : Members → Value.Members
  | [] => []
  | (name, node) :: rest => Value.insertMember name node.toValue (toMembers rest)

def toItems : List Members → List Value
  | [] => []
  | members :: rest => .dict .document (toMembers members) :: toItems rest

end

end Node

def skipSpaces (cs : List Char) : List Char := cs.dropWhile isSpace

def isBareChar (c : Char) : Bool := c.isAlphanum || c = '_' || c = '-'

def readKeyPart (cs : List Char) : Option (String × List Char) :=
  match cs with
  | '"' :: rest => asString (readQuoted rest)
  | '\'' :: rest => asString (readVerbatim rest)
  | _ =>
    let name := cs.takeWhile isBareChar
    if name.isEmpty then none else some (String.ofList name, cs.dropWhile isBareChar)

/-- The parts of a dotted key, blanks around the dots left out. -/
def readKeyParts : Nat → List Char → Option (List String × List Char)
  | 0, _ => none
  | fuel + 1, cs => do
    let (part, rest) ← readKeyPart cs
    match skipSpaces rest with
    | '.' :: more =>
      let (parts, rest) ← readKeyParts fuel (skipSpaces more)
      return (part :: parts, rest)
    | _ => return ([part], rest)

def readKey (cs : List Char) : Option (List String × List Char) := readKeyParts nestingLimit cs

/-- After a comment's mark, up to the end of its line. -/
def skipComment : List Char → Option (List Char)
  | [] => some []
  | '\n' :: rest => some ('\n' :: rest)
  | '\r' :: '\n' :: rest => some ('\r' :: '\n' :: rest)
  | c :: rest => if isAllowed c then skipComment rest else none

/-- What may stand between the items of a list: blanks, line breaks and comments. -/
def skipGap : Nat → List Char → Option (List Char)
  | 0, _ => none
  | fuel + 1, cs =>
    match skipSpaces cs with
    | '\n' :: rest => skipGap fuel rest
    | '\r' :: '\n' :: rest => skipGap fuel rest
    | '#' :: rest => do skipGap fuel (← skipComment rest)
    | rest => some rest

def isWordChar (c : Char) : Bool := c.isAlphanum || c ∈ ['+', '-', '.', '_', ':']

def looksLikeHour : List Char → Bool
  | a :: b :: ':' :: _ => a.isDigit && b.isDigit
  | _ => false

/-- A word, in which a blank may part a date from a time. -/
def splitWord (cs : List Char) : List Char × List Char :=
  let word := cs.takeWhile isWordChar
  let rest := cs.dropWhile isWordChar
  match readDate word, rest with
  | some (_, []), ' ' :: more =>
    if looksLikeHour more then
      (word ++ ' ' :: more.takeWhile isWordChar, more.dropWhile isWordChar)
    else (word, rest)
  | _, _ => (word, rest)

/-- A moment is a table with one member, under a name that no key is meant to have. -/
def momentValue (text : String) : Value :=
  .dict .document [("$__toml_private_datetime", .scalar .document (.text text))]

def readWord (word : List Char) : Option Value :=
  match String.ofList word with
  | "true" => some (.scalar .document (.truth true))
  | "false" => some (.scalar .document (.truth false))
  | _ =>
    match readMoment word with
    | some text => some (momentValue text)
    | none =>
      match readInteger word with
      | some i => some (.scalar .document (.signed i))
      | none => (readReal word).map fun d => .scalar .document (.real d)

mutual

def readValue (depth : Nat) : Nat → List Char → Option (Value × List Char)
  | 0, _ => none
  | fuel + 1, cs =>
    match cs with
    | '"' :: _ | '\'' :: _ => (readText cs).map fun (s, rest) => (.scalar .document (.text s), rest)
    | '[' :: rest =>
      if depth = 0 then none
      else (readItems (depth - 1) fuel rest).map fun (items, rest) => (.list .document items, rest)
    | '\x7b' :: rest =>
      if depth = 0 then none
      else match skipSpaces rest with
        | '\x7d' :: rest => some (.dict .document [], rest)
        | rest =>
          (readMembers (depth - 1) fuel [] rest).map fun (members, rest) =>
            (.dict .document (Node.toMembers members), rest)
    | _ =>
      let (word, rest) := splitWord cs
      (readWord word).map (·, rest)

/-- The items of a list, up to its end; a comma may follow the last one. -/
def readItems (depth : Nat) : Nat → List Char → Option (List Value × List Char)
  | 0, _ => none
  | fuel + 1, cs => do
    match ← skipGap (cs.length + 1) cs with
    | ']' :: rest => return ([], rest)
    | start =>
      let (item, rest) ← readValue depth fuel start
      match ← skipGap (rest.length + 1) rest with
      | ']' :: rest => return ([item], rest)
      | ',' :: rest =>
        let (items, rest) ← readItems depth fuel rest
        return (item :: items, rest)
      | _ => none

/-- The members of a table on one line, up to its end; no comma follows the last one. -/
def readMembers (depth : Nat) : Nat → Node.Members → List Char → Option (Node.Members × List Char)
  | 0, _, _ => none
  | fuel + 1, members, cs => do
    let (key, rest) ← readKey (skipSpaces cs)
    match skipSpaces rest with
    | '=' :: rest =>
      let (v, rest) ← readValue depth fuel (skipSpaces rest)
      let name ← key.getLast?
      let members ← Node.assign name v key.dropLast members
      match skipSpaces rest with
      | '\x7d' :: rest => return (members, rest)
      | ',' :: rest => readMembers depth fuel members rest
      | _ => none
    | _ => none

end

end Registrar.Document
