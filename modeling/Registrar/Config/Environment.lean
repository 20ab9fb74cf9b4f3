import Registrar.Config.Value
import Registrar.Document.Number
import Registrar.Text.Blank
import Registrar.Text.Split

/-!
# Configuration from the environment

A variable whose name starts with the prefix gives one value. The rest of its name is a path,
parted by double underscores or dots and read in lower case; a path with an empty part is no path.

The content of a variable is read loosely: truth values, whole numbers, numbers with a point, a
quoted text, a quoted letter, a list between square brackets or a dictionary between braces.
Anything else is a text, without the blanks around it; and so is content that only begins like one
of these, which is then taken as it stands.
-/

namespace Registrar.Environment

open Document (Rest hexNumber? numbered? escaped? isSpace signedLimit)
open Text (isDigits decimal)

/-- The variables of a process, in order. -/
abbrev Variables := List (String × String)

def isAsciiBlank (c : Char) : Bool := c ∈ [' ', '\t', '\n', '\x0c', '\r']

def skipBlanks (cs : List Char) : List Char := cs.dropWhile isAsciiBlank

def isSeparator (c : Char) : Bool := c ∈ [',', '\x7b', '\x7d', '[', ']']

def isNameChar (c : Char) : Bool := c.isAlphanum || c = '_' || c = '-'

/-- A quoted text up to its closing quote, in which a backslash hides the quote after it. -/
def splitQuoted : List Char → Option (List Char × List Char)
  | [] => none
  | '"' :: rest => some ([], rest)
  | '\\' :: c :: rest => (splitQuoted rest).map fun (cs, rest) => ('\\' :: c :: cs, rest)
  | c :: rest => (splitQuoted rest).map fun (cs, rest) => (c :: cs, rest)

def readQuoted (cs : List Char) : Option (String × List Char) := do
  let (inner, rest) ← splitQuoted cs
  match Document.readQuoted (inner ++ ['"']) with
  | some (text, []) => return (String.ofList text, rest)
  | _ => none

/-- The least number that does not fit into 64 bits. -/
def unsignedLimit : Nat := 18446744073709551616

def unsigned? (cs : List Char) : Option Nat := (Text.natural? cs).filter (· < unsignedLimit)

def signed? (cs : List Char) : Option Int :=
  match cs with
  | '-' :: digits =>
    if isDigits digits ∧ decimal digits ≤ signedLimit then some (-(decimal digits : Int)) else none
  | _ => none

/-- The power of ten after the digits of a number. -/
def exponent? (cs : List Char) : Option Int :=
  match cs with
  | [] => some 0
  | c :: rest =>
    let negative := rest.head? = some '-'
    let digits := if negative ∨ rest.head? = some '+' then rest.drop 1 else rest
    if (c = 'e' ∨ c = 'E') ∧ isDigits digits then
      some (if negative then -(decimal digits : Int) else decimal digits)
    else none

/-- A number with a point; digits may be missing on one side of it. -/
def real? (cs : List Char) : Option Double := do
  let negative := cs.head? = some '-'
  let cs := if negative ∨ cs.head? = some '+' then cs.drop 1 else cs
  let whole := cs.takeWhile Char.isDigit
  match cs.dropWhile Char.isDigit with
  | '.' :: rest =>
    let fraction := rest.takeWhile Char.isDigit
    let exponent ← exponent? (rest.dropWhile Char.isDigit)
    if whole.isEmpty ∧ fraction.isEmpty then none
    else some (.ofDecimal negative (decimal (whole ++ fraction)) (exponent - fraction.length))
  | _ => none

def plainScalar (cs : List Char) : Scalar :=
  match real? cs with
  | some d => .real d
  | none =>
    match unsigned? cs with
    | some n => .unsigned n
    | none =>
      match signed? cs with
      | some i => .signed i
      | none => .text (String.ofList cs)

def plain (cs : List Char) : Value × List Char :=
  let word := cs.takeWhile (!isSeparator ·)
  (.scalar .environment (plainScalar (Text.trimChars word)), cs.dropWhile (!isSeparator ·))

def scalarThen (s : Scalar) (rest : List Char) : Option (Value × List Char) :=
  some (.scalar .environment s, skipBlanks rest)

def readName (cs : List Char) : Option (String × List Char) :=
  match cs with
  | '"' :: rest => readQuoted rest
  | _ =>
    let name := cs.takeWhile isNameChar
    if name.isEmpty then none else some (String.ofList name, cs.dropWhile isNameChar)

mutual

/-- One value at the start of a text. `fuel` bounds the number of steps. -/
def readValue : Nat → List Char → Option (Value × List Char)
  | 0, _ => none
  | fuel + 1, cs =>
    match skipBlanks cs with
    | 't' :: 'r' :: 'u' :: 'e' :: rest => scalarThen (.truth true) rest
    | 'f' :: 'a' :: 'l' :: 's' :: 'e' :: rest => scalarThen (.truth false) rest
    | '\x7b' :: rest => (readMembers fuel [] rest).map fun (members, rest) =>
        (.dict .environment members, skipBlanks rest)
    | '[' :: rest => (readItems fuel rest).map fun (items, rest) =>
        (.list .environment items, skipBlanks rest)
    | '"' :: rest => do
      let (text, rest) ← readQuoted rest
      scalarThen (.text text) rest
    | '\'' :: c :: '\'' :: rest => scalarThen (.letter c) rest
    | '\'' :: _ => none
    | start =>
      let (v, rest) := plain start
      some (v, skipBlanks rest)

def readItems : Nat → List Char → Option (List Value × List Char)
  | 0, _ => none
  | fuel + 1, cs =>
    match cs with
    | ']' :: rest => some ([], rest)
    | _ => do
      let (item, rest) ← readValue fuel cs
      match rest with
      | ',' :: rest =>
        let (items, rest) ← readItems fuel rest
        return (item :: items, rest)
      | ']' :: rest => return ([item], rest)
      | _ => none

def readMembers : Nat → Value.Members → List Char → Option (Value.Members × List Char)
  | 0, _, _ => none
  | fuel + 1, members, cs =>
    match cs with
    | '\x7d' :: rest => some (members, rest)
    | _ => do
      let (name, rest) ← readName (skipBlanks cs)
      match skipBlanks rest with
      | '=' :: rest =>
        let (v, rest) ← readValue fuel rest
        let members := Value.insertMember name v members
        match rest with
        | ',' :: rest => readMembers fuel members rest
        | '\x7d' :: rest => return (members, rest)
        | _ => none
      | _ => none

end

/-- The value of a variable with the given content. -/
def parse (content : String) : Value :=
  let cs := content.toList
  match readValue (2 * cs.length + 2) cs with
  | some (v, []) => v
  | _ => .scalar .environment (.text content)

/-- Double underscores become dots, from the left. -/
def dotted : List Char → List Char
  | '_' :: '_' :: rest => '.' :: dotted rest
  | c :: rest => c :: dotted rest
  | [] => []

/-- What follows a beginning that is the same but for ASCII case. -/
def dropPrefix? : List Char → List Char → Option (List Char)
  | [], rest => some rest
  | _ :: _, [] => none
  | p :: ps, c :: cs => if p.toLower = c.toLower then dropPrefix? ps cs else none

/-- The path that a variable names under a prefix. -/
def path? (start name : String) : Option (List String) := do
  let rest ← dropPrefix? start.toList (Text.trimChars name.toList)
  let parts := Text.splitAt '.' (Text.trimChars (dotted rest))
  if parts.any List.isEmpty then none
  else return parts.map fun part => String.ofList (part.map Char.toLower)

def addVariable (start : String) (members : Value.Members) (entry : String × String) :
    Value.Members :=
  match path? start entry.1 with
  | some (name :: path) =>
    Value.mergeMembers members [(name, Value.nest .environment path (parse entry.2))]
  | _ => members

/-- All values that the variables give. -/
def read (start : String) (given : Variables) : Value.Members :=
  given.foldl (addVariable start) []

end Registrar.Environment
