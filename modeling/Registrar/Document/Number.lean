import Registrar.Decimal.Double
import Registrar.Document.Text

/-!
# Numbers in a document

Whole numbers have 64 bits with a sign and may be written to the bases 16, 8 and 2; other numbers
have a fraction or an exponent. Underscores may stand between digits. No decimal number has a zero
in front.
-/

namespace Registrar.Document

open Text (decimal)

/-- Digits, with single underscores between them left out. -/
def readDigits (isDigit : Char → Bool) : List Char → List Char × List Char
  | [] => ([], [])
  | '_' :: c :: rest =>
    if isDigit c then
      let (ds, rest) := readDigits isDigit rest
      (c :: ds, rest)
    else ([], '_' :: c :: rest)
  | c :: rest =>
    if isDigit c then
      let (ds, rest) := readDigits isDigit rest
      (c :: ds, rest)
    else ([], c :: rest)

/-- At least one digit, and none but digits at both ends. -/
def digitRun (isDigit : Char → Bool) (cs : List Char) : Option (List Char × List Char) :=
  match cs with
  | c :: _ => if isDigit c then some (readDigits isDigit cs) else none
  | [] => none

structure WholePart where
  negative : Bool
  digits : List Char
  rest : List Char

def readWhole (word : List Char) : Option WholePart := do
  let negative := word.head? = some '-'
  let unsigned := if negative ∨ word.head? = some '+' then word.drop 1 else word
  let (digits, rest) ← digitRun Char.isDigit unsigned
  if digits.head? = some '0' ∧ 1 < digits.length then none
  return ⟨negative, digits, rest⟩

/-- The least number that does not fit into 64 bits of which one is the sign. -/
def signedLimit : Nat := 9223372036854775808

def inRange (i : Int) : Option Int :=
  if -(signedLimit : Int) ≤ i ∧ i < (signedLimit : Int) then some i else none

def signedNumber (negative : Bool) (n : Nat) : Int := if negative then -(n : Int) else n

def isOctal (c : Char) : Bool := '0' ≤ c && c ≤ '7'

def isBinary (c : Char) : Bool := c = '0' || c = '1'

def isHex (c : Char) : Bool := (hexValue? c).isSome

def readBase (base : Nat) (isDigit : Char → Bool) (cs : List Char) : Option Int :=
  match digitRun isDigit cs with
  | some (digits, []) => do
    let n ← digits.foldlM (fun n c => (hexValue? c).map (base * n + ·)) 0
    inRange n
  | _ => none

def readInteger (word : List Char) : Option Int :=
  match word with
  | '0' :: 'x' :: digits => readBase 16 isHex digits
  | '0' :: 'o' :: digits => readBase 8 isOctal digits
  | '0' :: 'b' :: digits => readBase 2 isBinary digits
  | _ =>
    match readWhole word with
    | some ⟨negative, digits, []⟩ => inRange (signedNumber negative (decimal digits))
    | _ => none

def readExponent (cs : List Char) : Option Int :=
  match cs with
  | [] => some 0
  | c :: rest =>
    if c = 'e' ∨ c = 'E' then
      let negative := rest.head? = some '-'
      let unsigned := if negative ∨ rest.head? = some '+' then rest.drop 1 else rest
      match digitRun Char.isDigit unsigned with
      | some (digits, []) => some (signedNumber negative (decimal digits))
      | _ => none
    else none

/-- A number too great for its format is no number, unless it is negative. -/
def bounded (d : Double) : Option Double := if d = .infinite false then none else some d

def readDecimal (word : List Char) : Option Double := do
  let whole ← readWhole word
  match whole.rest with
  | [] => none
  | '.' :: rest =>
    let (fraction, rest) ← digitRun Char.isDigit rest
    let exponent ← readExponent rest
    bounded (.ofDecimal whole.negative (decimal (whole.digits ++ fraction))
      (exponent - fraction.length))
  | rest =>
    let exponent ← readExponent rest
    bounded (.ofDecimal whole.negative (decimal whole.digits) exponent)

def readNamed (word : List Char) : Option Double :=
  match String.ofList word with
  | "inf" | "+inf" => some (.infinite false)
  | "-inf" => some (.infinite true)
  | "nan" | "+nan" | "-nan" => some .nan
  | _ => none

def readReal (word : List Char) : Option Double := (readNamed word).orElse fun _ => readDecimal word

end Registrar.Document
