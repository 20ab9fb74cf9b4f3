/-!
# Digits and padding

Decimal numbers as digits, and texts filled up to a width on one side or the other. A text that is
longer than the width stays as it is.
-/

namespace Registrar.Text

def padLeft (width : Nat) (fill : Char) (cs : List Char) : List Char :=
  List.replicate (width - cs.length) fill ++ cs

def padRight (width : Nat) (fill : Char) (cs : List Char) : List Char :=
  cs ++ List.replicate (width - cs.length) fill

/-- A text that ends in the column `width`, after blanks. -/
def rightAligned (width : Nat) (s : String) : String := String.ofList (padLeft width ' ' s.toList)

def leftAligned (width : Nat) (s : String) : String := String.ofList (padRight width ' ' s.toList)

/-- A number of at least `width` decimal digits. -/
def zeroPadded (width n : Nat) : String := String.ofList (padLeft width '0' (Nat.toDigits 10 n))

def isDigits (cs : List Char) : Bool := !cs.isEmpty && cs.all Char.isDigit

/-- The number that decimal digits stand for. -/
def decimal (digits : List Char) : Nat :=
  digits.foldl (fun n c => 10 * n + (c.toNat - '0'.toNat)) 0

/-- A whole number without a sign, or with a plus sign. -/
def natural? (cs : List Char) : Option Nat :=
  let digits := if cs.head? = some '+' then cs.drop 1 else cs
  if isDigits digits then some (decimal digits) else none

end Registrar.Text
