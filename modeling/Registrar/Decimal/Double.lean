import Registrar.Text.Digits

/-!
# Binary floating-point numbers

A finite number is `m · 2 ^ q` with `m < 2 ^ 53` and `q ≥ -1074`. `ofDecimal` rounds a decimal
number to the nearest of them, an exact half to the even neighbour. `digits` finds the shortest
decimal number that rounds back: it tries the powers of ten as units from the coarsest on, and
takes the multiple of the first unit that lies closest to the number among those which round to
it.
-/

namespace Registrar

inductive Double where
  | nan
  | infinite (negative : Bool)
  | finite (negative : Bool) (m : Nat) (q : Int)
deriving DecidableEq, Repr

namespace Double

def twoTo (n : Nat) : Nat := Nat.pow 2 n
def tenTo (n : Nat) : Nat := Nat.pow 10 n

/-- The quotient rounded to the nearest natural number, a half to the even one. -/
def roundDiv (num den : Nat) : Nat :=
  let floor := num / den
  let twice := 2 * (num % den)
  if twice < den then floor
  else if den < twice then floor + 1
  else if floor % 2 = 0 then floor else floor + 1

/-- `num / den` with `m` of 53 bits, unless the number is too small for that. -/
def ofRatio (negative : Bool) (num den : Nat) : Double :=
  if num = 0 then finite negative 0 0
  else
    let guess : Int := (num.log2 : Int) - (den.log2 : Int) - 52
    let exponent (q : Int) : Nat × Nat :=
      if 0 ≤ q then (num, den * twoTo q.toNat) else (num * twoTo (-q).toNat, den)
    let fine := exponent guess
    let q := max (if fine.1 < twoTo 52 * fine.2 then guess - 1 else guess) (-1074)
    let scaled := exponent q
    let m := roundDiv scaled.1 scaled.2
    let (m, q) := if m = twoTo 53 then (twoTo 52, q + 1) else (m, q)
    if 971 < q then infinite negative else finite negative m q

/-- The number nearest to `mantissa · 10 ^ exponent`. -/
def ofDecimal (negative : Bool) (mantissa : Nat) (exponent : Int) : Double :=
  let magnitude := (mantissa.log2 : Int) / 4 + exponent
  if mantissa = 0 then finite negative 0 0
  else if 400 < magnitude then infinite negative
  else if (mantissa.log2 : Int) + exponent < -400 then finite negative 0 0
  else if 0 ≤ exponent then ofRatio negative (mantissa * tenTo exponent.toNat) 1
  else ofRatio negative mantissa (tenTo (-exponent).toNat)

/-- The numbers that round to `m · 2 ^ q` lie between `low` and `high`, in quarters of `2 ^ q`. -/
structure Interval where
  low : Nat
  value : Nat
  high : Nat
  closed : Bool

def interval (m : Nat) (q : Int) : Interval :=
  let narrowBelow := m = twoTo 52 ∧ -1074 < q
  ⟨if narrowBelow then 4 * m - 1 else 4 * m - 2, 4 * m, 4 * m + 2, m % 2 = 0⟩

def Interval.holds (i : Interval) (num den candidate : Nat) : Bool :=
  let point := candidate * den
  if i.closed then i.low * num ≤ point && point ≤ i.high * num
  else i.low * num < point && point < i.high * num

/-- The best multiple of `10 ^ unit` in the interval, if one lies in it. -/
def multiple? (i : Interval) (q : Int) (unit : Int) : Option Nat :=
  -- a quarter of `2 ^ q` is `num / den` units
  let num := twoTo (q - 2).toNat * tenTo (-unit).toNat
  let den := twoTo (2 - q).toNat * tenTo unit.toNat
  let below := i.value * num / den
  let above := below + 1
  match i.holds num den below && 0 < below, i.holds num den above with
  | true, true =>
    let down := i.value * num - below * den
    let up := above * den - i.value * num
    if down < up then some below else if up < down then some above
    else if below % 2 = 0 then some below else some above
  | true, false => some below
  | false, true => some above
  | false, false => none

def coarsest : Int := 309
def unitCount : Nat := 634

/-- The first unit with a multiple in the interval, together with that multiple. -/
def searchUnits (i : Interval) (q : Int) : Nat → Int → Nat × Int
  | 0, unit => (0, unit)
  | n + 1, unit =>
    match multiple? i q unit with
    | some d => (d, unit)
    | none => searchUnits i q n (unit - 1)

/-- A positive number as a multiple of a power of ten. -/
def digits (m : Nat) (q : Int) : Nat × Int := searchUnits (interval m q) q unitCount coarsest

/-- All digits written out, without an exponent. -/
def positional (d : Nat) (unit : Int) : String :=
  let ds := Nat.toDigits 10 d
  if 0 ≤ unit then String.ofList (ds ++ List.replicate unit.toNat '0')
  else
    let places := (-unit).toNat
    let padded := Text.padLeft (places + 1) '0' ds
    let split := padded.length - places
    String.ofList (padded.take split ++ ['.'] ++ padded.drop split)

def sign (negative : Bool) : String := if negative then "-" else ""

def text : Double → String
  | nan => "NaN"
  | infinite negative => sign negative ++ "inf"
  | finite negative 0 _ => sign negative ++ "0"
  | finite negative m q => let (d, unit) := digits m q; sign negative ++ positional d unit

end Double

end Registrar
