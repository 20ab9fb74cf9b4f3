import Registrar.Text.Digits

/-!
# Dates and times in a document

A date, a time of day, or both with an optional offset from UTC. They are kept as their normal
text: capital `T` and `Z`, and a fraction of a second of at most nine digits without zeros at its
end.
-/

namespace Registrar.Document

def digit? (c : Char) : Option Nat := if c.isDigit then some (c.toNat - '0'.toNat) else none

/-- A number of exactly `count` digits. -/
def takeNumber (count : Nat) (cs : List Char) : Option (Nat × List Char) := do
  let digits := cs.take count
  if digits.length < count then none
  let n ← digits.foldlM (fun n c => (digit? c).map (10 * n + ·)) 0
  return (n, cs.drop count)

def takeChar (allowed : List Char) : List Char → Option (Char × List Char)
  | c :: rest => if c ∈ allowed then some (c, rest) else none
  | [] => none

def within (low high n : Nat) : Option Nat := if low ≤ n ∧ n ≤ high then some n else none

def isLeapYear (year : Nat) : Bool := year % 4 = 0 && (year % 100 ≠ 0 || year % 400 = 0)

def daysIn (year month : Nat) : Nat :=
  if month = 2 then (if isLeapYear year then 29 else 28)
  else if month ∈ [4, 6, 9, 11] then 30 else 31

def readDate (cs : List Char) : Option (String × List Char) := do
  let (year, cs) ← takeNumber 4 cs
  let (_, cs) ← takeChar ['-'] cs
  let (month, cs) ← takeNumber 2 cs
  let month ← within 1 12 month
  let (_, cs) ← takeChar ['-'] cs
  let (day, cs) ← takeNumber 2 cs
  let day ← within 1 (daysIn year month) day
  return (Text.zeroPadded 4 year ++ "-" ++ Text.zeroPadded 2 month ++ "-" ++ Text.zeroPadded 2 day, cs)

def dropEndZeros (digits : List Char) : List Char := (digits.reverse.dropWhile (· = '0')).reverse

def readFraction (cs : List Char) : Option (String × List Char) :=
  match cs with
  | '.' :: rest =>
    let digits := rest.takeWhile Char.isDigit
    if digits.isEmpty then none
    else
      let kept := dropEndZeros (digits.take 9)
      some (if kept.isEmpty then "" else "." ++ String.ofList kept, rest.dropWhile Char.isDigit)
  | _ => some ("", cs)

def readTime (cs : List Char) : Option (String × List Char) := do
  let (hour, cs) ← takeNumber 2 cs
  let hour ← within 0 23 hour
  let (_, cs) ← takeChar [':'] cs
  let (minute, cs) ← takeNumber 2 cs
  let minute ← within 0 59 minute
  let (_, cs) ← takeChar [':'] cs
  let (second, cs) ← takeNumber 2 cs
  let second ← within 0 60 second
  let (fraction, cs) ← readFraction cs
  return (Text.zeroPadded 2 hour ++ ":" ++ Text.zeroPadded 2 minute ++ ":" ++ Text.zeroPadded 2 second ++ fraction, cs)

def readOffset (cs : List Char) : Option (String × List Char) :=
  match cs with
  | 'Z' :: rest | 'z' :: rest => some ("Z", rest)
  | '+' :: rest | '-' :: rest => do
    let (hour, rest) ← takeNumber 2 rest
    let hour ← within 0 23 hour
    let (_, rest) ← takeChar [':'] rest
    let (minute, rest) ← takeNumber 2 rest
    let minute ← within 0 59 minute
    let sign := if cs.head? = some '-' ∧ 0 < 60 * hour + minute then "-" else "+"
    return (sign ++ Text.zeroPadded 2 hour ++ ":" ++ Text.zeroPadded 2 minute, rest)
  | _ => some ("", cs)

/-- A whole word that is a date, a time, or a date with a time. -/
def readMoment (word : List Char) : Option String :=
  match readDate word with
  | some (date, []) => some date
  | some (date, rest) => do
    let (_, rest) ← takeChar ['T', 't', ' '] rest
    let (time, rest) ← readTime rest
    let (offset, rest) ← readOffset rest
    if rest.isEmpty then some (date ++ "T" ++ time ++ offset) else none
  | none =>
    match readTime word with
    | some (time, []) => some time
    | _ => none

end Registrar.Document
