import Registrar.Text.Digits

/-!
# Dates and times

Seconds since the start of 1970 as a date and as a time of day, without leap seconds. Years start
in March for the reckoning, so that a leap day ends its year; four hundred years are one era.
-/

namespace Registrar.Clock

open Text (zeroPadded)

def daysPerEra : Nat := 146097

/-- Days from the start of the era of the year 1 to the start of 1970. -/
def daysBefore : Nat := 719468

structure Date where
  year : Nat
  month : Nat
  day : Nat
deriving DecidableEq, Repr

/-- The date of a day, counted from the start of 1970. -/
def dateOf (days : Nat) : Date :=
  let sinceStart := days + daysBefore
  let inEra := sinceStart % daysPerEra
  let year := (inEra - inEra / 1460 + inEra / 36524 - inEra / 146096) / 365
  let inYear := inEra - (365 * year + year / 4 - year / 100)
  let month := (5 * inYear + 2) / 153
  let day := inYear - (153 * month + 2) / 5 + 1
  let years := year + 400 * (sinceStart / daysPerEra)
  if month < 10 then ⟨years, month + 3, day⟩ else ⟨years + 1, month - 9, day⟩

def Date.text (d : Date) : String :=
  zeroPadded 4 d.year ++ "-" ++ zeroPadded 2 d.month ++ "-" ++ zeroPadded 2 d.day

def secondsPerDay : Nat := 86400

def dateText (seconds : Nat) : String := (dateOf (seconds / secondsPerDay)).text

/-- The moment to the microsecond. -/
def stamp (seconds nanoseconds : Nat) : String :=
  let inDay := seconds % secondsPerDay
  dateText seconds ++ "T" ++ zeroPadded 2 (inDay / 3600) ++ ":" ++
    zeroPadded 2 (inDay / 60 % 60) ++ ":" ++ zeroPadded 2 (inDay % 60) ++ "." ++
    zeroPadded 6 (nanoseconds / 1000) ++ "Z"

end Registrar.Clock
