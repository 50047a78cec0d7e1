import SqlComposition.Number.Digits

/-!
Days of the Gregorian calendar, extended backwards to year 1. The ordinal of a day counts from
1 for the first of January of year 1; the years 1 to 9999 hold `lastOrdinal` days.
-/

namespace SqlComposition.Calendar
open Number

structure Date where
  year : Nat
  month : Nat
  day : Nat
  deriving DecidableEq, Repr

def isLeap (year : Nat) : Bool :=
  year % 4 == 0 && (year % 100 != 0 || year % 400 == 0)

/-- Days of the years before `year`. -/
def daysBeforeYear (year : Nat) : Nat :=
  let past := year - 1
  365 * past + past / 4 - past / 100 + past / 400

def monthLength (leap : Bool) : Nat → Nat
  | 2 => if leap then 29 else 28
  | 4 | 6 | 9 | 11 => 30
  | _ => 31

/-- Days of the months before the given one. -/
def daysBeforeMonth (leap : Bool) : Nat → Nat
  | 0 | 1 => 0
  | month + 1 => daysBeforeMonth leap month + monthLength leap month

def Date.ordinal (d : Date) : Nat :=
  daysBeforeYear d.year + daysBeforeMonth (isLeap d.year) d.month + d.day

/-- The last day of year 9999. -/
def lastOrdinal : Nat := 3652059

/-- The month that a day of the year falls in, and the day of that month, both counted from 1. -/
def splitMonth (leap : Bool) : Nat → Nat → Nat → Nat × Nat
  | 0, month, day => (month, day)
  | rest + 1, month, day =>
    let length := monthLength leap month
    if day ≤ length then (month, day) else splitMonth leap rest (month + 1) (day - length)

/-- The year of an ordinal: the average length of a year gives it up to one year either way. -/
def yearOfOrdinal (ordinal : Nat) : Nat :=
  let estimate := ordinal * 400 / 146097 + 1
  if ordinal ≤ daysBeforeYear estimate then estimate - 1
  else if daysBeforeYear (estimate + 1) < ordinal then estimate + 1
  else estimate

def dateOfOrdinal (ordinal : Nat) : Date :=
  let year := yearOfOrdinal ordinal
  let (month, day) := splitMonth (isLeap year) 11 1 (ordinal - daysBeforeYear year)
  ⟨year, month, day⟩

def Date.text (d : Date) : String :=
  padded 4 d.year ++ "-" ++ padded 2 d.month ++ "-" ++ padded 2 d.day

end SqlComposition.Calendar
