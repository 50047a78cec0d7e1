import SqlComposition.Calendar.Date
import SqlComposition.Calendar.Time

/-!
A date with a time of day. With an offset it names an instant; the instant is written in universal
time with milliseconds and a `Z`, which fails when universal time leaves the years 1 to 9999.
Without an offset the fields are written as they are.
-/

namespace SqlComposition.Calendar

structure DateTime where
  date : Date
  clock : Clock
  offset : Option Int
  deriving DecidableEq, Repr

def microsecondsOfDay : Nat := 86400000000

/-- Microseconds since the start of the day before the first of January of year 1. -/
def DateTime.localMicroseconds (t : DateTime) : Nat :=
  t.date.ordinal * microsecondsOfDay + t.clock.microseconds

/-- With offsets, the same instant; one with an offset is never the same as one without. -/
def DateTime.sameAs (t u : DateTime) : Bool :=
  match t.offset, u.offset with
  | some here, some there =>
    (t.localMicroseconds : Int) - here == (u.localMicroseconds : Int) - there
  | none, none => t == u
  | _, _ => false

/-- The same instant in universal time, if that is a day of the calendar. -/
def DateTime.universal? (t : DateTime) (offset : Int) : Option DateTime :=
  let moment := (t.localMicroseconds : Int) - offset
  let ordinal := moment.fdiv microsecondsOfDay
  if 1 ≤ ordinal ∧ ordinal ≤ lastOrdinal then
    some ⟨dateOfOrdinal ordinal.toNat, .ofMicroseconds (moment.fmod microsecondsOfDay).toNat, none⟩
  else none

def DateTime.millisecondText (t : DateTime) : String :=
  t.date.text ++ "T" ++ t.clock.millisecondText

/-- The written instant, or `none` out of range. -/
def DateTime.instantText? (t : DateTime) : Option String :=
  match t.offset with
  | none => some t.millisecondText
  | some offset => (t.universal? offset).map fun u => u.millisecondText ++ "Z"

/-- All fields, with a blank between date and time. -/
def DateTime.text (t : DateTime) : String :=
  t.date.text ++ " " ++ t.clock.text ++ offsetText t.offset

end SqlComposition.Calendar
