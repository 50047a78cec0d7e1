import SqlComposition.Calendar.Instant

/-!
Dates and times made of fields that may lie outside the calendar. A field is held in 32 bits, and one
that does not fit is refused before any is compared with the calendar. The fields are then looked at in
order of their size, and the first one that is out of range is named.
-/

namespace SqlComposition.Calendar
open Number

/-- A field out of its range. -/
inductive FieldFault where
  | year (given : Int)
  | month | day | hour | minute | second | microsecond
  /-- An offset of a day or more, in microseconds. -/
  | offset (given : Int)
  /-- A length of time of too many days. -/
  | days (given : Int)
  /-- A length of time whose days do not fit in 32 bits. -/
  | daysTooWide
  | aboveWidth
  | belowWidth
  /-- A field that does not even fit in 64 bits. -/
  | farTooWide
  deriving DecidableEq, Repr

namespace FieldFault

def range (name : String) (greatest : Nat) : String :=
  name ++ " must be in 0.." ++ natText greatest

def text : FieldFault → String
  | year given => "year " ++ intText given ++ " is out of range"
  | month => "month must be in 1..12"
  | day => "day is out of range for month"
  | hour => range "hour" 23
  | minute => range "minute" 59
  | second => range "second" 59
  | microsecond => range "microsecond" 999999
  | offset given =>
    "offset must be a timedelta strictly between -timedelta(hours=24) and timedelta(hours=24), " ++
      "not datetime.timedelta(" ++ ", ".intercalate (Duration.ofMicroseconds given).parts ++ ")."
  | days given => "days=" ++ intText given ++ "; must have magnitude <= 999999999"
  | daysTooWide => "Python int too large to convert to C int"
  | aboveWidth => "signed integer is greater than maximum"
  | belowWidth => "signed integer is less than minimum"
  | farTooWide => "Python int too large to convert to C long"

/-- The field is too large to be held, whatever the calendar says of it. -/
def isTooLarge : FieldFault → Bool
  | days _ | daysTooWide | aboveWidth | belowWidth | farTooWide => true
  | _ => false

end FieldFault

def require (holds : Bool) (fault : FieldFault) : Except FieldFault Unit :=
  if holds then .ok () else .error fault

def within (low high n : Int) : Bool :=
  low ≤ n && n ≤ high

/-- Signed numbers of `bits` bits. -/
def fits (bits : Nat) (n : Int) : Bool :=
  within (-(Nat.pow 2 (bits - 1) : Int)) ((Nat.pow 2 (bits - 1) : Int) - 1) n

def requireWidth (n : Int) : Except FieldFault Unit := do
  require (fits 64 n) .farTooWide
  require (fits 32 n) (if n < 0 then .belowWidth else .aboveWidth)

def requireWidths (fields : List Int) : Except FieldFault Unit :=
  fields.forM requireWidth

def dateInCalendar (y m d : Int) : Except FieldFault Date := do
  require (within 1 9999 y) (.year y)
  require (within 1 12 m) .month
  require (within 1 (monthLength (isLeap y.toNat) m.toNat) d) .day
  return ⟨y.toNat, m.toNat, d.toNat⟩

def dateOfFields (y m d : Int) : Except FieldFault Date := do
  requireWidths [y, m, d]
  dateInCalendar y m d

/-- Fields that are left out are zero. -/
def clockInDay (fields : List Int) : Except FieldFault Clock := do
  let field (n : Nat) : Int := (fields[n]?).getD 0
  require (within 0 23 (field 0)) .hour
  require (within 0 59 (field 1)) .minute
  require (within 0 59 (field 2)) .second
  require (within 0 999999 (field 3)) .microsecond
  return ⟨(field 0).toNat, (field 1).toNat, (field 2).toNat, (field 3).toNat⟩

def durationOfParts (days seconds microseconds : Int) : Except FieldFault Duration := do
  let d := Duration.ofParts days seconds microseconds
  require (fits 32 d.days) .daysTooWide
  require (within (-999999999) 999999999 d.days) (.days d.days)
  return d

/-- An offset is a length of time that is less than a day. -/
def offsetOfField : Option Int → Except FieldFault (Option Int)
  | none => .ok none
  | some z => do
    let _ ← durationOfParts 0 0 z
    require (within (1 - microsecondsOfDay) (microsecondsOfDay - 1) z) (.offset z)
    return some z

def timeOfFields (fields : List Int) (offset : Option Int) : Except FieldFault Time := do
  let offset ← offsetOfField offset
  requireWidths fields
  return ⟨← clockInDay fields, offset⟩

def dateTimeOfFields (y m d : Int) (fields : List Int) (offset : Option Int) :
    Except FieldFault DateTime := do
  let offset ← offsetOfField offset
  requireWidths (y :: m :: d :: fields)
  return ⟨← dateInCalendar y m d, ← clockInDay fields, offset⟩

end SqlComposition.Calendar
