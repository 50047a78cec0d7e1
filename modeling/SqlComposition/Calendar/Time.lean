import SqlComposition.Number.Digits

/-!
Times of day, lengths of time, and offsets from universal time. An offset is a number of microseconds,
less than a day either way; a time of day may come without one.
-/

namespace SqlComposition.Calendar
open Number

structure Clock where
  hour : Nat
  minute : Nat
  second : Nat
  microsecond : Nat
  deriving DecidableEq, Repr

structure Time where
  clock : Clock
  offset : Option Int
  deriving DecidableEq, Repr

/-- A length of time, with `0 ≤ seconds < 86400` and `0 ≤ microseconds < 1000000`. -/
structure Duration where
  days : Int
  seconds : Nat
  microseconds : Nat
  deriving DecidableEq, Repr

def Duration.ofMicroseconds (total : Int) : Duration :=
  let seconds := total.fdiv 1000000
  { days := seconds.fdiv 86400
    seconds := (seconds.fmod 86400).toNat
    microseconds := (total.fmod 1000000).toNat }

def Duration.ofParts (days seconds microseconds : Int) : Duration :=
  ofMicroseconds ((days * 86400 + seconds) * 1000000 + microseconds)

/-- The parts that are not zero, each with its name. -/
def Duration.parts (d : Duration) : List String :=
  let part (name : String) (n : Int) : List String :=
    if n = 0 then [] else [name ++ "=" ++ intText n]
  part "days" d.days ++ part "seconds" d.seconds ++ part "microseconds" d.microseconds

def Duration.isZero (d : Duration) : Bool :=
  d.days == 0 && d.seconds == 0 && d.microseconds == 0

def Clock.seconds (c : Clock) : Nat :=
  (c.hour * 60 + c.minute) * 60 + c.second

def Clock.microseconds (c : Clock) : Nat :=
  c.seconds * 1000000 + c.microsecond

def Clock.ofMicroseconds (total : Nat) : Clock :=
  let seconds := total / 1000000
  ⟨seconds / 3600, seconds / 60 % 60, seconds % 60, total % 1000000⟩

theorem Clock.microseconds_ofMicroseconds (total : Nat) : (ofMicroseconds total).microseconds = total := by
  simp only [ofMicroseconds, microseconds, seconds]; omega

/-- Times with offsets are the same when they are equally far from midnight of universal time and show the
same microsecond; a time with an offset is never the same as one without. -/
def Time.sameAs (t u : Time) : Bool :=
  match t.offset, u.offset with
  | some here, some there =>
    (t.clock.microseconds : Int) - here == (u.clock.microseconds : Int) - there &&
      t.clock.microsecond == u.clock.microsecond
  | none, none => t == u
  | _, _ => false

def Clock.wholeText (c : Clock) : String :=
  padded 2 c.hour ++ ":" ++ padded 2 c.minute ++ ":" ++ padded 2 c.second

/-- Six digits after the point, left out when they are all zero. -/
def fractionText (microsecond : Nat) : String :=
  if microsecond = 0 then "" else "." ++ padded 6 microsecond

def Clock.text (c : Clock) : String :=
  c.wholeText ++ fractionText c.microsecond

/-- Three digits after the point; the rest is cut off. -/
def Clock.millisecondText (c : Clock) : String :=
  c.wholeText ++ "." ++ padded 3 (c.microsecond / 1000)

/-- A sign, hours and minutes, and the seconds and their fraction where there are any. -/
def offsetText : Option Int → String
  | none => ""
  | some offset =>
    let size := Clock.ofMicroseconds offset.natAbs
    (if offset < 0 then "-" else "+") ++ padded 2 size.hour ++ ":" ++ padded 2 size.minute ++
      if size.second = 0 ∧ size.microsecond = 0 then ""
      else ":" ++ padded 2 size.second ++ fractionText size.microsecond

def Time.text (t : Time) : String :=
  t.clock.text ++ offsetText t.offset

/-- Days are named only when there are some, and hours have no leading zero. -/
def Duration.text (d : Duration) : String :=
  let days :=
    if d.days = 0 then ""
    else intText d.days ++ (if d.days.natAbs = 1 then " day, " else " days, ")
  days ++ natText (d.seconds / 3600) ++ ":" ++ padded 2 (d.seconds / 60 % 60) ++ ":" ++
    padded 2 (d.seconds % 60) ++ fractionText d.microseconds

end SqlComposition.Calendar
