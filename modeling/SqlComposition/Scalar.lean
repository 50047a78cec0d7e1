import SqlComposition.Calendar.Instant
import SqlComposition.Number.Binary64
import SqlComposition.Number.Decimal
import SqlComposition.Number.Integer
import SqlComposition.Text.DecimalDigit
import SqlComposition.Text.Quoted

/-!
Plain data without parts: the numbers, texts, times and identifiers that a query compares with.
A scalar has a plain text, a shown form for use inside lists and mappings, and a truth value, which is
false for nothing, zero and the empty texts.
-/

namespace SqlComposition
open Number Calendar

/-- An identifier of 128 bits. -/
structure Uuid where
  bits : Nat
  deriving DecidableEq, Repr

namespace Uuid

def hexValue? (c : Char) : Option Nat :=
  if c.isDigit then some (c.toNat - 48)
  else if 'a' ≤ c ∧ c ≤ 'f' then some (c.toNat - 87)
  else if 'A' ≤ c ∧ c ≤ 'F' then some (c.toNat - 55)
  else none

/-- The digits of an identifier: the scheme in front, braces at the ends and hyphens are passed over. -/
def bareChars (s : String) : List Char :=
  let bare := (s.replace "urn:" "").replace "uuid:" ""
  (Text.trimBy (fun c => c = '\x7b' ∨ c = '\x7d') bare.toList).filter (· ≠ '-')

/-- Takes off the mark of a hexadecimal number. -/
def dropMark : List Char → List Char
  | '0' :: 'x' :: '_' :: rest | '0' :: 'X' :: '_' :: rest => rest
  | '0' :: 'x' :: rest | '0' :: 'X' :: rest => rest
  | cs => cs

def hexDigitsValue (cs : List Char) : Option Nat :=
  cs.foldl (fun value c => value.bind fun n => (hexValue? c).map (16 * n + ·)) (some 0)

/-- Reads a hexadecimal number: space around it, a plus sign, a mark in front and single underscores are
passed over, and the digits from 0 to 9 may be of any script. -/
def readHex (cs : List Char) : Option Nat := do
  let body :=
    match Text.trimSpace (cs.map Text.asciiDigit) with
    | '+' :: rest => rest
    | other => other
  let ds ← dropUnderscores (dropMark body)
  if ds.isEmpty then none else hexDigitsValue ds

inductive UuidReading where
  | value (u : Uuid)
  | badLength
  | badDigits (text : String)
  deriving DecidableEq, Repr

/-- Reads 32 hexadecimal digits. -/
def read (s : String) : UuidReading :=
  let cs := bareChars s
  if cs.length ≠ 32 then .badLength
  else
    match readHex cs with
    | some bits => .value ⟨bits⟩
    | none => .badDigits (String.ofList cs)

/-- Groups of 8, 4, 4, 4 and 12 digits with hyphens between them. -/
def text (u : Uuid) : String :=
  let ds := Text.hexDigits 32 u.bits
  let group (first size : Nat) : String := String.ofList ((ds.drop first).take size)
  "-".intercalate [group 0 8, group 8 4, group 12 4, group 16 4, group 20 12]

end Uuid

inductive Scalar where
  | null
  | bool (value : Bool)
  | int (value : Int)
  | float (value : Binary64)
  | decimal (value : Decimal)
  | text (value : String)
  | bytes (value : List UInt8)
  | date (value : Date)
  | time (value : Time)
  | dateTime (value : DateTime)
  | duration (value : Duration)
  | uuid (value : Uuid)
  deriving DecidableEq, Repr

namespace Scalar

def typeName : Scalar → String
  | null => "NoneType"
  | bool _ => "bool"
  | int _ => "int"
  | float _ => "float"
  | decimal _ => "decimal.Decimal"
  | text _ => "str"
  | bytes _ => "bytes"
  | date _ => "datetime.date"
  | time _ => "datetime.time"
  | dateTime _ => "datetime.datetime"
  | duration _ => "datetime.timedelta"
  | uuid _ => "UUID"

def isTruthy : Scalar → Bool
  | null => false
  | bool value => value
  | int value => value != 0
  | float value => !value.isZero
  | decimal value => !value.isZero
  | text value => value != ""
  | bytes value => !value.isEmpty
  | duration value => !value.isZero
  | date _ | time _ | dateTime _ | uuid _ => true

/-- The number that a scalar is, when it is a finite one. -/
def number? : Scalar → Option Written
  | bool value => some (.reduced ⟨false, if value then 1 else 0, 0⟩)
  | int value => some (.reduced ⟨decide (value < 0), value.natAbs, 0⟩)
  | float (.finite negative mantissa exponent) =>
    some (.reduced ⟨negative, scaleUp 5 (-exponent) (scaleUp 2 exponent mantissa), min exponent 0⟩)
  | decimal (.finite negative coefficient exponent) => some (.reduced ⟨negative, coefficient, exponent⟩)
  | _ => none

def isNan : Scalar → Bool
  | float (.nan _) => true
  | decimal (.nan _ _ _ _) => true
  | _ => false

/-- Gives a not-a-number a mark; other scalars have none. -/
def withMark (mark : Nat) : Scalar → Scalar
  | float (.nan _) => float (.nan mark)
  | decimal (.nan negative signalling payload _) => decimal (.nan negative signalling payload mark)
  | other => other

/-- The sign of an infinite number. -/
def infinity? : Scalar → Option Bool
  | float (.infinite negative) => some negative
  | decimal (.infinite negative) => some negative
  | _ => none

/-- Numbers are the same when they are equal, whatever their types, and times with an offset when they
name the same moment. Other scalars are the same when they do not differ at all, and that takes the mark
of a not-a-number into account. -/
def sameAs (a b : Scalar) : Bool :=
  if a.isNan || b.isNan then a == b
  else
    match a.number?, b.number?, a.infinity?, b.infinity? with
    | some n, some m, _, _ => n == m
    | none, none, some negative, some other => negative == other
    | none, none, none, none =>
      match a, b with
      | time t, time u => t.sameAs u
      | dateTime t, dateTime u => t.sameAs u
      | _, _ => a == b
    | _, _, _, _ => false

/-- The text of a scalar on its own. -/
def plainText : Scalar → String
  | null => "None"
  | bool value => if value then "True" else "False"
  | int value => intText value
  | float value => value.text
  | decimal value => value.text
  | text value => value
  | bytes value => Text.shownBytes value
  | date value => value.text
  | time value => value.text
  | dateTime value => value.text
  | duration value => value.text
  | uuid value => value.text

def call (name : String) (arguments : List String) : String :=
  name ++ "(" ++ ", ".intercalate arguments ++ ")"

def shownDuration (d : Duration) : String :=
  call "datetime.timedelta" (if d.isZero then ["0"] else d.parts)

def shownOffset : Option Int → List String
  | none => []
  | some 0 => ["tzinfo=datetime.timezone.utc"]
  | some offset =>
    ["tzinfo=" ++ call "datetime.timezone" [shownDuration (.ofMicroseconds offset)]]

/-- Hours and minutes always, and the smaller parts only up to the last one that is not zero. -/
def shownClock (c : Clock) : List String :=
  let shortest := [natText c.hour, natText c.minute]
  if c.microsecond ≠ 0 then shortest ++ [natText c.second, natText c.microsecond]
  else if c.second ≠ 0 then shortest ++ [natText c.second]
  else shortest

def shownDate (d : Date) : List String :=
  [natText d.year, natText d.month, natText d.day]

/-- The form of a scalar inside a list or mapping. -/
def shown : Scalar → String
  | text value => Text.shown value
  | decimal value => call "Decimal" ["'" ++ value.text ++ "'"]
  | date value => call "datetime.date" (shownDate value)
  | time value => call "datetime.time" (shownClock value.clock ++ shownOffset value.offset)
  | dateTime value =>
    call "datetime.datetime"
      (shownDate value.date ++ shownClock value.clock ++ shownOffset value.offset)
  | duration value => shownDuration value
  | uuid value => call "UUID" ["'" ++ value.text ++ "'"]
  | other => other.plainText

end Scalar

end SqlComposition
