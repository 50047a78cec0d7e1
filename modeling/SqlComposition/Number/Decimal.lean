import SqlComposition.Number.Digits
import SqlComposition.Text.Blank
import SqlComposition.Text.DecimalDigit

/-!
Decimal numbers that keep their exponent, so `1.10` and `1.1` are told apart, together with signed
infinities and the quiet and signalling not-a-numbers with their payloads. The text is the scientific
string of general decimal arithmetic: plain when the exponent is not positive and the leading digit
lies at most six places after the point, and with `E` and a signed power of ten otherwise. A not-a-number
has a mark that tells it from others of its kind; it is written without it.
-/

namespace SqlComposition.Number

inductive Decimal where
  | finite (negative : Bool) (coefficient : Nat) (exponent : Int)
  | infinite (negative : Bool)
  | nan (negative signalling : Bool) (payload mark : Nat)
  deriving DecidableEq, Repr

namespace Decimal

def signText (negative : Bool) : List Char :=
  if negative then ['-'] else []

/-- The power of ten of the leading digit. -/
def leadingPower (coefficient : Nat) (exponent : Int) : Int :=
  exponent + ((digits coefficient).length : Int) - 1

/-- Digits with a point before the last `places` of them, and zeros where digits are missing. -/
def pointed (ds : List Char) (places : Nat) : List Char :=
  if places = 0 then ds
  else
    let full := List.replicate (places + 1 - ds.length) '0' ++ ds
    full.take (full.length - places) ++ '.' :: full.drop (full.length - places)

/-- One digit, the others after a point, and the power of ten with its sign. -/
def scientific (ds : List Char) (power : Int) : List Char :=
  let mantissa :=
    match ds with
    | first :: second :: rest => first :: '.' :: second :: rest
    | short => short
  mantissa ++ 'E' :: (if power < 0 then '-' else '+') :: digits power.natAbs

def chars : Decimal → List Char
  | finite negative coefficient exponent =>
    let ds := digits coefficient
    let power := leadingPower coefficient exponent
    signText negative ++
      if exponent ≤ 0 ∧ -6 ≤ power then pointed ds exponent.natAbs else scientific ds power
  | infinite negative => signText negative ++ "Infinity".toList
  | nan negative signalling payload _ =>
    signText negative ++ (if signalling then ['s'] else []) ++ "NaN".toList ++
      if payload = 0 then [] else digits payload

def text (d : Decimal) : String :=
  String.ofList d.chars

def isZero : Decimal → Bool
  | finite _ coefficient _ => coefficient == 0
  | _ => false

def readNan (negative signalling : Bool) (payload : List Char) : Option Decimal :=
  if payload.all Char.isDigit then some (nan negative signalling (digitsValue payload) 0) else none

def readSpecial (cs : List Char) : Option Decimal :=
  let (negative, body) := readSign cs
  if spells body "inf" || spells body "infinity" then some (infinite negative)
  else if spells (body.take 3) "nan" then readNan negative false (body.drop 3)
  else if spells (body.take 4) "snan" then readNan negative true (body.drop 4)
  else none

/-- The greatest power of ten that a leading digit may have. -/
def greatestPower : Int := 999999999999999999

/-- The least power of ten that a last digit may have. -/
def leastPower : Int := -1999999999999999997

def inRange (coefficient : Nat) (exponent : Int) : Bool :=
  decide (leastPower ≤ exponent) && decide (leadingPower coefficient exponent ≤ greatestPower)

inductive Reading where
  | value (d : Decimal)
  | malformed
  /-- The number cannot be held exactly. -/
  | outOfRange
  deriving DecidableEq, Repr

/-- Digits of any script are read; blanks around the number and underscores inside it are passed over. -/
def read (s : String) : Reading :=
  let cs := ((Text.trimChars s.toList).filter (· ≠ '_')).map Text.asciiDigit
  match readWritten cs, readSpecial cs with
  | some w, _ =>
    if inRange w.coefficient w.exponent then .value (finite w.negative w.coefficient w.exponent)
    else .outOfRange
  | none, some d => .value d
  | none, none => .malformed

/-- The integer that the size is equal to, when it is one. -/
def wholeSize? (coefficient : Nat) (exponent : Int) : Option Nat :=
  if coefficient = 0 then some 0
  else if 0 ≤ exponent then some (coefficient * Nat.pow 10 exponent.toNat)
  else if (digits coefficient).length < exponent.natAbs then none
  else
    let unit := Nat.pow 10 exponent.natAbs
    if coefficient % unit = 0 then some (coefficient / unit) else none

/-- The integer that the number is equal to, when it is one. -/
def toInt? : Decimal → Option Int
  | finite negative coefficient exponent =>
    (wholeSize? coefficient exponent).map fun n => if negative then -(n : Int) else n
  | _ => none

end Decimal

end SqlComposition.Number
