import SqlComposition.Number.Digits
import SqlComposition.Text.Blank
import SqlComposition.Text.DecimalDigit

/-!
Binary floating point with 53 bits. A finite number is `mantissa * 2 ^ exponent` with its sign, where
the exponent is at least -1074 and the mantissa below 2 ^ 53. A decimal is rounded to the nearest such
number, a half going to the even mantissa. The text is the shortest decimal that rounds back to the
same number, and the nearest one of those; powers of ten from -4 to 15 are written out and the others
with `e`. A not-a-number has a mark that tells it from others of its kind; it is written without it.
-/

namespace SqlComposition.Number

inductive Binary64 where
  | finite (negative : Bool) (mantissa : Nat) (exponent : Int)
  | infinite (negative : Bool)
  | nan (mark : Nat)
  deriving DecidableEq, Repr

/-- A ratio of naturals scaled by a power of the base: the power goes to the side where it is
positive. -/
def scaleUp (base : Nat) (power : Int) (n : Nat) : Nat :=
  n * Nat.pow base power.toNat

def roundHalfEven (numerator denominator : Nat) : Nat :=
  let floor := numerator / denominator
  let twice := 2 * (numerator % denominator)
  if twice < denominator then floor
  else if denominator < twice then floor + 1
  else floor + floor % 2

namespace Binary64

def leastExponent : Int := -1074
def greatestExponent : Int := 971
def zero (negative : Bool) : Binary64 := finite negative 0 leastExponent

/-- The least exponent for which the ratio has a mantissa below 2 ^ 53. -/
def exponentFor (numerator denominator : Nat) : Int :=
  let guess : Int := (numerator.log2 : Int) - denominator.log2 - 53
  let fits := scaleUp 2 (-guess) numerator / scaleUp 2 guess denominator < Nat.pow 2 53
  max leastExponent (if fits then guess else guess + 1)

def ofRatio (negative : Bool) (numerator denominator : Nat) : Binary64 :=
  if numerator = 0 then zero negative
  else
    let exponent := exponentFor numerator denominator
    let mantissa := roundHalfEven (scaleUp 2 (-exponent) numerator) (scaleUp 2 exponent denominator)
    let carried := mantissa = Nat.pow 2 53
    let exponent := if carried then exponent + 1 else exponent
    if greatestExponent < exponent then infinite negative
    else finite negative (if carried then Nat.pow 2 52 else mantissa) exponent

/-- Decimals far outside the range are settled by their leading power alone. -/
def ofWritten (w : Written) : Binary64 :=
  let power := w.exponent + (digits w.coefficient).length
  if w.coefficient = 0 ∨ power < -330 then zero w.negative
  else if 310 < power then infinite w.negative
  else ofRatio w.negative (scaleUp 10 w.exponent w.coefficient) (scaleUp 10 (-w.exponent) 1)

/-- Digits of any script are read, and space around the number is passed over. -/
def ofText? (s : String) : Option Binary64 :=
  let cs := Text.trimSpace (s.toList.map Text.asciiDigit)
  match (ungrouped cs).bind readWritten with
  | some w => some (ofWritten w)
  | none =>
    let (negative, body) := readSign cs
    if spells body "inf" || spells body "infinity" then some (infinite negative)
    else if spells body "nan" then some (nan 0)
    else none

/-- A positive number as quarters of a unit: `quarters / denominator`, with the ends of the interval
of numbers that round to it. The lower neighbour is nearer below a power of two. -/
structure Interval where
  low : Nat
  value : Nat
  high : Nat
  denominator : Nat
  closed : Bool

def intervalOf (mantissa : Nat) (exponent : Int) : Interval :=
  let up := scaleUp 2 exponent 1
  let below := if mantissa = Nat.pow 2 52 ∧ leastExponent < exponent then 1 else 2
  { low := (4 * mantissa - below) * up
    value := 4 * mantissa * up
    high := (4 * mantissa + 2) * up
    denominator := scaleUp 2 (-exponent) 4
    closed := mantissa % 2 == 0 }

/-- Whether `candidate * 10 ^ power` rounds to the number. -/
def Interval.holds (v : Interval) (candidate : Nat) (power : Int) : Bool :=
  let point := scaleUp 10 power candidate * v.denominator
  let low := scaleUp 10 (-power) v.low
  let high := scaleUp 10 (-power) v.high
  if v.closed then low ≤ point && point ≤ high else low < point && point < high

/-- Of the two points of the grid of step `10 ^ power` around the number, the one that rounds to it;
of two the nearer, and of two equally near the even one. -/
def Interval.onGrid (v : Interval) (power : Int) : Option Nat :=
  let unit := scaleUp 10 power v.denominator
  let scaled := scaleUp 10 (-power) v.value
  let under := scaled / unit
  let nearest := roundHalfEven scaled unit
  if v.holds nearest power then some nearest
  else if v.holds under power then some under
  else if v.holds (under + 1) power then some (under + 1)
  else none

/-- The power of ten of the leading digit. -/
def Interval.leadingPower (v : Interval) : Int :=
  if v.denominator ≤ v.value then ((digits (v.value / v.denominator)).length : Int) - 1
  else -((digits (v.denominator / v.value)).length : Int)

def Interval.search (v : Interval) (lead : Int) : Nat → Nat → Nat × Int
  | 0, count => (scaleUp 10 (count - lead) v.value / scaleUp 10 (lead - count) v.denominator, lead - count)
  | tries + 1, count =>
    match v.onGrid (lead - count) with
    | some n => (n, lead - count)
    | none => v.search lead tries (count + 1)

/-- The shortest decimal of a positive number, as a coefficient and a power of ten. Seventeen digits
always suffice. -/
def shortest (mantissa : Nat) (exponent : Int) : Nat × Int :=
  let v := intervalOf mantissa exponent
  v.search v.leadingPower 17 0

def dropTrailingZeros (ds : List Char) : List Char :=
  (ds.reverse.dropWhile (· == '0')).reverse

/-- Digits that stand for `0.d₁d₂… * 10 ^ point`, written out around the point. -/
def positional (ds : List Char) (point : Int) : List Char :=
  if point ≤ 0 then '0' :: '.' :: (List.replicate point.natAbs '0' ++ ds)
  else
    let n := point.toNat
    if ds.length ≤ n then ds ++ List.replicate (n - ds.length) '0' ++ ['.', '0']
    else ds.take n ++ '.' :: ds.drop n

def exponential (ds : List Char) (power : Int) : List Char :=
  let mantissa :=
    match ds with
    | first :: second :: rest => first :: '.' :: second :: rest
    | short => short
  let size := digits power.natAbs
  mantissa ++ 'e' :: (if power < 0 then '-' else '+') ::
    (List.replicate (2 - size.length) '0' ++ size)

def magnitudeChars (mantissa : Nat) (exponent : Int) : List Char :=
  if mantissa = 0 then ['0', '.', '0']
  else
    let (coefficient, power) := shortest mantissa exponent
    let all := digits coefficient
    let lead := power + all.length - 1
    let ds := dropTrailingZeros all
    if -4 ≤ lead ∧ lead < 16 then positional ds (lead + 1) else exponential ds lead

def chars : Binary64 → List Char
  | finite negative mantissa exponent =>
    (if negative then ['-'] else []) ++ magnitudeChars mantissa exponent
  | infinite negative => (if negative then ['-'] else []) ++ "inf".toList
  | nan _ => "nan".toList

def text (x : Binary64) : String :=
  String.ofList x.chars

def isZero : Binary64 → Bool
  | finite _ mantissa _ => mantissa == 0
  | _ => false

/-- The integer that the number is equal to, when it is one. -/
def toInt? : Binary64 → Option Int
  | finite negative mantissa exponent =>
    let unit := scaleUp 2 (-exponent) 1
    if mantissa % unit = 0 then
      let size : Int := scaleUp 2 exponent mantissa / unit
      some (if negative then -size else size)
    else none
  | _ => none

end Binary64

end SqlComposition.Number
