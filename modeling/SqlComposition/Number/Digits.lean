/-!
Decimal digits, and numbers as they are written: a sign, digits with an optional point, and an
optional power of ten. The digits before and after the point are kept as one number, so the written
number is `coefficient * 10 ^ exponent` with its sign.
-/

namespace SqlComposition.Number

def digits (n : Nat) : List Char :=
  Nat.toDigits 10 n

def natText (n : Nat) : String :=
  String.ofList (digits n)

def intText : Int → String
  | .ofNat n => natText n
  | .negSucc n => String.ofList ('-' :: digits (n + 1))

/-- The digits of `n` with zeros in front, up to `width` digits. -/
def padded (width n : Nat) : String :=
  let ds := digits n
  String.ofList (List.replicate (width - ds.length) '0' ++ ds)

def digitsValue (ds : List Char) : Nat :=
  ds.foldl (fun value d => 10 * value + (d.toNat - 48)) 0

structure Written where
  negative : Bool
  coefficient : Nat
  exponent : Int
  deriving DecidableEq, Repr

/-- The same number with a coefficient that does not end in a zero. -/
def Written.reduced (w : Written) : Written :=
  if w.coefficient = 0 then ⟨false, 0, 0⟩
  else
    let zeros := ((digits w.coefficient).reverse.takeWhile (· == '0')).length
    ⟨w.negative, w.coefficient / Nat.pow 10 zeros, w.exponent + zeros⟩

def readSign : List Char → Bool × List Char
  | '-' :: rest => (true, rest)
  | '+' :: rest => (false, rest)
  | cs => (false, cs)

/-- Takes out the underscores that stand alone between two digits; no others are allowed. -/
def ungrouped : List Char → Option (List Char)
  | [] => some []
  | c :: '_' :: d :: rest =>
    if c.isDigit && d.isDigit then (ungrouped (d :: rest)).map (c :: ·) else none
  | c :: rest => if c = '_' then none else (ungrouped rest).map (c :: ·)

/-- A power of ten after the mark `e`, in either case; no mark stands for the power zero. -/
def readExponent : List Char → Option Int
  | [] => some 0
  | mark :: rest =>
    let (negative, ds) := readSign rest
    if (mark = 'e' ∨ mark = 'E') ∧ ds ≠ [] ∧ ds.all Char.isDigit then
      some (if negative then -(digitsValue ds : Int) else digitsValue ds)
    else none

def readWritten (cs : List Char) : Option Written :=
  let (negative, body) := readSign cs
  let whole := body.takeWhile Char.isDigit
  let (fraction, rest) :=
    match body.dropWhile Char.isDigit with
    | '.' :: after => (after.takeWhile Char.isDigit, after.dropWhile Char.isDigit)
    | after => ([], after)
  if whole.isEmpty && fraction.isEmpty then none
  else
    (readExponent rest).map fun power =>
      ⟨negative, digitsValue (whole ++ fraction), power - fraction.length⟩

/-- Equal up to the case of ASCII letters, which is how the special numbers are spelled. -/
def spells (cs : List Char) (word : String) : Bool :=
  cs.map Char.toLower == word.toList

end SqlComposition.Number
