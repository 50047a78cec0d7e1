import SqlComposition.Number.Digits
import SqlComposition.Text.Blank

/-!
Integers as they are written in data. Space around the number is passed over, and so are a plus sign in
front, leading zeros, a fraction of nothing but zeros, and single underscores inside. A minus sign stands
in front, or behind the leading zeros. Neither a sign nor a leading zero counts for the width of a number.
-/

namespace SqlComposition.Number

/-- A plus sign that no minus sign follows. -/
def dropPlus : List Char → Option (List Char)
  | '+' :: '-' :: _ => none
  | '+' :: rest => some rest
  | cs => some cs

/-- Takes off a fraction of zeros. -/
def wholePart (cs : List Char) : Option (List Char) :=
  match cs.dropWhile (· ≠ '.') with
  | [] => some cs
  | _ :: fraction =>
    if fraction ≠ [] ∧ fraction.all (· == '0') then some (cs.takeWhile (· ≠ '.')) else none

def startsNumber (c : Char) : Bool :=
  ('1' ≤ c && c ≤ '9') || c == '-'

/-- What is left behind zeros and underscores, which is the last of them if nothing follows. -/
def afterZeros (last : Char) : List Char → Option (List Char)
  | [] => some [last]
  | c :: rest =>
    if c = '0' ∨ c = '_' then afterZeros c rest
    else if startsNumber c then some (c :: rest)
    else none

def dropLeadingZeros : List Char → Option (List Char)
  | [] => none
  | c :: rest =>
    if c = '0' then afterZeros c rest
    else if startsNumber c then some (c :: rest)
    else none

/-- Takes out underscores, of which none may stand at an end or beside another. -/
def dropUnderscores (cs : List Char) : Option (List Char) :=
  let doubled := (cs.zip cs.tail).any fun pair => pair.1 == '_' && pair.2 == '_'
  if cs.head? = some '_' ∨ cs.getLast? = some '_' ∨ doubled then none
  else some (cs.filter (· ≠ '_'))

/-- Takes off a minus sign and says whether there was one. -/
def takeMinus : List Char → Bool × List Char
  | '-' :: rest => (true, rest)
  | cs => (false, cs)

/-- Digits without a leading zero. -/
def plainDigits (ds : List Char) : Option (List Char) :=
  if ds = [] ∨ !ds.all Char.isDigit ∨ (ds.head? = some '0' ∧ 1 < ds.length) then none else some ds

/-- The sign and the digits of a number. Only one minus sign is read. -/
def readSigned (cs : List Char) : Option (Bool × List Char) := do
  let (negative, body) := takeMinus (← dropPlus cs)
  let significant ← (dropLeadingZeros (← wholePart body)).bind dropUnderscores
  let (late, ds) := if negative then (false, significant) else takeMinus significant
  return (negative || late, ← plainDigits ds)

inductive IntegerReading where
  | value (n : Int)
  | unreadable
  /-- The text starts with a run of digits too long to be taken up. -/
  | oversized
  deriving DecidableEq, Repr

/-- The most digits that a number may have. -/
def greatestWidth : Nat := 4300

/-- The digits a text starts with, behind a minus sign if there is one. -/
def frontDigits (cs : List Char) : List Char :=
  (takeMinus cs).2.takeWhile Char.isDigit

/-- Says that a text starts with too many digits, of which the first is not zero. -/
def startsTooWide (cs : List Char) : Bool :=
  let front := frontDigits cs
  front.head? != some '0' && decide (greatestWidth < front.length)

/-- A text that starts too wide is given up at once, whatever follows. Space, a plus sign or a zero in
front keeps it from that, and a number that is too wide after all is unreadable. -/
def readInteger (s : String) : IntegerReading :=
  if startsTooWide s.toList then .oversized
  else
    match readSigned (Text.trimSpace s.toList) with
    | none => .unreadable
    | some (negative, ds) =>
      if greatestWidth < ds.length then .unreadable
      else .value (if negative then -(digitsValue ds : Int) else digitsValue ds)

end SqlComposition.Number
