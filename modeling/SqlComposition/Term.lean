import SqlComposition.Failure
import SqlComposition.Scalar

/-!
Arguments as they are written down: data, fragments, builders with the calls that make them, functions,
and names of variables.
-/

namespace SqlComposition

mutual

inductive Term where
  | scalar (s : Scalar)
  /-- Data that cannot be read, which is found out when it is needed. -/
  | unreadable (failure : Failure)
  | list (items : List Term)
  | tuple (items : List Term)
  | mapping (entries : List (Term × Term))
  | fragment (sql : Term) (bindings : Option Term)
  | builder (dialect : Option Term) (calls : List Call)
  | query (calls : List Call)
  /-- A function; without a result of its own it gives back the builder it was given. -/
  | function (calls : List Call) (result : Option Term)
  | dialect (name template : String)
  | variable (name : String)

inductive Call where
  | mk (method : String) (arguments : List Term)

end

/-- What a function does when it is called: calls of a fresh builder, and then what it gives back. -/
structure Function where
  calls : List Call
  returned : Option Term

namespace Term
open Number Calendar

def ofFloatText (s : String) : Term :=
  match Binary64.ofText? s with
  | some x => scalar (.float x)
  | none => unreadable (.notFloat s)

def ofDecimalText (s : String) : Term :=
  match Decimal.read s with
  | .value d => scalar (.decimal d)
  | .malformed => unreadable .notDecimal
  | .outOfRange => unreadable .decimalOutOfRange

def ofUuidText (s : String) : Term :=
  match Uuid.read s with
  | .value u => scalar (.uuid u)
  | .badLength => unreadable .notUuid
  | .badDigits text => unreadable (.notHexInteger text)

/-- Pairs of hexadecimal digits, with space allowed between the pairs. -/
def readHexPairs : Nat → List Char → Except Failure (List UInt8)
  | _, [] => .ok []
  | position, [c] =>
    if (9 ≤ c.toNat && c.toNat ≤ 13) || c == ' ' then .ok []
    else .error (.notHex (if (Uuid.hexValue? c).isSome then position + 1 else position))
  | position, c :: d :: rest =>
    if (9 ≤ c.toNat && c.toNat ≤ 13) || c == ' ' then readHexPairs (position + 1) (d :: rest)
    else
      match Uuid.hexValue? c, Uuid.hexValue? d with
      | none, _ => .error (.notHex position)
      | some _, none => .error (.notHex (position + 1))
      | some high, some low => (readHexPairs (position + 2) rest).map (UInt8.ofNat (16 * high + low) :: ·)

/-- A character outside ASCII is found before everything else. -/
def readHexBytes (cs : List Char) : Except Failure (List UInt8) :=
  match cs.findIdx? (127 < ·.toNat) with
  | some position => .error (.notHex position)
  | none => readHexPairs 0 cs

def ofHexText (s : String) : Term :=
  match readHexBytes s.toList with
  | .ok bytes => scalar (.bytes bytes)
  | .error failure => unreadable failure

def ofFields {α : Type} (make : α → Scalar) : Except FieldFault α → Term
  | .ok a => scalar (make a)
  | .error fault => unreadable (.badField fault)

end Term

end SqlComposition
