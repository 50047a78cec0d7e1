import SqlComposition.Literal

/-!
Questions that calls ask of the values they are given, whether or not they are of the right kind: their
type, their truth, their fields, their items and their text.
-/

namespace SqlComposition.Value

def typeName : Value → String
  | scalar s => s.typeName
  | list _ => "list"
  | tuple _ => "tuple"
  | mapping _ => "dict"
  | fragment _ => "RawSQL"
  | query _ => "QueryState"
  | part p => p.typeName
  | bound _ => "CompiledSQL"
  | object o => o.typeName

/-- The type without the module it comes from. -/
def shortTypeName (v : Value) : String :=
  String.ofList (v.typeName.toList.reverse.takeWhile (· ≠ '.')).reverse

def isTruthy : Value → Bool
  | scalar s => s.isTruthy
  | list items => !items.isEmpty
  | tuple items => !items.isEmpty
  | mapping entries => !entries.isEmpty
  | _ => true

/-- A record is gone through as pairs of a field's name and its content. -/
def fieldItems (fields : List (String × Value)) : List Value :=
  fields.map fun (name, content) => tuple [text name, content]

/-- The fields that can be looked at by name. -/
def fields : Value → List (String × Value)
  | fragment f => f.fields
  | query q => q.fields
  | bound b => b.fields
  | _ => []

/-- Why a value has no call by a name: there is a field of that name, which is no function, or there is
nothing. -/
def nameFailure (v : Value) (name : String) : Failure :=
  match v.fields.lookup name with
  | some content => .notCallable content.typeName
  | none => .noAttribute v.typeName name

/-- What one meets when going through a value; `none` if it cannot be gone through. -/
def items? : Value → Option (List Value)
  | scalar (.text s) => some (s.toList.map fun c => text (String.singleton c))
  | scalar (.bytes bytes) => some (bytes.map fun b => int b.toNat)
  | list items => some items
  | tuple items => some items
  | mapping entries => some (entries.map Prod.fst)
  | fragment f => some (fieldItems f.fields)
  | query q => some (fieldItems q.fields)
  | _ => none

def items (v : Value) : Except Failure (List Value) :=
  match v.items? with
  | some items => .ok items
  | none => .error (.notIterable v.typeName)

/-- The text of an instant; what is no time at all has none. -/
def instantText : Value → Except Failure String
  | scalar s => s.instantText
  | other => .error (.noAttribute other.typeName "tzinfo")

/-- A text as a quoted literal. Bytes and dates have a way of their own to replace parts, which takes no
text. -/
def quoted : Value → Except Failure String
  | scalar (.text s) => .ok (Text.quote s)
  | scalar (.bytes _) => .error .textForBytes
  | scalar (.date _) | scalar (.time _) | scalar (.dateTime _) => .error .textForInteger
  | other => .error (.noAttribute other.typeName "replace")

/-- Texts among values, up to the first that is none. -/
def joinTexts : Nat → List Value → Except Failure (List String)
  | _, [] => .ok []
  | position, scalar (.text s) :: rest => (joinTexts (position + 1) rest).map (s :: ·)
  | position, other :: _ => .error (.notTextItem position other.typeName)

def commaJoined (texts : List Value) : Except Failure String :=
  (joinTexts 0 texts).map (", ".intercalate ·)

end SqlComposition.Value
