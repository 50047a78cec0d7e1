import SqlComposition.Value.Inspection

/-!
Mappings as lists of entries, in the order in which their keys were first put in. Scalars that are the
same are one key, and so is an object that is met again; collections and records cannot be keys.
-/

namespace SqlComposition.Value

mutual

def sameKey : Value → Value → Bool
  | scalar a, scalar b => a.sameAs b
  | tuple a, tuple b => sameKeys a b
  | object a, object b => a.number == b.number
  | _, _ => false

def sameKeys : List Value → List Value → Bool
  | [], [] => true
  | a :: rest, b :: others => sameKey a b && sameKeys rest others
  | _, _ => false

end

mutual

/-- Why a value cannot be a key, if it cannot. -/
def keyFailure? : Value → Option Failure
  | scalar (.decimal (.nan _ true _ _)) => some .signallingKey
  | list _ => some (.unhashable "list")
  | mapping _ => some (.unhashable "dict")
  | fragment _ => some (.unhashable "list")
  | query _ => some (.unhashable "QueryState")
  | part p => some (.unhashable p.typeName)
  | bound _ => some (.unhashable "CompiledSQL")
  | tuple items => firstKeyFailure? items
  | _ => none

def firstKeyFailure? : List Value → Option Failure
  | [] => none
  | v :: rest => v.keyFailure?.orElse fun _ => firstKeyFailure? rest

end

/-- Puts an entry into a mapping: a key that is there keeps its place and gets the new content. -/
def putEntry (key content : Value) : List (Value × Value) → List (Value × Value)
  | [] => [(key, content)]
  | entry :: rest =>
    if entry.1.sameKey key then (entry.1, content) :: rest else entry :: putEntry key content rest

def insertEntry (entries : List (Value × Value)) (key content : Value) :
    Except Failure (List (Value × Value)) :=
  match key.keyFailure? with
  | some failure => .error failure
  | none => .ok (putEntry key content entries)

def lookupEntry (key : Value) (entries : List (Value × Value)) : Option Value :=
  (entries.find? (·.1.sameKey key)).map Prod.snd

/-- Two items make an entry, if the first can be a key. -/
def entryOf (position : Nat) (pair : Value) : Except Failure (Value × Value) :=
  match pair.items? with
  | none => .error (.notPair position)
  | some [key, content] =>
    match key.keyFailure? with
    | some failure => .error failure
    | none => .ok (key, content)
  | some other => .error (.pairLength position other.length)

/-- The entries of a mapping, or those that pairs make, each as it is come to. -/
def entriesOf : Value → List (Except Failure (Value × Value))
  | mapping entries => entries.map .ok
  | other =>
    match other.items with
    | .error failure => [.error failure]
    | .ok pairs => pairs.mapIdx entryOf

/-- A mapping made of a value. -/
def toMapping (v : Value) : Except Failure Value :=
  let put (entries : List (Value × Value)) (entry : Except Failure (Value × Value)) :=
    entry.map fun (key, content) => putEntry key content entries
  (v.entriesOf.foldlM put []).map mapping

end SqlComposition.Value
