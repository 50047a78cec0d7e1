import SqlComposition.Builder.Method

/-!
Calls that read a builder and leave its query as it is: the two forms of the text, the bound values
alone, and copies.
-/

namespace SqlComposition

inductive Reading where
  | text | bound | values | query | copy
  deriving DecidableEq, Repr

namespace Reading

def ofName? : String → Option Reading
  | "build" => some text
  | "build_with_bindings" | "to_sql" => some bound
  | "bindings" => some values
  | "snapshot" => some query
  | "clone" => some copy
  | _ => none

def boundForm (number : Nat) : Action BoundQuery := do
  let b ← Action.shownBuilder number
  Action.logSourceless b.sourcelessBound
  Action.ofExcept b.bound

def perform (number : Nat) : Reading → Action Value
  | text => .text <$> Action.write (Action.builderValue number)
  | bound => .bound <$> boundForm number
  | values => return .list (← boundForm number).values
  | query => .query <$> Action.snapshot number
  | copy => Action.builderValue <$> Action.clone number

/-- The dialect can be looked at by a name too, but it cannot be called. -/
def isKnown (name : String) : Bool :=
  (ofName? name).isSome || name == "dialect"

/-- What a call by a name reads. -/
def call (number : Nat) (name : String) (arguments : List Value) : Action Value := do
  match ofName? name with
  | some reading =>
    if arguments.isEmpty then reading.perform number
    else throw (Parameters.none.mismatch ("QueryBuilder." ++ name) 1 arguments.length)
  | none =>
    if isKnown name then throw (.notCallable (← Action.known Store.builder? number).dialect.typeName)
    else throw (.noAttribute "QueryBuilder" name)

end Reading

end SqlComposition
