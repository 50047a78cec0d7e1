import SqlComposition.Action
import SqlComposition.Schema
import SqlComposition.Text.Blank
import SqlComposition.Text.Uppercase

/-!
Conditions from the arguments of a call. The words of an operator are joined by single blanks and put in
upper case; the list, null and range operators then become tests of their own, and everything else is a
comparison.
-/

namespace SqlComposition

namespace Action

/-- Nothing given, and anything given that is empty, stands for no bindings. -/
def bindings : Option Value → Action (List Value)
  | none => pure []
  | some v => do
    if v.isTruthy then (← ofExcept v.items).mapM operand else return []

/-- Trusted SQL with bindings; a fragment keeps its own. -/
def fragment (sql : Value) (given : Option Value) : Action Fragment := do
  match sql with
  | .fragment f => return f
  | other =>
    let values ← bindings given
    let text ← ofExcept ((Checked.under "sql" (Schema.text other)).orReject "RawSQL")
    return ⟨text, values⟩

/-- What an IN test looks for: a query, the items of a collection, or a single value. -/
def members (v : Value) : Action Members := do
  match v with
  | .object ⟨_, .builder, _⟩ | .object ⟨_, .function, _⟩ => return .query (← query v)
  | .scalar _ | .fragment _ => return .listed [v]
  | other =>
    match other.items? with
    | none => return .listed [other]
    | some items => return .listed (← items.mapM operand)

end Action

namespace Filter
open Schema

/-- The words of an operator in upper case, with single blanks between them. -/
def normalize (operator : String) : String :=
  Text.upper (" ".intercalate (Text.words operator))

inductive Routing where
  | member (negated : Bool)
  | null (negated : Bool)
  | between (negated : Bool)
  | comparison
  deriving DecidableEq, Repr

/-- The test that a normalized operator stands for. -/
def route : String → Routing
  | "IN" => .member false
  | "NOT IN" => .member true
  | "IS NULL" => .null false
  | "IS NOT NULL" => .null true
  | "BETWEEN" => .between false
  | "NOT BETWEEN" => .between true
  | _ => .comparison

def columnOf (kind : PredicateKind) (column : Value) : Action String :=
  Action.ofExcept ((Checked.under "column" (text column)).orReject kind.recordName)

def member (negated : Bool) (column values : Value) : Action Predicate := do
  let members ← Action.members values
  return .member (← columnOf .member column) members negated

def null (negated : Bool) (column : Value) : Action Predicate :=
  return .null (← columnOf .null column) negated

def between (negated : Bool) (column low high : Value) : Action Predicate := do
  let low ← Action.operand low
  let high ← Action.operand high
  return .between (← columnOf .between column) low high negated

/-- Two items are the ends of a range; anything else is both ends. -/
def ends : Value → Value × Value
  | .list [low, high] => (low, high)
  | .tuple [low, high] => (low, high)
  | other => (other, other)

def routed (operator : String) (column value : Value) : Action Predicate :=
  match route operator with
  | .member negated => member negated column value
  | .null negated => null negated column
  | .between negated => between negated column (ends value).1 (ends value).2
  | .comparison => do
    let value ← Action.operand value
    return .comparison (← columnOf .comparison column) operator value

/-- An operator that counts as false is the equals sign. -/
def compare (column operator value : Value) : Action Predicate := do
  let written ← if operator.isTruthy then Action.write operator else pure "="
  routed (normalize written) column value

def nonempty (negated : Bool) (query : Value) : Action Predicate :=
  return .nonempty (← Action.query query) negated

def raw (sql : Value) (given : Option Value) : Action Predicate :=
  return .raw (← Action.fragment sql given)

end Filter

/-- The tests that a condition can be called for by name. -/
inductive Test where
  | compare
  | member (negated : Bool)
  | null (negated : Bool)
  | between (negated : Bool)
  | nonempty (negated : Bool)
  | raw
  deriving DecidableEq, Repr

def Test.parameters : Test → Parameters
  | compare => ⟨["column", "operator"], 1⟩
  | member _ => ⟨["column", "values"], 0⟩
  | null _ => ⟨["column"], 0⟩
  | between _ => ⟨["column", "low", "high"], 0⟩
  | nonempty _ => ⟨["query"], 0⟩
  | raw => ⟨["sql"], 1⟩

/-- The predicate that a test makes of its arguments; a comparison of two compares for equality. -/
def Test.predicate (call : String) : Test → List Value → Action Predicate
  | .compare, [column, value] => Filter.routed "=" column value
  | .compare, [column, operator, value] => Filter.compare column operator value
  | .member negated, [column, values] => Filter.member negated column values
  | .null negated, [column] => Filter.null negated column
  | .between negated, [column, low, high] => Filter.between negated column low high
  | .nonempty negated, [query] => Filter.nonempty negated query
  | .raw, [sql] => Filter.raw sql none
  | .raw, [sql, bindings] => Filter.raw sql (some bindings)
  | test, arguments => throw (test.parameters.mismatch call 1 arguments.length)

/-- The names of the tests behind `where`. -/
def Test.ofName? : String → Option Test
  | "where" => some .compare
  | "where_in" => some (.member false)
  | "where_not_in" => some (.member true)
  | "where_null" => some (.null false)
  | "where_not_null" => some (.null true)
  | "where_between" => some (.between false)
  | "where_not_between" => some (.between true)
  | "where_exists" => some (.nonempty false)
  | "where_not_exists" => some (.nonempty true)
  | "where_raw" => some .raw
  | _ => none

/-- A test and how its condition is joined to the one before. -/
structure Filter where
  connective : Connective
  test : Test
  deriving DecidableEq, Repr

/-- A name starting with `or_` joins by OR. -/
def Filter.ofName? (name : String) : Option Filter :=
  match Test.ofName? name with
  | some test => some ⟨.and, test⟩
  | none =>
    if name.startsWith "or_" then (Test.ofName? (name.drop 3).toString).map (⟨.or, ·⟩) else none

/-- The call of a filter in full. -/
def Filter.callName (name : String) : String :=
  "ConditionsMixin." ++ name

def Filter.condition (call : String) (f : Filter) (arguments : List Value) : Action Condition :=
  return ⟨f.connective, ← f.test.predicate call arguments⟩

end SqlComposition
