import SqlComposition.Builder.Filter

/-!
The calls that build up a query. A call is a series of changes to the query; when one of them fails the
query keeps those before it. Nearly all calls make one change, after everything that can fail. `select` and
`group_by` make one change for each of their arguments.
-/

namespace SqlComposition
open Schema

/-- A series of changes to a query. Each is worked out when those before it are made. -/
abbrev Edit := List (Action (Query → Query))

namespace Edit

/-- One change, made when the work for it succeeds. -/
def change (work : Action (Query → Query)) : Edit :=
  [work]

/-- An edit that fails before it changes anything. -/
def refused (failure : Failure) : Edit :=
  [throw failure]

/-- The changes of an edit to the query of a builder, as far as they can be worked out. -/
def apply (number : Nat) (edit : Edit) : Action Unit :=
  edit.forM fun work => do
    let f ← work
    let b ← Action.known Store.builder? number
    Action.update (·.set number (.builder { b with query := f b.query }))

def reading {α : Type} (record : String) (checked : Checked α) : Action α :=
  Action.ofExcept (checked.orReject record)

/-- A label that was not given is none. -/
def label (given : Option Value) : Checked (Option String) :=
  ((nullable text) (given.getD .null)).under "alias"

def selectItem (expression : Checked Expression) (given : Option Value) : Action SelectItem :=
  reading "SelectItem" (SelectItem.mk <$> expression.under "expr" <*> label given)

def addSelection (item : SelectItem) (q : Query) : Query :=
  { q with selection := q.selection ++ [item] }

def select (columns : List Value) : Edit :=
  columns.map fun column => do return addSelection (← selectItem (expression column) none)

def selectRaw (sql : Value) (bindings : Option Value) : Edit :=
  change do
    let fragment ← Action.fragment sql bindings
    return addSelection ⟨.raw fragment, none⟩

def distinct : Edit :=
  change (pure fun q => { q with distinct := true })

/-- The column is written as plain text into the call of the function. -/
def aggregate (function : String) (column : Value) (given : Option Value) : Edit :=
  change do
    let written ← Action.write column
    return addSelection (← selectItem (.valid (.name (function ++ "(" ++ written ++ ")"))) given)

def setSource (s : Source) (q : Query) : Query :=
  { q with source := some s }

def table (name : Value) (given : Option Value) : Edit :=
  change do
    let read ← reading "FromClause"
      ((fun t a => Source.mk t none a) <$> (nullable text name).under "table" <*> label given)
    return setSource read

def subquery (query given : Value) : Edit :=
  change do
    let inner ← Action.query query
    return setSource (← reading "FromClause" ((fun a => Source.mk none (some inner) a) <$> label given))

def joinTarget : Value → Action JoinTarget
  | .scalar (.text name) => pure (.table name)
  | other => JoinTarget.query <$> Action.query other

/-- A join condition that is nothing is none. -/
def joinCondition : Option Value → Action (Option Fragment)
  | none => pure none
  | some (.scalar .null) => pure none
  | some on => some <$> Action.fragment on none

def join (kind : JoinKind) (target : Value) (on given : Option Value) : Edit :=
  change do
    let target ← joinTarget target
    let on ← joinCondition on
    let read ← reading "JoinClause" ((fun a => Join.mk kind target a on) <$> label given)
    return fun q => { q with joins := q.joins ++ [read] }

def cteBody : Value → Action CteBody
  | .scalar (.text sql) => pure (.raw ⟨sql, []⟩)
  | .fragment f => pure (.raw f)
  | other => CteBody.query <$> Action.query other

/-- Column names that count as false are none. -/
def cteColumns : Option Value → Action (Checked (Option (List String)))
  | none => pure (.valid none)
  | some given =>
    if given.isTruthy then do
      let names ← Action.ofExcept given.items
      return ((list text (.list names)).map some).under "columns"
    else pure (.valid none)

def cte (isRecursive : Bool) (name body : Value) (columns : Option Value) : Edit :=
  change do
    let body ← cteBody body
    let columns ← cteColumns columns
    let read ← reading "CTEClause"
      ((fun n cs => Cte.mk n cs body isRecursive) <$> (text name).under "name" <*> columns)
    return fun q => { q with ctes := q.ctes ++ [read] }

def addCondition (c : Condition) (q : Query) : Query :=
  { q with conditions := q.conditions ++ [c] }

def addHaving (c : Condition) (q : Query) : Query :=
  { q with having := q.having ++ [c] }

def filter (call : String) (f : Filter) (arguments : List Value) : Edit :=
  change do return addCondition (← f.condition call arguments)

def having (call : String) (f : Filter) (arguments : List Value) : Edit :=
  change do return addHaving (← f.condition call arguments)

def addGrouping (e : Expression) (q : Query) : Query :=
  { q with grouping := q.grouping ++ [e] }

def groupBy (columns : List Value) : Edit :=
  columns.map fun column => do return addGrouping (.name (← Action.write column))

def groupByRaw (sql : Value) (bindings : Option Value) : Edit :=
  change do return addGrouping (.raw (← Action.fragment sql bindings))

def addOrdering (item : OrderItem) (q : Query) : Query :=
  { q with ordering := q.ordering ++ [item] }

def upperByte (b : UInt8) : UInt8 :=
  if 97 ≤ b ∧ b ≤ 122 then b - 32 else b

/-- A direction that counts as false is ascending; any other is put in upper case. -/
def direction (given : Option Value) : Except Failure Value :=
  match given with
  | none => .ok (.text "ASC")
  | some a =>
    if !a.isTruthy then .ok (.text "ASC")
    else
      match a with
      | .scalar (.text s) => .ok (.text (Text.upper s))
      | .scalar (.bytes bytes) => .ok (.scalar (.bytes (bytes.map upperByte)))
      | other => .error (.noAttribute other.typeName "upper")

def orderBy (column : Value) (given : Option Value) : Edit :=
  change do
    let direction ← Action.ofExcept (direction given)
    let item ← reading "OrderByItem"
      (OrderItem.mk <$> (expression column).under "expr" <*> (nullable text direction).under "direction")
    return addOrdering item

def orderByRaw (sql : Value) (bindings : Option Value) : Edit :=
  change do
    let fragment ← Action.fragment sql bindings
    return addOrdering ⟨.raw fragment, none⟩

/-- What is given is kept as it is; nothing takes the limit away. -/
def bound? : Value → Option Value
  | .scalar .null => none
  | other => some other

def setLimit (rows : Value) (q : Query) : Query :=
  { q with limit := bound? rows }

def limit (rows : Value) : Edit :=
  change (pure (setLimit rows))

def setOffset (rows : Value) (q : Query) : Query :=
  { q with offset := bound? rows }

def offset (rows : Value) : Edit :=
  change (pure (setOffset rows))

def addSetOperation (operator : SetOperator) (member : Query) (q : Query) : Query :=
  { q with setOperations := q.setOperations ++ [⟨operator, member⟩] }

def combine (operator : SetOperator) (query : Value) : Edit :=
  change do return addSetOperation operator (← Action.query query)

end Edit

/-- The calls of a builder. -/
inductive Method where
  | cte (isRecursive : Bool)
  | select | selectRaw | distinct
  | aggregate (function : String)
  | table | subquery
  | join (kind : JoinKind)
  | filter (f : Filter)
  | groupBy | groupByRaw
  | having (f : Filter)
  | orderBy | orderByRaw
  | limit | offset
  | combine (operator : SetOperator)
  deriving DecidableEq, Repr

namespace Method

def named : List (String × Method) :=
  [("with_", cte false), ("with_recursive", cte true), ("select", select), ("select_raw", selectRaw),
    ("distinct", distinct), ("count", aggregate "COUNT"), ("sum", aggregate "SUM"),
    ("avg", aggregate "AVG"), ("min", aggregate "MIN"), ("max", aggregate "MAX"), ("from_", table),
    ("from_subquery", subquery), ("join", join .inner), ("left_join", join .left),
    ("right_join", join .right), ("full_join", join .full), ("cross_join", join .cross),
    ("group_by", groupBy), ("group_by_raw", groupByRaw), ("having", having ⟨.and, .compare⟩),
    ("or_having", having ⟨.or, .compare⟩), ("having_raw", having ⟨.and, .raw⟩),
    ("or_having_raw", having ⟨.or, .raw⟩), ("order_by", orderBy), ("order_by_raw", orderByRaw),
    ("limit", limit), ("offset", offset), ("union", combine .union),
    ("union_all", combine .unionAll)]

def ofName? (name : String) : Option Method :=
  match Filter.ofName? name with
  | some f => some (filter f)
  | none => named.lookup name

def parameters : Method → Parameters
  | cte _ => ⟨["name", "query"], 1⟩
  | select | distinct | groupBy => .none
  | selectRaw | groupByRaw | orderByRaw => ⟨["sql"], 1⟩
  | aggregate "COUNT" => ⟨[], 2⟩
  | aggregate _ => ⟨["column"], 1⟩
  | table => ⟨["table"], 1⟩
  | subquery => ⟨["query", "alias"], 0⟩
  | join .cross => ⟨["table"], 1⟩
  | join _ => ⟨["table"], 2⟩
  | filter f | having f => f.test.parameters
  | orderBy => ⟨["column"], 1⟩
  | limit => ⟨["limit"], 0⟩
  | offset => ⟨["offset"], 0⟩
  | combine _ => ⟨["query"], 0⟩

/-- The call of a method in full. Conditions are called for on queries and on statements alike. -/
def callName (name : String) : Method → String
  | filter _ => Filter.callName name
  | _ => "QueryBuilder." ++ name

def mismatch (name : String) (m : Method) (arguments : List Value) : Failure :=
  m.parameters.mismatch (m.callName name) 1 arguments.length

/-- The change that a call makes with its arguments, as far as it gets. -/
def edit (name : String) : Method → List Value → Edit
  | cte isRecursive, [cteName, body] => Edit.cte isRecursive cteName body none
  | cte isRecursive, [cteName, body, columns] => Edit.cte isRecursive cteName body (some columns)
  | select, columns => Edit.select columns
  | selectRaw, [sql] => Edit.selectRaw sql none
  | selectRaw, [sql, bindings] => Edit.selectRaw sql (some bindings)
  | distinct, [] => Edit.distinct
  | aggregate "COUNT", [] => Edit.aggregate "COUNT" (.text "*") none
  | aggregate function, [column] => Edit.aggregate function column none
  | aggregate function, [column, label] => Edit.aggregate function column (some label)
  | table, [source] => Edit.table source none
  | table, [source, label] => Edit.table source (some label)
  | subquery, [query, label] => Edit.subquery query label
  | join .cross, [target] => Edit.join .cross target none none
  | join .cross, [target, label] => Edit.join .cross target none (some label)
  | join .cross, arguments => .refused (mismatch name (join .cross) arguments)
  | join kind, [target] => Edit.join kind target none none
  | join kind, [target, on] => Edit.join kind target (some on) none
  | join kind, [target, on, label] => Edit.join kind target (some on) (some label)
  | filter f, arguments => Edit.filter (Filter.callName name) f arguments
  | groupBy, columns => Edit.groupBy columns
  | groupByRaw, [sql] => Edit.groupByRaw sql none
  | groupByRaw, [sql, bindings] => Edit.groupByRaw sql (some bindings)
  | having f, arguments => Edit.having ("QueryBuilder." ++ name) f arguments
  | orderBy, [column] => Edit.orderBy column none
  | orderBy, [column, direction] => Edit.orderBy column (some direction)
  | orderByRaw, [sql] => Edit.orderByRaw sql none
  | orderByRaw, [sql, bindings] => Edit.orderByRaw sql (some bindings)
  | limit, [rows] => Edit.limit rows
  | offset, [rows] => Edit.offset rows
  | combine operator, [query] => Edit.combine operator query
  | m, arguments => .refused (m.mismatch name arguments)

end Method

end SqlComposition
