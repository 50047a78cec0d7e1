import SqlComposition.Object
import SqlComposition.Scalar

/-!
What a SELECT query is made of. A value stands where SQL has an operand: plain data, a fragment of
trusted SQL with values for its slots, a whole query, or an object. Every nested query is stored as a
value of its own, so nothing but objects is shared between a query and the queries in it.
-/

namespace SqlComposition

inductive Connective where
  | and | or
  deriving DecidableEq, Repr

def Connective.keyword : Connective → String
  | and => "AND"
  | or => "OR"

inductive JoinKind where
  | inner | left | right | full | cross
  deriving DecidableEq, Repr

def JoinKind.keyword : JoinKind → String
  | inner => "INNER"
  | left => "LEFT"
  | right => "RIGHT"
  | full => "FULL"
  | cross => "CROSS"

inductive SetOperator where
  | union | unionAll
  deriving DecidableEq, Repr

def SetOperator.keyword : SetOperator → String
  | union => "UNION"
  | unionAll => "UNION ALL"

mutual

inductive Value where
  | scalar (s : Scalar)
  | list (items : List Value)
  | tuple (items : List Value)
  | mapping (entries : List (Value × Value))
  | fragment (f : Fragment)
  | query (q : Query)
  | part (p : Part)
  | bound (b : BoundQuery)
  | object (o : Object)

/-- Trusted SQL text; each bare `?` in it is a slot for one of the bindings, in order. -/
structure Fragment where
  sql : String
  bindings : List Value := []

/-- The right side of an IN test. -/
inductive Members where
  | listed (values : List Value)
  | query (q : Query)

inductive Predicate where
  | comparison (column operator : String) (value : Value)
  | member (column : String) (members : Members) (negated : Bool)
  | null (column : String) (negated : Bool)
  | between (column : String) (low high : Value) (negated : Bool)
  | nonempty (query : Query) (negated : Bool)
  | raw (fragment : Fragment)

/-- The connective joins a condition to the one before it. -/
structure Condition where
  connective : Connective := .and
  predicate : Predicate

inductive Expression where
  | name (text : String)
  | raw (fragment : Fragment)

structure SelectItem where
  expression : Expression
  label : Option String := none

/-- The target of FROM; a subquery goes before a table. -/
structure Source where
  table : Option String := none
  subquery : Option Query := none
  label : Option String := none

inductive JoinTarget where
  | table (name : String)
  | query (q : Query)

structure Join where
  kind : JoinKind := .inner
  target : JoinTarget
  label : Option String := none
  on : Option Fragment := none

structure OrderItem where
  expression : Expression
  direction : Option String := some "ASC"

inductive CteBody where
  | query (q : Query)
  | raw (fragment : Fragment)

/-- A named query of the WITH clause. -/
structure Cte where
  name : String
  columns : Option (List String) := none
  body : CteBody
  isRecursive : Bool := false

structure SetOperation where
  operator : SetOperator
  query : Query

/-- An empty selection stands for all columns. Ordering, limit and offset apply after the set
operations. Limit and offset are kept as given and written as plain text. -/
structure Query where
  ctes : List Cte := []
  distinct : Bool := false
  selection : List SelectItem := []
  source : Option Source := none
  joins : List Join := []
  conditions : List Condition := []
  grouping : List Expression := []
  having : List Condition := []
  setOperations : List SetOperation := []
  ordering : List OrderItem := []
  limit : Option Value := none
  offset : Option Value := none

/-- A part of a query that stands by itself. -/
inductive Part where
  | selectItem (item : SelectItem)
  | source (s : Source)
  | join (j : Join)
  | condition (c : Condition)
  | predicate (p : Predicate)
  | orderItem (item : OrderItem)
  | cte (c : Cte)
  | setOperation (s : SetOperation)

/-- Text with placeholders, the values for them, and the name of the dialect it is for. -/
structure BoundQuery where
  sql : String
  values : List Value
  dialect : String

end

namespace Value

def null : Value := .scalar .null
def text (s : String) : Value := .scalar (.text s)
def int (n : Int) : Value := .scalar (.int n)

end Value

def Query.empty : Query := {}

namespace Value

def ofOption {α : Type} (make : α → Value) : Option α → Value
  | none => null
  | some a => make a

def ofConditions (conditions : List Condition) : Value :=
  .list (conditions.map fun c => .part (.condition c))

def ofExpression : Expression → Value
  | .name s => text s
  | .raw f => .fragment f

end Value

/-- The fields of a fragment with their contents. -/
def Fragment.fields (f : Fragment) : List (String × Value) :=
  [("sql", .text f.sql), ("bindings", .list f.bindings)]

/-- The fields of a bound query with their contents. -/
def BoundQuery.fields (b : BoundQuery) : List (String × Value) :=
  [("sql", .text b.sql), ("bindings", .list b.values), ("dialect", .text b.dialect)]

/-- The fields of a query with their contents. -/
def Query.fields (q : Query) : List (String × Value) :=
  [("ctes", .list (q.ctes.map fun c => .part (.cte c))), ("distinct", .scalar (.bool q.distinct)),
    ("select", .list (q.selection.map fun item => .part (.selectItem item))),
    ("from_", .ofOption (fun s => .part (.source s)) q.source),
    ("joins", .list (q.joins.map fun j => .part (.join j))), ("where", .ofConditions q.conditions),
    ("group_by", .list (q.grouping.map .ofExpression)), ("having", .ofConditions q.having),
    ("set_ops", .list (q.setOperations.map fun s => .part (.setOperation s))),
    ("order_by", .list (q.ordering.map fun item => .part (.orderItem item))),
    ("limit", .ofOption id q.limit), ("offset", .ofOption id q.offset)]

end SqlComposition
