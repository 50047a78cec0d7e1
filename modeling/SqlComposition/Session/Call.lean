import SqlComposition.Session.Execution

/-!
The calls that objects of a session answer. What can be read off a builder leaves it as it is, and so
does the execution of a statement; every other call of a builder or statement edits it in place.
Factories and tables make new objects. A name is looked up after the arguments are worked out.
-/

namespace SqlComposition.Session

inductive FactoryMethod where
  | query | select | source | table
  | statement (kind : StatementKind)
  | fetch | first
  deriving DecidableEq, Repr

namespace FactoryMethod

def named : List (String × FactoryMethod) :=
  [("query", query), ("select", select), ("from_", source), ("table", table),
    ("insert", statement .insert), ("update", statement .update), ("delete", statement .delete),
    ("fetch", fetch), ("first", first)]

def parameters : FactoryMethod → Parameters
  | query | select => .none
  | source => ⟨["table"], 1⟩
  | table => ⟨["name"], 0⟩
  | statement _ => ⟨["table"], 0⟩
  | fetch | first => ⟨["query"], 0⟩

end FactoryMethod

inductive TableMethod where
  | select | filter | insert | update | delete
  deriving DecidableEq, Repr

namespace TableMethod

def named : List (String × TableMethod) :=
  [("select", select), ("where", filter), ("insert", insert), ("update", update), ("delete", delete)]

def parameters : TableMethod → Parameters
  | select | delete => .none
  | filter => Test.compare.parameters
  | insert | update => ⟨["data"], 0⟩

end TableMethod

/-- The receiver of a call, or a value from elsewhere. -/
inductive Outcome where
  | self
  | value (v : Value)

/-- What comes back is the receiver itself if it is the same object or the same text. -/
def Outcome.ofValue (receiver v : Value) : Outcome :=
  match receiver, v with
  | .object a, .object b => if a.number = b.number then self else value v
  | .scalar (.text a), .scalar (.text b) => if a = b then self else value v
  | _, _ => value v

@[simp] theorem Outcome.ofValue_text (s : String) : ofValue (.text s) (.text s) = self := by
  simp [ofValue, Value.text]

def callBuilder (number : Nat) (method : String) (arguments : List Value) : Action Value := do
  match Method.ofName? method with
  | some m =>
    Edit.apply number (m.edit method arguments)
    return Action.builderValue number
  | none => Reading.call number method arguments

def use (kind : StatementKind) (number : Nat) : Statement.Use → Action Value
  | .text => .text <$> Action.write (Statement.valueOf kind number)
  | .execution => executeStatement kind number

def callStatement (kind : StatementKind) (number : Nat) (method : String) (arguments : List Value) :
    Action Value := do
  match Statement.Method.ofName? kind method, Statement.Use.ofName? method with
  | some m, _ =>
    Statement.Edit.apply number (m.edit method arguments)
    return Statement.valueOf kind number
  | none, some u =>
    if !arguments.isEmpty then throw (u.mismatch kind arguments.length)
    use kind number u
  | none, none => throw (Statement.nameFailure kind method)

/-- A dialect writes the placeholder for a position; one without numbers does not look at it. -/
def callDialect (d : Dialect) : String → List Value → Action Value
  | "param_placeholder", [position] => do
    if d = .question then return .text d.template else return .text (d.write (← Action.write position))
  | "param_placeholder", arguments =>
    throw (Parameters.mismatch ⟨["position"], 0⟩ (d.typeName ++ ".param_placeholder") 1 arguments.length)
  | "dialect_name", _ => throw (.notCallable "str")
  | method, _ => throw (.noAttribute d.typeName method)

/-- Applies edits to a new builder. -/
def made (dialect : Value) (edit : Edit) : Action Value := do
  let number ← Action.newBuilder dialect .empty
  edit.apply number
  return Action.builderValue number

def statementOf (f : Factory) (kind : StatementKind) (table : Value) : Statement :=
  { kind, executor := f.executor, table }

def performFactory (name : String) (number : Nat) (f : Factory) : FactoryMethod → List Value → Action Value
  | .query, [] => made f.dialect []
  | .select, columns => made f.dialect (Edit.select columns)
  | .source, [table] => made f.dialect (Edit.table table none)
  | .source, [table, label] => made f.dialect (Edit.table table (some label))
  | .table, [table] => Action.make .table (.table ⟨number, table⟩)
  | .statement kind, [table] => Action.makeStatement (statementOf f kind table)
  | .fetch, [query] => fetch f.executor query
  | .first, [query] => first f.executor query
  | m, arguments => throw (m.parameters.mismatch ("StatementFactory." ++ name) 1 arguments.length)

def callFactory (number : Nat) (method : String) (arguments : List Value) : Action Value := do
  match FactoryMethod.named.lookup method with
  | none => throw (.noAttribute "StatementFactory" method)
  | some m => performFactory method number (← Action.known Store.factory? number) m arguments

/-- The edit for a builder that reads from a table, with one condition. -/
def filtered (table : Value) (condition : List Value) : Edit :=
  Edit.table table none ++ Edit.filter (Filter.callName "where") ⟨.and, .compare⟩ condition

def performTable (name : String) (f : Factory) (table : Value) : TableMethod → List Value → Action Value
  | .select, columns => made f.dialect (Edit.select columns ++ Edit.table table none)
  | .filter, [column, value] => made f.dialect (filtered table [column, value])
  | .filter, [column, operator, value] => made f.dialect (filtered table [column, operator, value])
  | .insert, [data] => do
    let rows ← Action.ofExcept (Statement.rowsOf data)
    Action.makeStatement { statementOf f .insert table with rows }
  | .update, [data] => do
    let number ← Action.add (.statement (statementOf f .update table))
    Statement.Edit.apply number (Statement.Method.set.edit "set" [data])
    return Statement.valueOf .update number
  | .delete, [] => Action.makeStatement (statementOf f .delete table)
  | m, arguments => throw (m.parameters.mismatch ("TableStatements." ++ name) 1 arguments.length)

def callTable (number : Nat) (method : String) (arguments : List Value) : Action Value := do
  match TableMethod.named.lookup method with
  | none => throw (.noAttribute "TableStatements" method)
  | some m =>
    let t ← Action.known Store.table? number
    performTable method (← Action.known Store.factory? t.factory) t.name m arguments

/-- Calls a method of whatever a value is. -/
def callMethod (receiver : Value) (method : String) (arguments : List Value) : Action Value :=
  match receiver with
  | .object ⟨number, .builder, _⟩ => callBuilder number method arguments
  | .object ⟨number, .statement kind, _⟩ => callStatement kind number method arguments
  | .object ⟨number, .factory, _⟩ => callFactory number method arguments
  | .object ⟨number, .table, _⟩ => callTable number method arguments
  | .object ⟨_, .dialect d, _⟩ => callDialect d method arguments
  | other => throw (other.nameFailure method)

end SqlComposition.Session
