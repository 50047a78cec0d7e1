import SqlComposition.Builder
import SqlComposition.Value.Mapping

/-!
Statements that modify data: INSERT of rows, UPDATE of columns and DELETE, the last two with conditions.
The data of a statement is kept as it was given and written when the statement is; a builder in it stands
for its query in parentheses. The columns of an INSERT are those of its first row; what another row lacks
is NULL.
-/

namespace SqlComposition

/-- The executor is known by its number. -/
structure Statement where
  kind : StatementKind
  executor : Nat
  table : Value
  rows : List Value := []
  assignments : List (Value × Value) := []
  conditions : List Condition := []
  returning : List Value := []

namespace Statement

/-- A text that is rendered by itself. -/
def rendered (work : Rendering String) : Writing String := do
  let (text, r) := Rendering.outcome work
  Writing.count r.sourceless
  Writing.ofExcept text

def cell (v : Value) : Writing String :=
  rendered (v.render Rendering.format .full)

def returningText : List Value → Except Failure String
  | [] => .ok ""
  | columns => (Value.commaJoined columns).map (" RETURNING " ++ ·)

def conditionsText (conditions : List Condition) : Writing String :=
  match conditions with
  | [] => pure ""
  | all => do
    let work := do return Grouping.text (← Condition.renderEach Rendering.format .full all)
    return " WHERE " ++ (← rendered work)

/-- The content of a row under a column. -/
def entry (row column : Value) : Except Failure Value :=
  match row with
  | .mapping entries => .ok ((Value.lookupEntry column entries).getD .null)
  | other => .error (.noAttribute other.typeName "get")

def cellsText (contents : List Value) : Writing String := do
  return "(" ++ ", ".intercalate (← contents.mapM cell) ++ ")"

def rowText (columns : List Value) (row : Value) : Writing String := do
  let cells ← columns.mapM fun column => do cell (← Writing.ofExcept (entry row column))
  return "(" ++ ", ".intercalate cells ++ ")"

/-- The row that names the columns is written with the contents it has. -/
def firstRowText (columns : List Value) : Value → Writing String
  | .mapping entries => cellsText (entries.map Prod.snd)
  | other => rowText columns other

def assignmentText (assignment : Value × Value) : Writing String := do
  let column ← assignment.1.write
  return column ++ " = " ++ (← cell assignment.2)

def insertText (s : Statement) : Writing String :=
  match s.rows with
  | [] => throw (.noData "insert")
  | first :: others => do
    let columns ← Writing.ofExcept first.items
    if columns.isEmpty then throw (.noData "insert")
    let leading ← firstRowText columns first
    let tuples ← others.mapM (rowText columns)
    let table ← s.table.write
    let names ← Writing.ofExcept (Value.commaJoined columns)
    let returning ← Writing.ofExcept (returningText s.returning)
    return "INSERT INTO " ++ table ++ " (" ++ names ++ ") VALUES " ++
      ", ".intercalate (leading :: tuples) ++ returning

def updateText (s : Statement) : Writing String := do
  if s.assignments.isEmpty then throw (.noData "update")
  let assignments ← s.assignments.mapM assignmentText
  let table ← s.table.write
  let conditions ← conditionsText s.conditions
  let returning ← Writing.ofExcept (returningText s.returning)
  return "UPDATE " ++ table ++ " SET " ++ ", ".intercalate assignments ++ conditions ++ returning

def deleteText (s : Statement) : Writing String := do
  let table ← s.table.write
  let conditions ← conditionsText s.conditions
  let returning ← Writing.ofExcept (returningText s.returning)
  return "DELETE FROM " ++ table ++ conditions ++ returning

def text (s : Statement) : Writing String :=
  match s.kind with
  | .insert => s.insertText
  | .update => s.updateText
  | .delete => s.deleteText

def rendition (s : Statement) : Rendition :=
  let (text, sourceless) := Writing.outcome s.text
  ⟨text, sourceless⟩

/-- The rows that some data is: rows of their own, or a single one. Having none is refused. -/
def rowsOf (data : Value) : Except Failure (List Value) :=
  match data with
  | .mapping _ => .ok [data]
  | other => do
    let rows ← other.items
    if rows.isEmpty then throw (.noData "insert")
    return rows

def setRows (rows : List Value) (s : Statement) : Statement :=
  { s with rows := rows }

def assign (assignment : Value × Value) (s : Statement) : Statement :=
  { s with assignments := Value.putEntry assignment.1 assignment.2 s.assignments }

def addCondition (c : Condition) (s : Statement) : Statement :=
  { s with conditions := s.conditions ++ [c] }

def addReturning (columns : List Value) (s : Statement) : Statement :=
  { s with returning := s.returning ++ columns }

/-- The contents of a row with other values in their places. -/
def mapRow (key content : Value → Value) : Value → Value
  | .mapping entries => .mapping (entries.map fun e => (key e.1, content e.2))
  | other => key other

/-- Replaces the objects in a statement; the contents of cells are replaced as a whole. -/
def mapData (f : Object → Object) (content : Value → Value) (s : Statement) : Statement :=
  { s with
    table := s.table.mapObjects f
    rows := s.rows.map (mapRow (·.mapObjects f) content)
    assignments := s.assignments.map fun e => (e.1.mapObjects f, content e.2)
    conditions := s.conditions.map (·.mapObjects f)
    returning := s.returning.map (·.mapObjects f) }

end Statement

end SqlComposition
