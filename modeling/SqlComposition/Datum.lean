import SqlComposition.Query

/-!
Values that describe themselves. Every value, query or part of a query can be laid out as a datum:
plain data, collections of data, and records with a name and named fields. Data have a shown form, and
the plain text of a value is its shown form wherever no shorter text is its own.
-/

namespace SqlComposition

inductive Datum where
  | scalar (s : Scalar)
  | list (items : List Datum)
  | tuple (items : List Datum)
  | mapping (entries : List (Datum × Datum))
  | record (name : String) (fields : List (String × Datum))
  | object (o : Object)

namespace Datum

def text (s : String) : Datum := .scalar (.text s)
def bool (b : Bool) : Datum := .scalar (.bool b)
def null : Datum := .scalar .null

def ofOption : Option String → Datum
  | none => null
  | some s => text s

def brackets (opening closing : String) (parts : List String) : String :=
  opening ++ ", ".intercalate parts ++ closing

/-- A tuple of one keeps a comma. -/
def tupleText : List String → String
  | [only] => "(" ++ only ++ ",)"
  | parts => brackets "(" ")" parts

mutual

def shown : Datum → String
  | scalar s => s.shown
  | list items => brackets "[" "]" (shownItems items)
  | tuple items => tupleText (shownItems items)
  | mapping entries => brackets "\x7b" "\x7d" (shownEntries entries)
  | record name fields => brackets (name ++ "(") ")" (shownFields fields)
  | object o => "<" ++ o.typeName ++ " object>"

def shownItems : List Datum → List String
  | [] => []
  | item :: rest => item.shown :: shownItems rest

def shownEntries : List (Datum × Datum) → List String
  | [] => []
  | (key, value) :: rest => (key.shown ++ ": " ++ value.shown) :: shownEntries rest

def shownFields : List (String × Datum) → List String
  | [] => []
  | (name, value) :: rest => (name ++ "=" ++ value.shown) :: shownFields rest

end

/-- A record on its own is written as its fields, without its name. -/
def plainText : Datum → String
  | scalar s => s.plainText
  | record _ fields => " ".intercalate (shownFields fields)
  | other => other.shown

end Datum

mutual

def Value.datum : Value → Datum
  | .scalar s => .scalar s
  | .list items => .list (Value.data items)
  | .tuple items => .tuple (Value.data items)
  | .mapping entries => .mapping (Value.entryData entries)
  | .fragment f => f.datum
  | .query q => q.datum
  | .part p => p.datum
  | .bound b => b.datum
  | .object o => .object o

def Value.data : List Value → List Datum
  | [] => []
  | v :: rest => v.datum :: Value.data rest

def Value.entryData : List (Value × Value) → List (Datum × Datum)
  | [] => []
  | (key, value) :: rest => (key.datum, value.datum) :: Value.entryData rest

def Value.optionDatum : Option Value → Datum
  | none => .null
  | some v => v.datum

def Fragment.datum : Fragment → Datum
  | ⟨sql, bindings⟩ => .record "RawSQL" [("sql", .text sql), ("bindings", .list (Value.data bindings))]

def Fragment.optionDatum : Option Fragment → Datum
  | none => .null
  | some f => f.datum

def Members.datum : Members → Datum
  | .listed values => .list (Value.data values)
  | .query q => q.datum

def Predicate.datum : Predicate → Datum
  | .comparison column operator value =>
    .record "ComparisonPredicate"
      [("kind", .text "comparison"), ("column", .text column), ("operator", .text operator),
        ("value", value.datum)]
  | .member column members negated =>
    .record "InPredicate"
      [("kind", .text "in"), ("column", .text column), ("values", members.datum),
        ("negated", .bool negated)]
  | .null column negated =>
    .record "NullPredicate"
      [("kind", .text "null"), ("column", .text column), ("negated", .bool negated)]
  | .between column low high negated =>
    .record "BetweenPredicate"
      [("kind", .text "between"), ("column", .text column), ("low", low.datum), ("high", high.datum),
        ("negated", .bool negated)]
  | .nonempty query negated =>
    .record "ExistsPredicate"
      [("kind", .text "exists"), ("query", query.datum), ("negated", .bool negated)]
  | .raw fragment => .record "RawPredicate" [("kind", .text "raw"), ("fragment", fragment.datum)]

def Condition.datum : Condition → Datum
  | ⟨connective, predicate⟩ =>
    .record "Condition"
      [("connective", .text connective.keyword), ("predicate", predicate.datum)]

def Condition.data : List Condition → List Datum
  | [] => []
  | c :: rest => c.datum :: Condition.data rest

def Expression.datum : Expression → Datum
  | .name text => .text text
  | .raw fragment => fragment.datum

def Expression.data : List Expression → List Datum
  | [] => []
  | e :: rest => e.datum :: Expression.data rest

def SelectItem.datum : SelectItem → Datum
  | ⟨expression, label⟩ =>
    .record "SelectItem" [("expr", expression.datum), ("alias", .ofOption label)]

def SelectItem.data : List SelectItem → List Datum
  | [] => []
  | item :: rest => item.datum :: SelectItem.data rest

def Source.datum : Source → Datum
  | ⟨table, subquery, label⟩ =>
    .record "FromClause"
      [("table", .ofOption table), ("subquery", Query.optionDatum subquery), ("alias", .ofOption label)]

def Source.optionDatum : Option Source → Datum
  | none => .null
  | some s => s.datum

def JoinTarget.datum : JoinTarget → Datum
  | .table name => .text name
  | .query q => q.datum

def Join.datum : Join → Datum
  | ⟨kind, target, label, on⟩ =>
    .record "JoinClause"
      [("kind", .text kind.keyword), ("table", target.datum), ("alias", .ofOption label),
        ("on", Fragment.optionDatum on)]

def Join.data : List Join → List Datum
  | [] => []
  | j :: rest => j.datum :: Join.data rest

def OrderItem.datum : OrderItem → Datum
  | ⟨expression, direction⟩ =>
    .record "OrderByItem" [("expr", expression.datum), ("direction", .ofOption direction)]

def OrderItem.data : List OrderItem → List Datum
  | [] => []
  | item :: rest => item.datum :: OrderItem.data rest

def CteBody.datum : CteBody → Datum
  | .query q => q.datum
  | .raw fragment => fragment.datum

def Cte.datum : Cte → Datum
  | ⟨name, columns, body, isRecursive⟩ =>
    .record "CTEClause"
      [("name", .text name),
        ("columns", match columns with | none => .null | some names => .list (names.map .text)),
        ("query", body.datum), ("recursive", .bool isRecursive)]

def Cte.data : List Cte → List Datum
  | [] => []
  | c :: rest => c.datum :: Cte.data rest

def SetOperation.datum : SetOperation → Datum
  | ⟨operator, query⟩ =>
    .record "SetOpClause"
      [("op", .text (match operator with | .union => "UNION" | .unionAll => "UNION_ALL")),
        ("query", query.datum)]

def SetOperation.data : List SetOperation → List Datum
  | [] => []
  | s :: rest => s.datum :: SetOperation.data rest

def Query.datum : Query → Datum
  | ⟨ctes, distinct, selection, source, joins, conditions, grouping, having, setOperations, ordering,
      limit, offset⟩ =>
    .record "QueryState"
      [("ctes", .list (Cte.data ctes)), ("distinct", .bool distinct),
        ("select", .list (SelectItem.data selection)), ("from_", Source.optionDatum source),
        ("joins", .list (Join.data joins)), ("where", .list (Condition.data conditions)),
        ("group_by", .list (Expression.data grouping)), ("having", .list (Condition.data having)),
        ("set_ops", .list (SetOperation.data setOperations)),
        ("order_by", .list (OrderItem.data ordering)), ("limit", Value.optionDatum limit),
        ("offset", Value.optionDatum offset)]

def Query.optionDatum : Option Query → Datum
  | none => .null
  | some q => q.datum

def Part.datum : Part → Datum
  | .selectItem item => item.datum
  | .source s => s.datum
  | .join j => j.datum
  | .condition c => c.datum
  | .predicate p => p.datum
  | .orderItem item => item.datum
  | .cte c => c.datum
  | .setOperation s => s.datum

def BoundQuery.datum : BoundQuery → Datum
  | ⟨sql, values, dialect⟩ =>
    .record "CompiledSQL"
      [("sql", .text sql), ("bindings", .list (Value.data values)), ("dialect", .text dialect)]

end

/-- The name of the kind of record that a datum is. -/
def Datum.recordName? : Datum → Option String
  | record name _ => some name
  | _ => none

def Part.typeName (p : Part) : String :=
  p.datum.recordName?.getD ""

/-- The text of a value that is written without any quoting. -/
def Value.plainText : Value → Except Failure String
  | .fragment f => .ok f.sql
  | .bound b => .ok b.sql
  | .object o => if o.kind.isWritten then o.form.text else .ok (Datum.object o).plainText
  | other => .ok other.datum.plainText

/-- How many SELECTs without a FROM clause are met while the plain text of a value is written. -/
def Value.sourceless : Value → Nat
  | .object o => if o.kind.isWritten then o.form.sourceless else 0
  | _ => 0

@[simp] theorem Value.plainText_scalar (s : Scalar) :
    (Value.scalar s).plainText = .ok s.plainText := by
  simp [Value.plainText, Value.datum, Datum.plainText]

end SqlComposition
