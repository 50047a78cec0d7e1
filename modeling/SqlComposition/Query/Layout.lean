import SqlComposition.Emission
import SqlComposition.Grouping

/-!
The layout of a query: one line for each clause it has, in the order WITH, SELECT, FROM, joins, WHERE,
GROUP BY, HAVING, set operations, ORDER BY, LIMIT, OFFSET. A nested query is laid out like any other and
put in parentheses, except for the members of a set operation.
-/

namespace SqlComposition

/-- What stands for a query inside a value: its own layout, a fixed text, or nothing. -/
inductive Nesting where
  | full
  | fixed (text : String)
  | unavailable

namespace Layout

def negation (negated : Bool) (yes no : String) : Layout :=
  keyword (if negated then yes else no)

def nested (nesting : Nesting) (inner : Layout) : Layout :=
  match nesting with
  | .full => parenthesized inner
  | .fixed text => parenthesized (verbatim text)
  | .unavailable => failed .noSubqueryRenderer

/-- A name after AS; an empty one counts as none. -/
def aliased (inner : Layout) : Option String → Layout
  | none => inner
  | some label => if label = "" then inner else series [inner, keyword " AS ", verbatim label]

/-- The plain text of a value, after the marks for the SELECTs without a FROM clause in it. -/
def plainText (value : Value) : Layout :=
  series (List.replicate value.sourceless sourceless ++
    [match value.plainText with | .ok text => verbatim text | .error failure => failed failure])

/-- A value written as plain text after a keyword, on a line of its own. -/
def plain (word : String) : Option Value → List Layout
  | none => []
  | some value => [series [keyword word, plainText value]]

/-- A line that starts with a keyword and lists parts, left out when there are none. -/
def clause (word separator : String) : List Layout → List Layout
  | [] => []
  | parts => [series [keyword word, joined separator parts]]

def groupedClause (word : String) : List (Connective × Layout) → List Layout
  | [] => []
  | conditions => [series [keyword word, Grouping.layout conditions]]

/-- Column names in parentheses, left out when there are none. -/
def columnList : Option (List String) → Layout
  | none => series []
  | some [] => series []
  | some names => series [keyword " ", parenthesized (joined ", " (names.map verbatim))]

end Layout

open Layout

mutual

def Value.layout (nesting : Nesting) : Value → Layout
  | .fragment f => f.layout nesting
  | .query q => nested nesting q.layout
  | .scalar s => operand (.scalar s)
  | .list items => operand (.list items)
  | .tuple items => operand (.tuple items)
  | .mapping entries => operand (.mapping entries)
  | .part p => operand (.part p)
  | .bound b => operand (.bound b)
  | .object o => operand (.object o)

def Value.layouts (nesting : Nesting) : List Value → List Layout
  | [] => []
  | v :: rest => v.layout nesting :: Value.layouts nesting rest

def Fragment.layout (nesting : Nesting) : Fragment → Layout
  | ⟨sql, bindings⟩ => filled sql (Value.layouts nesting bindings)

def Predicate.layout (nesting : Nesting) : Predicate → Layout
  | .comparison column operator value =>
    series [verbatim column, keyword " ", verbatim operator, keyword " ", value.layout nesting]
  | .member column (.query q) negated =>
    series [verbatim column, negation negated " NOT IN " " IN ",
      nested nesting q.layout]
  | .member _ (.listed []) negated => negation negated "1 = 1" "1 = 0"
  | .member column (.listed (v :: rest)) negated =>
    series [verbatim column, negation negated " NOT IN " " IN ",
      parenthesized (joined ", " (v.layout nesting :: Value.layouts nesting rest))]
  | .null column negated => series [verbatim column, negation negated " IS NOT NULL" " IS NULL"]
  | .between column low high negated =>
    series [verbatim column, negation negated " NOT BETWEEN " " BETWEEN ", low.layout nesting,
      keyword " AND ", high.layout nesting]
  | .nonempty q negated =>
    series [negation negated "NOT EXISTS " "EXISTS ",
      nested nesting q.layout]
  | .raw fragment => fragment.layout nesting

def Condition.layout (nesting : Nesting) : Condition → Connective × Layout
  | ⟨connective, predicate⟩ => (connective, predicate.layout nesting)

def Condition.layouts (nesting : Nesting) : List Condition → List (Connective × Layout)
  | [] => []
  | c :: rest => c.layout nesting :: Condition.layouts nesting rest

def Expression.layout : Expression → Layout
  | .name text => verbatim text
  | .raw fragment => fragment.layout .full

def Expression.layouts : List Expression → List Layout
  | [] => []
  | e :: rest => e.layout :: Expression.layouts rest

def SelectItem.layout : SelectItem → Layout
  | ⟨expression, label⟩ => aliased expression.layout label

def SelectItem.layouts : List SelectItem → List Layout
  | [] => []
  | item :: rest => item.layout :: SelectItem.layouts rest

def Source.layout : Source → Layout
  | ⟨_, some q, label⟩ => aliased (parenthesized q.layout) label
  | ⟨some table, none, label⟩ =>
    if table = "" then failed .noSource else aliased (verbatim table) label
  | ⟨none, none, _⟩ => failed .noSource

/-- The FROM line, or the mark that there is none. -/
def Source.line : Option Source → Layout
  | none => sourceless
  | some s => series [keyword "\nFROM ", s.layout]

def JoinTarget.layout : JoinTarget → Layout
  | .table name => verbatim name
  | .query q => parenthesized q.layout

/-- A cross join has no condition. -/
def Join.layout : Join → Layout
  | ⟨kind, target, label, on⟩ =>
    series [keyword (kind.keyword ++ " JOIN "), aliased target.layout label,
      match kind, on with
      | .cross, _ => series []
      | _, none => series []
      | _, some fragment => series [keyword " ON ", fragment.layout .full]]

def Join.layouts : List Join → List Layout
  | [] => []
  | j :: rest => j.layout :: Join.layouts rest

/-- No direction, or an empty one, is left out. -/
def OrderItem.layout : OrderItem → Layout
  | ⟨expression, none⟩ => expression.layout
  | ⟨expression, some direction⟩ =>
    if direction = "" then expression.layout
    else series [expression.layout, keyword " ", verbatim direction]

def OrderItem.layouts : List OrderItem → List Layout
  | [] => []
  | item :: rest => item.layout :: OrderItem.layouts rest

def CteBody.layout : CteBody → Layout
  | .query q => q.layout
  | .raw fragment => fragment.layout .full

def Cte.layout : Cte → Layout
  | ⟨name, columns, body, _⟩ =>
    series [verbatim name, columnList columns, keyword " AS ", parenthesized body.layout]

def Cte.layouts : List Cte → List Layout
  | [] => []
  | c :: rest => c.layout :: Cte.layouts rest

def SetOperation.layout : SetOperation → Layout
  | ⟨operator, query⟩ => series [keyword (operator.keyword ++ "\n"), query.layout]

def SetOperation.layouts : List SetOperation → List Layout
  | [] => []
  | s :: rest => s.layout :: SetOperation.layouts rest

def Query.layout : Query → Layout
  | ⟨ctes, distinct, selection, source, joins, conditions, grouping, having, setOperations, ordering,
      limit, offset⟩ =>
    joined "\n" <|
      clause (if ctes.any (·.isRecursive) then "WITH RECURSIVE " else "WITH ") ", " (Cte.layouts ctes) ++
      [series [
        keyword (if distinct then "SELECT DISTINCT " else "SELECT "),
        match SelectItem.layouts selection with
        | [] => keyword "*"
        | items => joined ", " items,
        Source.line source]] ++
      Join.layouts joins ++
      groupedClause "WHERE " (Condition.layouts .full conditions) ++
      clause "GROUP BY " ", " (Expression.layouts grouping) ++
      groupedClause "HAVING " (Condition.layouts .full having) ++
      SetOperation.layouts setOperations ++
      clause "ORDER BY " ", " (OrderItem.layouts ordering) ++
      plain "LIMIT " limit ++ plain "OFFSET " offset

end

/-- The query as text with all values written as literals. -/
def Query.inlined (q : Query) : Except Failure String :=
  q.layout.inlined

/-- The query as text with placeholders, and the values for them. -/
def Query.bound (placeholder : Nat → String) (q : Query) : Except Failure (String × List Value) :=
  q.layout.bound placeholder


end SqlComposition
