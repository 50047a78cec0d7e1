import SqlComposition.Query

/-!
What a query gives that is written as it is: names, fragments of SQL with the number of their bindings,
and its limit and offset. The queries and fragments inside a query are gone through as well, and so is
what is left out when the query is written, such as the condition of a cross join.
-/

namespace SqlComposition

/-- Something that a query gives and that is written without quoting. -/
inductive Given where
  | name (text : String)
  | fragment (sql : String) (bindings : Nat)
  | bound (rows : Value)

namespace Given

def names (texts : List String) : List Given :=
  texts.map name

def label (text : Option String) : List Given :=
  names text.toList

def bounds (rows : Option Value) : List Given :=
  rows.toList.map bound

end Given

mutual

def Value.given : Value → List Given
  | .fragment f => f.given
  | .query q => q.given
  | .scalar _ | .list _ | .tuple _ | .mapping _ | .part _ | .bound _ | .object _ => []

def Value.allGiven : List Value → List Given
  | [] => []
  | v :: rest => v.given ++ Value.allGiven rest

def Fragment.given : Fragment → List Given
  | ⟨sql, bindings⟩ => .fragment sql bindings.length :: Value.allGiven bindings

def Fragment.optionGiven : Option Fragment → List Given
  | none => []
  | some f => f.given

def Members.given : Members → List Given
  | .listed values => Value.allGiven values
  | .query q => q.given

def Predicate.given : Predicate → List Given
  | .comparison column operator value => Given.names [column, operator] ++ value.given
  | .member column members _ => .name column :: members.given
  | .null column _ => [.name column]
  | .between column low high _ => .name column :: (low.given ++ high.given)
  | .nonempty q _ => q.given
  | .raw fragment => fragment.given

def Condition.given : Condition → List Given
  | ⟨_, predicate⟩ => predicate.given

def Condition.allGiven : List Condition → List Given
  | [] => []
  | c :: rest => c.given ++ Condition.allGiven rest

def Expression.given : Expression → List Given
  | .name text => [.name text]
  | .raw fragment => fragment.given

def Expression.allGiven : List Expression → List Given
  | [] => []
  | e :: rest => e.given ++ Expression.allGiven rest

def SelectItem.given : SelectItem → List Given
  | ⟨expression, label⟩ => expression.given ++ Given.label label

def SelectItem.allGiven : List SelectItem → List Given
  | [] => []
  | item :: rest => item.given ++ SelectItem.allGiven rest

def Source.given : Source → List Given
  | ⟨table, subquery, label⟩ => Given.label table ++ Query.optionGiven subquery ++ Given.label label

def Source.optionGiven : Option Source → List Given
  | none => []
  | some s => s.given

def JoinTarget.given : JoinTarget → List Given
  | .table name => [.name name]
  | .query q => q.given

def Join.given : Join → List Given
  | ⟨_, target, label, on⟩ => target.given ++ Given.label label ++ Fragment.optionGiven on

def Join.allGiven : List Join → List Given
  | [] => []
  | j :: rest => j.given ++ Join.allGiven rest

def OrderItem.given : OrderItem → List Given
  | ⟨expression, direction⟩ => expression.given ++ Given.label direction

def OrderItem.allGiven : List OrderItem → List Given
  | [] => []
  | item :: rest => item.given ++ OrderItem.allGiven rest

def CteBody.given : CteBody → List Given
  | .query q => q.given
  | .raw fragment => fragment.given

def Cte.given : Cte → List Given
  | ⟨name, columns, body, _⟩ => .name name :: (Given.names (columns.getD []) ++ body.given)

def Cte.allGiven : List Cte → List Given
  | [] => []
  | c :: rest => c.given ++ Cte.allGiven rest

def SetOperation.given : SetOperation → List Given
  | ⟨_, query⟩ => query.given

def SetOperation.allGiven : List SetOperation → List Given
  | [] => []
  | s :: rest => s.given ++ SetOperation.allGiven rest

/-- All that a query gives, the queries and fragments in it included. -/
def Query.given : Query → List Given
  | ⟨ctes, _, selection, source, joins, conditions, grouping, having, setOperations, ordering,
      limit, offset⟩ =>
    Cte.allGiven ctes ++ SelectItem.allGiven selection ++ Source.optionGiven source ++
      Join.allGiven joins ++ Condition.allGiven conditions ++ Expression.allGiven grouping ++
      Condition.allGiven having ++ SetOperation.allGiven setOperations ++
      OrderItem.allGiven ordering ++ Given.bounds limit ++ Given.bounds offset

def Query.optionGiven : Option Query → List Given
  | none => []
  | some q => q.given

end

end SqlComposition
