import SqlComposition.Query.Layout

/-!
Rendering a query, one clause after the other. One list of bound values is kept for the whole text: every
nested query and fragment adds to it, and a placeholder has the position at which its value was added.
What is done with plain values is all in which the two forms of a query differ: a formatter writes them
as literals, and a binder puts placeholders in their places.
-/

namespace SqlComposition

/-- What is kept during one rendering: the values bound so far, and how many SELECTs without a FROM
clause were met. -/
structure Runtime where
  bindings : List Value := []
  sourceless : Nat := 0

abbrev Rendering (α : Type) := EStateM Failure Runtime α

namespace Rendering

def ofExcept {α : Type} : Except Failure α → Rendering α
  | .ok a => pure a
  | .error failure => throw failure

/-- Notes SELECTs without a FROM clause. -/
def note (sourceless : Nat) : Rendering Unit :=
  modify fun r => { r with sourceless := r.sourceless + sourceless }

/-- Keeps a value and gives its position, counted from 1. -/
def addValue (v : Value) : Rendering Nat := do
  modify fun r => { r with bindings := r.bindings ++ [v] }
  return (← get).bindings.length

/-- The formatter: a value is its literal. -/
def format (v : Value) : Rendering String := do
  note v.sourceless
  ofExcept v.literal

/-- The binder: a value is kept, and its position made a placeholder. -/
def bindValue (placeholder : Nat → Except Failure String) (v : Value) : Rendering String := do
  ofExcept (placeholder (← addValue v))

def outcome {α : Type} (work : Rendering α) : Except Failure α × Runtime :=
  match work {} with
  | .ok a r => (.ok a, r)
  | .error failure r => (.error failure, r)

/-- A subquery in parentheses, or what stands for it. -/
def nested (nesting : Nesting) (inner : Rendering String) : Rendering String :=
  match nesting with
  | .full => do return "(" ++ (← inner) ++ ")"
  | .fixed text => return "(" ++ text ++ ")"
  | .unavailable => throw .noSubqueryRenderer

/-- A value written as plain text after a keyword, on a line of its own. -/
def plain (word : String) : Option Value → Rendering (List String)
  | none => return []
  | some value => do
    note value.sourceless
    return [word ++ (← ofExcept value.plainText)]

end Rendering

namespace Line

/-- A line that starts with a keyword and lists texts, left out when there are none. -/
def clause (word separator : String) : List String → List String
  | [] => []
  | texts => [word ++ separator.intercalate texts]

def grouped (word : String) : List (String × String) → List String
  | [] => []
  | conditions => [word ++ Grouping.text conditions]

def aliased (text : String) : Option String → String
  | none => text
  | some label => if label = "" then text else text ++ " AS " ++ label

def columnList : Option (List String) → String
  | none => ""
  | some [] => ""
  | some names => " (" ++ ", ".intercalate names ++ ")"

def selection (distinct : Bool) (items : List String) : String :=
  (if distinct then "SELECT DISTINCT " else "SELECT ") ++
    if items.isEmpty then "*" else ", ".intercalate items

end Line

section

open Rendering Line

variable (plainValue : Value → Rendering String)

mutual

def Value.render (nesting : Nesting) : Value → Rendering String
  | .fragment f => f.render nesting
  | .query q => nested nesting q.render
  | .scalar s => plainValue (.scalar s)
  | .list items => plainValue (.list items)
  | .tuple items => plainValue (.tuple items)
  | .mapping entries => plainValue (.mapping entries)
  | .part p => plainValue (.part p)
  | .bound b => plainValue (.bound b)
  | .object o => plainValue (.object o)

def Value.renderEach (nesting : Nesting) : List Value → Rendering (List String)
  | [] => return []
  | v :: rest => do
    let text ← v.render nesting
    return text :: (← Value.renderEach nesting rest)

/-- The segments of a fragment with the values in the slots between them. Slots beyond the values stay,
and values beyond the slots are left alone. -/
def Value.renderInto (nesting : Nesting) : List Value → List (List Char) → Rendering String
  | [], segments => return String.ofList (['?'].intercalate segments)
  | _ :: _, [] => return ""
  | _ :: _, [last] => return String.ofList last
  | v :: rest, segment :: next :: later => do
    let text ← v.render nesting
    return String.ofList segment ++ (text ++ (← Value.renderInto nesting rest (next :: later)))

def Fragment.render (nesting : Nesting) : Fragment → Rendering String
  | ⟨sql, bindings⟩ =>
    if bindings.isEmpty then return sql else Value.renderInto nesting bindings (Slot.segments sql.toList)

def Predicate.render (nesting : Nesting) : Predicate → Rendering String
  | .comparison column operator value => do
    return column ++ " " ++ operator ++ " " ++ (← value.render nesting)
  | .member column (.query q) negated => do
    return column ++ (if negated then " NOT IN " else " IN ") ++ (← nested nesting q.render)
  | .member _ (.listed []) negated => return if negated then "1 = 1" else "1 = 0"
  | .member column (.listed (v :: rest)) negated => do
    let first ← v.render nesting
    let others ← Value.renderEach nesting rest
    return column ++ (if negated then " NOT IN " else " IN ") ++
      "(" ++ ", ".intercalate (first :: others) ++ ")"
  | .null column negated => return column ++ if negated then " IS NOT NULL" else " IS NULL"
  | .between column low high negated => do
    let lower ← low.render nesting
    let upper ← high.render nesting
    return column ++ (if negated then " NOT BETWEEN " else " BETWEEN ") ++ lower ++ " AND " ++ upper
  | .nonempty q negated => do
    return (if negated then "NOT EXISTS " else "EXISTS ") ++ (← nested nesting q.render)
  | .raw fragment => fragment.render nesting

def Condition.render (nesting : Nesting) : Condition → Rendering (String × String)
  | ⟨connective, predicate⟩ => do return (connective.keyword, ← predicate.render nesting)

def Condition.renderEach (nesting : Nesting) : List Condition → Rendering (List (String × String))
  | [] => return []
  | c :: rest => do
    let condition ← c.render nesting
    return condition :: (← Condition.renderEach nesting rest)

def Expression.render : Expression → Rendering String
  | .name text => return text
  | .raw fragment => fragment.render .full

def Expression.renderEach : List Expression → Rendering (List String)
  | [] => return []
  | e :: rest => do
    let text ← e.render
    return text :: (← Expression.renderEach rest)

def SelectItem.render : SelectItem → Rendering String
  | ⟨expression, label⟩ => do return aliased (← expression.render) label

def SelectItem.renderEach : List SelectItem → Rendering (List String)
  | [] => return []
  | item :: rest => do
    let text ← item.render
    return text :: (← SelectItem.renderEach rest)

def Source.render : Source → Rendering String
  | ⟨_, some q, label⟩ => do return aliased ("(" ++ (← q.render) ++ ")") label
  | ⟨some table, none, label⟩ => if table = "" then throw .noSource else return aliased table label
  | ⟨none, none, _⟩ => throw .noSource

/-- The FROM line; that there is none is noted. -/
def Source.renderLine : Option Source → Rendering (List String)
  | none => do
    note 1
    return []
  | some s => do return ["FROM " ++ (← s.render)]

def JoinTarget.render : JoinTarget → Rendering String
  | .table name => return name
  | .query q => do return "(" ++ (← q.render) ++ ")"

/-- A cross join has no condition. -/
def Join.renderCondition (kind : JoinKind) : Option Fragment → Rendering String
  | none => return ""
  | some fragment => do
    if kind = .cross then return "" else return " ON " ++ (← fragment.render .full)

def Join.render : Join → Rendering String
  | ⟨kind, target, label, on⟩ => do
    let table ← target.render
    let condition ← Join.renderCondition kind on
    return kind.keyword ++ " JOIN " ++ aliased table label ++ condition

def Join.renderEach : List Join → Rendering (List String)
  | [] => return []
  | j :: rest => do
    let text ← j.render
    return text :: (← Join.renderEach rest)

/-- No direction, or an empty one, is left out. -/
def OrderItem.render : OrderItem → Rendering String
  | ⟨expression, direction⟩ => do
    let text ← expression.render
    return match direction with
      | none => text
      | some direction => if direction = "" then text else text ++ " " ++ direction

def OrderItem.renderEach : List OrderItem → Rendering (List String)
  | [] => return []
  | item :: rest => do
    let text ← item.render
    return text :: (← OrderItem.renderEach rest)

def CteBody.render : CteBody → Rendering String
  | .query q => q.render
  | .raw fragment => fragment.render .full

def Cte.render : Cte → Rendering String
  | ⟨name, columns, body, _⟩ => do
    let text ← body.render
    return name ++ columnList columns ++ " AS (" ++ text ++ ")"

def Cte.renderEach : List Cte → Rendering (List String)
  | [] => return []
  | c :: rest => do
    let text ← c.render
    return text :: (← Cte.renderEach rest)

/-- A member stands without parentheses. -/
def SetOperation.render : SetOperation → Rendering String
  | ⟨operator, query⟩ => do return operator.keyword ++ "\n" ++ (← query.render)

def SetOperation.renderEach : List SetOperation → Rendering (List String)
  | [] => return []
  | s :: rest => do
    let text ← s.render
    return text :: (← SetOperation.renderEach rest)

def Query.render : Query → Rendering String
  | ⟨ctes, distinct, selection, source, joins, conditions, grouping, having, setOperations, ordering,
      limit, offset⟩ => do
    let ctesText ← Cte.renderEach ctes
    let items ← SelectItem.renderEach selection
    let sourceLine ← Source.renderLine source
    let joinLines ← Join.renderEach joins
    let conditionTexts ← Condition.renderEach .full conditions
    let groupingTexts ← Expression.renderEach grouping
    let havingTexts ← Condition.renderEach .full having
    let memberLines ← SetOperation.renderEach setOperations
    let orderTexts ← OrderItem.renderEach ordering
    let limitLine ← plain "LIMIT " limit
    let offsetLine ← plain "OFFSET " offset
    return "\n".intercalate <|
      clause (if ctes.any (·.isRecursive) then "WITH RECURSIVE " else "WITH ") ", " ctesText ++
      [Line.selection distinct items] ++ sourceLine ++ joinLines ++ grouped "WHERE " conditionTexts ++
      clause "GROUP BY " ", " groupingTexts ++ grouped "HAVING " havingTexts ++ memberLines ++
      clause "ORDER BY " ", " orderTexts ++ limitLine ++ offsetLine

end

end

/-- The text with all values as literals, and how many SELECTs without a FROM clause are met while it is
written. -/
def Query.rendition (q : Query) : Rendition :=
  let (text, r) := Rendering.outcome (q.render Rendering.format)
  ⟨text, r.sourceless⟩

end SqlComposition
