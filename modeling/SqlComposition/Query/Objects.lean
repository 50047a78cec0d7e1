import SqlComposition.Query

/-!
The objects inside a query. One walk reaches every object, however deep it lies, from left to right, and
does some work that puts another in its place; nothing else of the query is changed.
-/

namespace SqlComposition

section Traversal

variable {m : Type → Type} [Monad m]

mutual

/-- Puts what the work gives for it in the place of each object. -/
def Value.traverse (f : Object → m Object) : Value → m Value
  | .scalar s => pure (.scalar s)
  | .list items => Value.list <$> Value.traverseAll f items
  | .tuple items => Value.tuple <$> Value.traverseAll f items
  | .mapping entries => Value.mapping <$> Value.traverseEntries f entries
  | .fragment x => Value.fragment <$> x.traverse f
  | .query q => Value.query <$> q.traverse f
  | .part p => Value.part <$> p.traverse f
  | .bound b => Value.bound <$> b.traverse f
  | .object o => Value.object <$> f o

def Value.traverseAll (f : Object → m Object) : List Value → m (List Value)
  | [] => pure []
  | v :: rest => do
    let v ← v.traverse f
    return v :: (← Value.traverseAll f rest)

def Value.traverseEntries (f : Object → m Object) : List (Value × Value) → m (List (Value × Value))
  | [] => pure []
  | (key, content) :: rest => do
    let key ← key.traverse f
    let content ← content.traverse f
    return (key, content) :: (← Value.traverseEntries f rest)

def Value.traverseOption (f : Object → m Object) : Option Value → m (Option Value)
  | none => pure none
  | some v => some <$> v.traverse f

def Fragment.traverse (f : Object → m Object) : Fragment → m Fragment
  | ⟨sql, bindings⟩ => Fragment.mk sql <$> Value.traverseAll f bindings

def Fragment.traverseOption (f : Object → m Object) : Option Fragment → m (Option Fragment)
  | none => pure none
  | some x => some <$> x.traverse f

def Members.traverse (f : Object → m Object) : Members → m Members
  | .listed values => Members.listed <$> Value.traverseAll f values
  | .query q => Members.query <$> q.traverse f

def Predicate.traverse (f : Object → m Object) : Predicate → m Predicate
  | .comparison column operator value => Predicate.comparison column operator <$> value.traverse f
  | .member column members negated => do return .member column (← members.traverse f) negated
  | .null column negated => pure (.null column negated)
  | .between column low high negated => do
    let low ← low.traverse f
    return .between column low (← high.traverse f) negated
  | .nonempty q negated => do return .nonempty (← q.traverse f) negated
  | .raw x => Predicate.raw <$> x.traverse f

def Condition.traverse (f : Object → m Object) : Condition → m Condition
  | ⟨connective, predicate⟩ => Condition.mk connective <$> predicate.traverse f

def Condition.traverseAll (f : Object → m Object) : List Condition → m (List Condition)
  | [] => pure []
  | c :: rest => do
    let c ← c.traverse f
    return c :: (← Condition.traverseAll f rest)

def Expression.traverse (f : Object → m Object) : Expression → m Expression
  | .name text => pure (.name text)
  | .raw x => Expression.raw <$> x.traverse f

def Expression.traverseAll (f : Object → m Object) : List Expression → m (List Expression)
  | [] => pure []
  | e :: rest => do
    let e ← e.traverse f
    return e :: (← Expression.traverseAll f rest)

def SelectItem.traverse (f : Object → m Object) : SelectItem → m SelectItem
  | ⟨expression, label⟩ => do return ⟨← expression.traverse f, label⟩

def SelectItem.traverseAll (f : Object → m Object) : List SelectItem → m (List SelectItem)
  | [] => pure []
  | item :: rest => do
    let item ← item.traverse f
    return item :: (← SelectItem.traverseAll f rest)

def Source.traverse (f : Object → m Object) : Source → m Source
  | ⟨table, subquery, label⟩ => do return ⟨table, ← Query.traverseOption f subquery, label⟩

def Source.traverseOption (f : Object → m Object) : Option Source → m (Option Source)
  | none => pure none
  | some s => some <$> s.traverse f

def JoinTarget.traverse (f : Object → m Object) : JoinTarget → m JoinTarget
  | .table name => pure (.table name)
  | .query q => JoinTarget.query <$> q.traverse f

def Join.traverse (f : Object → m Object) : Join → m Join
  | ⟨kind, target, label, on⟩ => do
    let target ← target.traverse f
    return ⟨kind, target, label, ← Fragment.traverseOption f on⟩

def Join.traverseAll (f : Object → m Object) : List Join → m (List Join)
  | [] => pure []
  | j :: rest => do
    let j ← j.traverse f
    return j :: (← Join.traverseAll f rest)

def OrderItem.traverse (f : Object → m Object) : OrderItem → m OrderItem
  | ⟨expression, direction⟩ => do return ⟨← expression.traverse f, direction⟩

def OrderItem.traverseAll (f : Object → m Object) : List OrderItem → m (List OrderItem)
  | [] => pure []
  | item :: rest => do
    let item ← item.traverse f
    return item :: (← OrderItem.traverseAll f rest)

def CteBody.traverse (f : Object → m Object) : CteBody → m CteBody
  | .query q => CteBody.query <$> q.traverse f
  | .raw x => CteBody.raw <$> x.traverse f

def Cte.traverse (f : Object → m Object) : Cte → m Cte
  | ⟨name, columns, body, isRecursive⟩ => do return ⟨name, columns, ← body.traverse f, isRecursive⟩

def Cte.traverseAll (f : Object → m Object) : List Cte → m (List Cte)
  | [] => pure []
  | c :: rest => do
    let c ← c.traverse f
    return c :: (← Cte.traverseAll f rest)

def SetOperation.traverse (f : Object → m Object) : SetOperation → m SetOperation
  | ⟨operator, query⟩ => SetOperation.mk operator <$> query.traverse f

def SetOperation.traverseAll (f : Object → m Object) : List SetOperation → m (List SetOperation)
  | [] => pure []
  | s :: rest => do
    let s ← s.traverse f
    return s :: (← SetOperation.traverseAll f rest)

def Query.traverse (f : Object → m Object) : Query → m Query
  | ⟨ctes, distinct, selection, source, joins, conditions, grouping, having, setOperations, ordering,
      limit, offset⟩ => do
    let ctes ← Cte.traverseAll f ctes
    let selection ← SelectItem.traverseAll f selection
    let source ← Source.traverseOption f source
    let joins ← Join.traverseAll f joins
    let conditions ← Condition.traverseAll f conditions
    let grouping ← Expression.traverseAll f grouping
    let having ← Condition.traverseAll f having
    let setOperations ← SetOperation.traverseAll f setOperations
    let ordering ← OrderItem.traverseAll f ordering
    let limit ← Value.traverseOption f limit
    let offset ← Value.traverseOption f offset
    return ⟨ctes, distinct, selection, source, joins, conditions, grouping, having, setOperations,
      ordering, limit, offset⟩

def Query.traverseOption (f : Object → m Object) : Option Query → m (Option Query)
  | none => pure none
  | some q => some <$> q.traverse f

def Part.traverse (f : Object → m Object) : Part → m Part
  | .selectItem item => Part.selectItem <$> item.traverse f
  | .source s => Part.source <$> s.traverse f
  | .join j => Part.join <$> j.traverse f
  | .condition c => Part.condition <$> c.traverse f
  | .predicate p => Part.predicate <$> p.traverse f
  | .orderItem item => Part.orderItem <$> item.traverse f
  | .cte c => Part.cte <$> c.traverse f
  | .setOperation s => Part.setOperation <$> s.traverse f

def BoundQuery.traverse (f : Object → m Object) : BoundQuery → m BoundQuery
  | ⟨sql, values, dialect⟩ => do return ⟨sql, ← Value.traverseAll f values, dialect⟩

end

end Traversal

/-- Replaces the objects in a value. -/
def Value.mapObjects (f : Object → Object) (v : Value) : Value :=
  Id.run (v.traverse fun o => pure (f o))

/-- Replaces the objects in a condition. -/
def Condition.mapObjects (f : Object → Object) (c : Condition) : Condition :=
  Id.run (c.traverse fun o => pure (f o))

/-- Replaces the objects in a query. -/
def Query.mapObjects (f : Object → Object) (q : Query) : Query :=
  Id.run (q.traverse fun o => pure (f o))

@[simp] theorem Query.mapObjects_empty (f : Object → Object) : Query.empty.mapObjects f = .empty := rfl

@[simp] theorem Value.mapObjects_scalar (f : Object → Object) (s : Scalar) :
    (Value.scalar s).mapObjects f = .scalar s := rfl

@[simp] theorem Value.mapObjects_object (f : Object → Object) (o : Object) :
    (Value.object o).mapObjects f = .object (f o) := rfl

end SqlComposition
