import SqlComposition.Query.Objects

/-!
Values and queries that hold no objects. Nothing is shared between such a query and anything else: going
through it for its objects finds none and changes nothing, whatever is done with objects on the way.
-/

namespace SqlComposition

mutual

/-- Holds no object, however deep one looks. -/
def Value.IsSettled : Value → Prop
  | .scalar _ => True
  | .list items => Value.AllSettled items
  | .tuple items => Value.AllSettled items
  | .mapping entries => Value.EntriesSettled entries
  | .fragment f => f.IsSettled
  | .query q => q.IsSettled
  | .part p => p.IsSettled
  | .bound b => b.IsSettled
  | .object _ => False

def Value.AllSettled : List Value → Prop
  | [] => True
  | v :: rest => v.IsSettled ∧ Value.AllSettled rest

def Value.EntriesSettled : List (Value × Value) → Prop
  | [] => True
  | (key, content) :: rest => key.IsSettled ∧ content.IsSettled ∧ Value.EntriesSettled rest

def Value.OptionSettled : Option Value → Prop
  | none => True
  | some v => v.IsSettled

def Fragment.IsSettled : Fragment → Prop
  | ⟨_, bindings⟩ => Value.AllSettled bindings

def Fragment.OptionSettled : Option Fragment → Prop
  | none => True
  | some f => f.IsSettled

def Members.IsSettled : Members → Prop
  | .listed values => Value.AllSettled values
  | .query q => q.IsSettled

def Predicate.IsSettled : Predicate → Prop
  | .comparison _ _ value => value.IsSettled
  | .member _ members _ => members.IsSettled
  | .null _ _ => True
  | .between _ low high _ => low.IsSettled ∧ high.IsSettled
  | .nonempty q _ => q.IsSettled
  | .raw f => f.IsSettled

def Condition.IsSettled : Condition → Prop
  | ⟨_, predicate⟩ => predicate.IsSettled

def Condition.AllSettled : List Condition → Prop
  | [] => True
  | c :: rest => c.IsSettled ∧ Condition.AllSettled rest

def Expression.IsSettled : Expression → Prop
  | .name _ => True
  | .raw f => f.IsSettled

def Expression.AllSettled : List Expression → Prop
  | [] => True
  | e :: rest => e.IsSettled ∧ Expression.AllSettled rest

def SelectItem.IsSettled : SelectItem → Prop
  | ⟨expression, _⟩ => expression.IsSettled

def SelectItem.AllSettled : List SelectItem → Prop
  | [] => True
  | item :: rest => item.IsSettled ∧ SelectItem.AllSettled rest

def Source.IsSettled : Source → Prop
  | ⟨_, subquery, _⟩ => Query.OptionSettled subquery

def Source.OptionSettled : Option Source → Prop
  | none => True
  | some s => s.IsSettled

def JoinTarget.IsSettled : JoinTarget → Prop
  | .table _ => True
  | .query q => q.IsSettled

def Join.IsSettled : Join → Prop
  | ⟨_, target, _, on⟩ => target.IsSettled ∧ Fragment.OptionSettled on

def Join.AllSettled : List Join → Prop
  | [] => True
  | j :: rest => j.IsSettled ∧ Join.AllSettled rest

def OrderItem.IsSettled : OrderItem → Prop
  | ⟨expression, _⟩ => expression.IsSettled

def OrderItem.AllSettled : List OrderItem → Prop
  | [] => True
  | item :: rest => item.IsSettled ∧ OrderItem.AllSettled rest

def CteBody.IsSettled : CteBody → Prop
  | .query q => q.IsSettled
  | .raw f => f.IsSettled

def Cte.IsSettled : Cte → Prop
  | ⟨_, _, body, _⟩ => body.IsSettled

def Cte.AllSettled : List Cte → Prop
  | [] => True
  | c :: rest => c.IsSettled ∧ Cte.AllSettled rest

def SetOperation.IsSettled : SetOperation → Prop
  | ⟨_, query⟩ => query.IsSettled

def SetOperation.AllSettled : List SetOperation → Prop
  | [] => True
  | s :: rest => s.IsSettled ∧ SetOperation.AllSettled rest

/-- Holds no object, in no clause and no nested query. -/
def Query.IsSettled : Query → Prop
  | ⟨ctes, _, selection, source, joins, conditions, grouping, having, setOperations, ordering, limit,
      offset⟩ =>
    Cte.AllSettled ctes ∧ SelectItem.AllSettled selection ∧ Source.OptionSettled source ∧
      Join.AllSettled joins ∧ Condition.AllSettled conditions ∧ Expression.AllSettled grouping ∧
      Condition.AllSettled having ∧ SetOperation.AllSettled setOperations ∧
      OrderItem.AllSettled ordering ∧ Value.OptionSettled limit ∧ Value.OptionSettled offset

def Query.OptionSettled : Option Query → Prop
  | none => True
  | some q => q.IsSettled

def Part.IsSettled : Part → Prop
  | .selectItem item => item.IsSettled
  | .source s => s.IsSettled
  | .join j => j.IsSettled
  | .condition c => c.IsSettled
  | .predicate p => p.IsSettled
  | .orderItem item => item.IsSettled
  | .cte c => c.IsSettled
  | .setOperation s => s.IsSettled

def BoundQuery.IsSettled : BoundQuery → Prop
  | ⟨_, values, _⟩ => Value.AllSettled values

end

section Walk

variable {m : Type → Type} [Monad m] [LawfulMonad m] (f : Object → m Object)

mutual

theorem Value.traverse_settled : (v : Value) → v.IsSettled → v.traverse f = pure v
  | .scalar s, _ => by rw [Value.traverse]
  | .list items, h => by
    rw [Value.IsSettled] at h
    rw [Value.traverse, Value.traverseAll_settled items h, map_pure]
  | .tuple items, h => by
    rw [Value.IsSettled] at h
    rw [Value.traverse, Value.traverseAll_settled items h, map_pure]
  | .mapping entries, h => by
    rw [Value.IsSettled] at h
    rw [Value.traverse, Value.traverseEntries_settled entries h, map_pure]
  | .fragment x, h => by
    rw [Value.IsSettled] at h
    rw [Value.traverse, x.traverse_settled h, map_pure]
  | .query q, h => by
    rw [Value.IsSettled] at h
    rw [Value.traverse, q.traverse_settled h, map_pure]
  | .part p, h => by
    rw [Value.IsSettled] at h
    rw [Value.traverse, p.traverse_settled h, map_pure]
  | .bound b, h => by
    rw [Value.IsSettled] at h
    rw [Value.traverse, b.traverse_settled h, map_pure]

theorem Value.traverseAll_settled : (values : List Value) → Value.AllSettled values →
    Value.traverseAll f values = pure values
  | [], _ => by rw [Value.traverseAll]
  | v :: rest, h => by
    rw [Value.AllSettled] at h
    rw [Value.traverseAll, v.traverse_settled h.1, Value.traverseAll_settled rest h.2, pure_bind,
      pure_bind]

theorem Value.traverseEntries_settled : (entries : List (Value × Value)) →
    Value.EntriesSettled entries → Value.traverseEntries f entries = pure entries
  | [], _ => by rw [Value.traverseEntries]
  | (key, content) :: rest, h => by
    rw [Value.EntriesSettled] at h
    rw [Value.traverseEntries, key.traverse_settled h.1, content.traverse_settled h.2.1,
      Value.traverseEntries_settled rest h.2.2, pure_bind, pure_bind, pure_bind]

theorem Value.traverseOption_settled : (v : Option Value) → Value.OptionSettled v →
    Value.traverseOption f v = pure v
  | none, _ => by rw [Value.traverseOption]
  | some v, h => by
    rw [Value.OptionSettled] at h
    rw [Value.traverseOption, v.traverse_settled h, map_pure]

theorem Fragment.traverse_settled : (x : Fragment) → x.IsSettled → x.traverse f = pure x
  | ⟨sql, bindings⟩, h => by
    rw [Fragment.IsSettled] at h
    rw [Fragment.traverse, Value.traverseAll_settled bindings h, map_pure]

theorem Fragment.traverseOption_settled : (x : Option Fragment) → Fragment.OptionSettled x →
    Fragment.traverseOption f x = pure x
  | none, _ => by rw [Fragment.traverseOption]
  | some x, h => by
    rw [Fragment.OptionSettled] at h
    rw [Fragment.traverseOption, x.traverse_settled h, map_pure]

theorem Members.traverse_settled : (x : Members) → x.IsSettled → x.traverse f = pure x
  | .listed values, h => by
    rw [Members.IsSettled] at h
    rw [Members.traverse, Value.traverseAll_settled values h, map_pure]
  | .query q, h => by
    rw [Members.IsSettled] at h
    rw [Members.traverse, q.traverse_settled h, map_pure]

theorem Predicate.traverse_settled : (p : Predicate) → p.IsSettled → p.traverse f = pure p
  | .comparison column operator value, h => by
    rw [Predicate.IsSettled] at h
    rw [Predicate.traverse, value.traverse_settled h, map_pure]
  | .member column members negated, h => by
    rw [Predicate.IsSettled] at h
    rw [Predicate.traverse, members.traverse_settled h, pure_bind]
  | .null column negated, _ => by rw [Predicate.traverse]
  | .between column low high negated, h => by
    rw [Predicate.IsSettled] at h
    rw [Predicate.traverse, low.traverse_settled h.1, high.traverse_settled h.2, pure_bind, pure_bind]
  | .nonempty q negated, h => by
    rw [Predicate.IsSettled] at h
    rw [Predicate.traverse, q.traverse_settled h, pure_bind]
  | .raw x, h => by
    rw [Predicate.IsSettled] at h
    rw [Predicate.traverse, x.traverse_settled h, map_pure]

theorem Condition.traverse_settled : (c : Condition) → c.IsSettled → c.traverse f = pure c
  | ⟨connective, predicate⟩, h => by
    rw [Condition.IsSettled] at h
    rw [Condition.traverse, predicate.traverse_settled h, map_pure]

theorem Condition.traverseAll_settled : (conditions : List Condition) →
    Condition.AllSettled conditions → Condition.traverseAll f conditions = pure conditions
  | [], _ => by rw [Condition.traverseAll]
  | c :: rest, h => by
    rw [Condition.AllSettled] at h
    rw [Condition.traverseAll, c.traverse_settled h.1, Condition.traverseAll_settled rest h.2, pure_bind,
      pure_bind]

theorem Expression.traverse_settled : (e : Expression) → e.IsSettled → e.traverse f = pure e
  | .name text, _ => by rw [Expression.traverse]
  | .raw x, h => by
    rw [Expression.IsSettled] at h
    rw [Expression.traverse, x.traverse_settled h, map_pure]

theorem Expression.traverseAll_settled : (expressions : List Expression) →
    Expression.AllSettled expressions → Expression.traverseAll f expressions = pure expressions
  | [], _ => by rw [Expression.traverseAll]
  | e :: rest, h => by
    rw [Expression.AllSettled] at h
    rw [Expression.traverseAll, e.traverse_settled h.1, Expression.traverseAll_settled rest h.2,
      pure_bind, pure_bind]

theorem SelectItem.traverse_settled : (item : SelectItem) → item.IsSettled →
    item.traverse f = pure item
  | ⟨expression, label⟩, h => by
    rw [SelectItem.IsSettled] at h
    rw [SelectItem.traverse, expression.traverse_settled h, pure_bind]

theorem SelectItem.traverseAll_settled : (items : List SelectItem) → SelectItem.AllSettled items →
    SelectItem.traverseAll f items = pure items
  | [], _ => by rw [SelectItem.traverseAll]
  | item :: rest, h => by
    rw [SelectItem.AllSettled] at h
    rw [SelectItem.traverseAll, item.traverse_settled h.1, SelectItem.traverseAll_settled rest h.2,
      pure_bind, pure_bind]

theorem Source.traverse_settled : (s : Source) → s.IsSettled → s.traverse f = pure s
  | ⟨table, subquery, label⟩, h => by
    rw [Source.IsSettled] at h
    rw [Source.traverse, Query.traverseOption_settled subquery h, pure_bind]

theorem Source.traverseOption_settled : (s : Option Source) → Source.OptionSettled s →
    Source.traverseOption f s = pure s
  | none, _ => by rw [Source.traverseOption]
  | some s, h => by
    rw [Source.OptionSettled] at h
    rw [Source.traverseOption, s.traverse_settled h, map_pure]

theorem JoinTarget.traverse_settled : (t : JoinTarget) → t.IsSettled → t.traverse f = pure t
  | .table name, _ => by rw [JoinTarget.traverse]
  | .query q, h => by
    rw [JoinTarget.IsSettled] at h
    rw [JoinTarget.traverse, q.traverse_settled h, map_pure]

theorem Join.traverse_settled : (j : Join) → j.IsSettled → j.traverse f = pure j
  | ⟨kind, target, label, on⟩, h => by
    rw [Join.IsSettled] at h
    rw [Join.traverse, target.traverse_settled h.1, Fragment.traverseOption_settled on h.2, pure_bind,
      pure_bind]

theorem Join.traverseAll_settled : (joins : List Join) → Join.AllSettled joins →
    Join.traverseAll f joins = pure joins
  | [], _ => by rw [Join.traverseAll]
  | j :: rest, h => by
    rw [Join.AllSettled] at h
    rw [Join.traverseAll, j.traverse_settled h.1, Join.traverseAll_settled rest h.2, pure_bind, pure_bind]

theorem OrderItem.traverse_settled : (item : OrderItem) → item.IsSettled → item.traverse f = pure item
  | ⟨expression, direction⟩, h => by
    rw [OrderItem.IsSettled] at h
    rw [OrderItem.traverse, expression.traverse_settled h, pure_bind]

theorem OrderItem.traverseAll_settled : (items : List OrderItem) → OrderItem.AllSettled items →
    OrderItem.traverseAll f items = pure items
  | [], _ => by rw [OrderItem.traverseAll]
  | item :: rest, h => by
    rw [OrderItem.AllSettled] at h
    rw [OrderItem.traverseAll, item.traverse_settled h.1, OrderItem.traverseAll_settled rest h.2,
      pure_bind, pure_bind]

theorem CteBody.traverse_settled : (body : CteBody) → body.IsSettled → body.traverse f = pure body
  | .query q, h => by
    rw [CteBody.IsSettled] at h
    rw [CteBody.traverse, q.traverse_settled h, map_pure]
  | .raw x, h => by
    rw [CteBody.IsSettled] at h
    rw [CteBody.traverse, x.traverse_settled h, map_pure]

theorem Cte.traverse_settled : (c : Cte) → c.IsSettled → c.traverse f = pure c
  | ⟨name, columns, body, isRecursive⟩, h => by
    rw [Cte.IsSettled] at h
    rw [Cte.traverse, body.traverse_settled h, pure_bind]

theorem Cte.traverseAll_settled : (ctes : List Cte) → Cte.AllSettled ctes →
    Cte.traverseAll f ctes = pure ctes
  | [], _ => by rw [Cte.traverseAll]
  | c :: rest, h => by
    rw [Cte.AllSettled] at h
    rw [Cte.traverseAll, c.traverse_settled h.1, Cte.traverseAll_settled rest h.2, pure_bind, pure_bind]

theorem SetOperation.traverse_settled : (s : SetOperation) → s.IsSettled → s.traverse f = pure s
  | ⟨operator, query⟩, h => by
    rw [SetOperation.IsSettled] at h
    rw [SetOperation.traverse, query.traverse_settled h, map_pure]

theorem SetOperation.traverseAll_settled : (operations : List SetOperation) →
    SetOperation.AllSettled operations → SetOperation.traverseAll f operations = pure operations
  | [], _ => by rw [SetOperation.traverseAll]
  | s :: rest, h => by
    rw [SetOperation.AllSettled] at h
    rw [SetOperation.traverseAll, s.traverse_settled h.1, SetOperation.traverseAll_settled rest h.2,
      pure_bind, pure_bind]

/-- Going through a query that holds no object leaves it as it is and does no work. -/
theorem Query.traverse_settled : (q : Query) → q.IsSettled → q.traverse f = pure q
  | ⟨ctes, distinct, selection, source, joins, conditions, grouping, having, setOperations, ordering,
      limit, offset⟩, h => by
    rw [Query.IsSettled] at h
    obtain ⟨hctes, hselection, hsource, hjoins, hconditions, hgrouping, hhaving, hoperations, hordering,
      hlimit, hoffset⟩ := h
    rw [Query.traverse, Cte.traverseAll_settled ctes hctes,
      SelectItem.traverseAll_settled selection hselection, Source.traverseOption_settled source hsource,
      Join.traverseAll_settled joins hjoins, Condition.traverseAll_settled conditions hconditions,
      Expression.traverseAll_settled grouping hgrouping, Condition.traverseAll_settled having hhaving,
      SetOperation.traverseAll_settled setOperations hoperations,
      OrderItem.traverseAll_settled ordering hordering, Value.traverseOption_settled limit hlimit,
      Value.traverseOption_settled offset hoffset]
    simp only [pure_bind]

theorem Query.traverseOption_settled : (q : Option Query) → Query.OptionSettled q →
    Query.traverseOption f q = pure q
  | none, _ => by rw [Query.traverseOption]
  | some q, h => by
    rw [Query.OptionSettled] at h
    rw [Query.traverseOption, q.traverse_settled h, map_pure]

theorem Part.traverse_settled : (p : Part) → p.IsSettled → p.traverse f = pure p
  | .selectItem item, h => by
    rw [Part.IsSettled] at h
    rw [Part.traverse, item.traverse_settled h, map_pure]
  | .source s, h => by
    rw [Part.IsSettled] at h
    rw [Part.traverse, s.traverse_settled h, map_pure]
  | .join j, h => by
    rw [Part.IsSettled] at h
    rw [Part.traverse, j.traverse_settled h, map_pure]
  | .condition c, h => by
    rw [Part.IsSettled] at h
    rw [Part.traverse, c.traverse_settled h, map_pure]
  | .predicate p, h => by
    rw [Part.IsSettled] at h
    rw [Part.traverse, p.traverse_settled h, map_pure]
  | .orderItem item, h => by
    rw [Part.IsSettled] at h
    rw [Part.traverse, item.traverse_settled h, map_pure]
  | .cte c, h => by
    rw [Part.IsSettled] at h
    rw [Part.traverse, c.traverse_settled h, map_pure]
  | .setOperation s, h => by
    rw [Part.IsSettled] at h
    rw [Part.traverse, s.traverse_settled h, map_pure]

theorem BoundQuery.traverse_settled : (b : BoundQuery) → b.IsSettled → b.traverse f = pure b
  | ⟨sql, values, dialect⟩, h => by
    rw [BoundQuery.IsSettled] at h
    rw [BoundQuery.traverse, Value.traverseAll_settled values h, pure_bind]

end

end Walk

/-! ## Lists of settled parts -/

/-- What holds of a list if it holds of each item by itself. -/
theorem forall_mem_iff_of_cons {α : Type} {P : α → Prop} {all : List α → Prop} (nil : all [])
    (cons : ∀ a rest, all (a :: rest) ↔ P a ∧ all rest) (items : List α) :
    all items ↔ ∀ a ∈ items, P a := by
  induction items with
  | nil => exact iff_of_true nil (List.forall_mem_nil P)
  | cons a rest ih => rw [cons, ih, List.forall_mem_cons]

theorem Value.allSettled_iff {values : List Value} :
    Value.AllSettled values ↔ ∀ v ∈ values, v.IsSettled :=
  forall_mem_iff_of_cons (by rw [Value.AllSettled]; trivial)
    (fun _ _ => by rw [Value.AllSettled]) values

theorem Condition.allSettled_iff {conditions : List Condition} :
    Condition.AllSettled conditions ↔ ∀ c ∈ conditions, c.IsSettled :=
  forall_mem_iff_of_cons (by rw [Condition.AllSettled]; trivial)
    (fun _ _ => by rw [Condition.AllSettled]) conditions

theorem Expression.allSettled_iff {expressions : List Expression} :
    Expression.AllSettled expressions ↔ ∀ e ∈ expressions, e.IsSettled :=
  forall_mem_iff_of_cons (by rw [Expression.AllSettled]; trivial)
    (fun _ _ => by rw [Expression.AllSettled]) expressions

theorem SelectItem.allSettled_iff {items : List SelectItem} :
    SelectItem.AllSettled items ↔ ∀ item ∈ items, item.IsSettled :=
  forall_mem_iff_of_cons (by rw [SelectItem.AllSettled]; trivial)
    (fun _ _ => by rw [SelectItem.AllSettled]) items

theorem Join.allSettled_iff {joins : List Join} : Join.AllSettled joins ↔ ∀ j ∈ joins, j.IsSettled :=
  forall_mem_iff_of_cons (by rw [Join.AllSettled]; trivial)
    (fun _ _ => by rw [Join.AllSettled]) joins

theorem OrderItem.allSettled_iff {items : List OrderItem} :
    OrderItem.AllSettled items ↔ ∀ item ∈ items, item.IsSettled :=
  forall_mem_iff_of_cons (by rw [OrderItem.AllSettled]; trivial)
    (fun _ _ => by rw [OrderItem.AllSettled]) items

theorem Cte.allSettled_iff {ctes : List Cte} : Cte.AllSettled ctes ↔ ∀ c ∈ ctes, c.IsSettled :=
  forall_mem_iff_of_cons (by rw [Cte.AllSettled]; trivial)
    (fun _ _ => by rw [Cte.AllSettled]) ctes

theorem SetOperation.allSettled_iff {operations : List SetOperation} :
    SetOperation.AllSettled operations ↔ ∀ s ∈ operations, s.IsSettled :=
  forall_mem_iff_of_cons (by rw [SetOperation.AllSettled]; trivial)
    (fun _ _ => by rw [SetOperation.AllSettled]) operations

/-! ## Writing and copying what is settled -/

theorem Value.IsSettled.mapObjects {v : Value} (h : v.IsSettled) (f : Object → Object) :
    v.mapObjects f = v := by
  rw [Value.mapObjects, v.traverse_settled _ h, Id.run_pure]

theorem Condition.IsSettled.mapObjects {c : Condition} (h : c.IsSettled) (f : Object → Object) :
    c.mapObjects f = c := by
  rw [Condition.mapObjects, c.traverse_settled _ h, Id.run_pure]

theorem Query.IsSettled.mapObjects {q : Query} (h : q.IsSettled) (f : Object → Object) :
    q.mapObjects f = q := by
  rw [Query.mapObjects, q.traverse_settled _ h, Id.run_pure]

/-- No clause of the query has an object in it. -/
structure Query.ClausesSettled (q : Query) : Prop where
  ctes : ∀ c ∈ q.ctes, c.IsSettled
  selection : ∀ item ∈ q.selection, item.IsSettled
  source : Source.OptionSettled q.source
  joins : ∀ j ∈ q.joins, j.IsSettled
  conditions : ∀ c ∈ q.conditions, c.IsSettled
  grouping : ∀ e ∈ q.grouping, e.IsSettled
  having : ∀ c ∈ q.having, c.IsSettled
  setOperations : ∀ s ∈ q.setOperations, s.IsSettled
  ordering : ∀ item ∈ q.ordering, item.IsSettled
  limit : Value.OptionSettled q.limit
  offset : Value.OptionSettled q.offset

theorem Query.isSettled_iff {q : Query} : q.IsSettled ↔ q.ClausesSettled := by
  cases q
  rw [Query.IsSettled, Cte.allSettled_iff, SelectItem.allSettled_iff, Join.allSettled_iff,
    Condition.allSettled_iff, Expression.allSettled_iff, Condition.allSettled_iff,
    SetOperation.allSettled_iff, OrderItem.allSettled_iff]
  constructor
  · rintro ⟨ctes, selection, source, joins, conditions, grouping, having, setOperations, ordering, limit,
      offset⟩
    exact { ctes, selection, source, joins, conditions, grouping, having, setOperations, ordering, limit,
            offset }
  · exact fun h => ⟨h.ctes, h.selection, h.source, h.joins, h.conditions, h.grouping, h.having,
      h.setOperations, h.ordering, h.limit, h.offset⟩

theorem Query.settled_empty : Query.empty.IsSettled := by
  rw [Query.empty, Query.IsSettled]
  exact ⟨trivial, trivial, trivial, trivial, trivial, trivial, trivial, trivial, trivial, trivial, trivial⟩

end SqlComposition
