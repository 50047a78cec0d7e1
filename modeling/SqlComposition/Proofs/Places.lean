import SqlComposition.Proofs.Frames

/-!
Places of queries in queries. A clause may have a place for a query: as a source, a join, a named query or
a member of a set operation, as a test, as an operand, or in a slot of a fragment. Wherever such a clause
stands in a query, the query with the place is a frame, whatever else is in it.
-/

namespace SqlComposition
open Layout

/-! ## Values and fragments -/

mutual

/-- Values with a place for a query: the value itself, or a slot of a fragment. -/
inductive Value.IsPlace : (Query → Value) → Prop where
  | query : Value.IsPlace .query
  | fragment {put : Query → Fragment} : Fragment.IsPlace put → Value.IsPlace fun q => .fragment (put q)

/-- Fragments with a place for a query in one of their bindings, for which there is a slot. -/
inductive Fragment.IsPlace : (Query → Fragment) → Prop where
  | slot {sql : String} {before after : List Value} {put : Query → Value} :
      before.length < Slot.count sql.toList → Value.IsPlace put →
      Fragment.IsPlace fun q => ⟨sql, before ++ put q :: after⟩

end

theorem Value.layout_query (q : Query) : (Value.query q).layout .full = parenthesized q.layout := by
  rw [Value.layout]
  rfl

mutual

theorem Value.IsPlace.isFrame {put : Query → Value} (h : Value.IsPlace put) :
    IsFrame true fun q => (put q).layout .full :=
  match h with
  | .query => by
    simp only [Value.layout_query]
    exact .parenthesized
  | .fragment hf => by
    simp only [Value.layout]
    exact hf.isFrame

theorem Fragment.IsPlace.isFrame {put : Query → Fragment} (h : Fragment.IsPlace put) :
    IsFrame true fun q => (put q).layout .full :=
  match h with
  | .slot there hv => by
    simp only [Fragment.layout, Value.layouts_eq_map, List.map_append, List.map_cons]
    exact hv.isFrame.filled (by rwa [List.length_map]) _

end

/-! ## Predicates -/

/-- What an IN test looks for, with a place for a query: the whole, or an item. -/
inductive Members.IsPlace : (Query → Members) → Prop where
  | query : IsPlace .query
  | item {before after : List Value} {put : Query → Value} : Value.IsPlace put →
      IsPlace fun q => .listed (before ++ put q :: after)

/-- Tests with a place for a query. -/
inductive Predicate.IsPlace : (Query → Predicate) → Prop where
  | comparison {column operator : String} {put : Query → Value} : Value.IsPlace put →
      IsPlace fun q => .comparison column operator (put q)
  | member {column : String} {put : Query → Members} {negated : Bool} : Members.IsPlace put →
      IsPlace fun q => .member column (put q) negated
  | low {column : String} {put : Query → Value} {high : Value} {negated : Bool} :
      Value.IsPlace put → IsPlace fun q => .between column (put q) high negated
  | high {column : String} {low : Value} {put : Query → Value} {negated : Bool} :
      Value.IsPlace put → IsPlace fun q => .between column low (put q) negated
  | nonempty {negated : Bool} : IsPlace fun q => .nonempty q negated
  | raw {put : Query → Fragment} : Fragment.IsPlace put → IsPlace fun q => .raw (put q)

theorem Predicate.layout_listed (column : String) {values : List Value} (h : values ≠ [])
    (negated : Bool) :
    (Predicate.member column (.listed values) negated).layout .full =
      series [verbatim column, negation negated " NOT IN " " IN ",
        parenthesized (joined ", " (values.map (Value.layout .full)))] := by
  obtain ⟨v, rest, rfl⟩ := List.exists_cons_of_ne_nil h
  rw [Predicate.layout, Value.layouts_eq_map, List.map_cons]

theorem Predicate.IsPlace.isFrame {put : Query → Predicate} (h : IsPlace put) :
    IsFrame true fun q => (put q).layout .full := by
  cases h with
  | @comparison column operator put hv =>
    simp only [Predicate.layout]
    exact hv.isFrame.series [verbatim column, keyword " ", verbatim operator, keyword " "] []
  | @member column put negated hm =>
    cases hm with
    | query =>
      simp only [Predicate.layout, nested]
      exact IsFrame.parenthesized.series [verbatim column, negation negated " NOT IN " " IN "] []
    | @item before after put hv =>
      have some (q : Query) : before ++ put q :: after ≠ [] := by simp
      simp only [Predicate.layout_listed column (some _), List.map_append, List.map_cons]
      exact (hv.isFrame.joined ", " _ _).inParentheses.series
        [verbatim column, negation negated " NOT IN " " IN "] []
  | @low column put high negated hv =>
    simp only [Predicate.layout]
    exact hv.isFrame.series [verbatim column, negation negated " NOT BETWEEN " " BETWEEN "]
      [keyword " AND ", high.layout .full]
  | @high column low put negated hv =>
    simp only [Predicate.layout]
    exact hv.isFrame.series [verbatim column, negation negated " NOT BETWEEN " " BETWEEN ",
      low.layout .full, keyword " AND "] []
  | @nonempty negated =>
    simp only [Predicate.layout, nested]
    exact IsFrame.parenthesized.series [negation negated "NOT EXISTS " "EXISTS "] []
  | raw hf =>
    simp only [Predicate.layout]
    exact hf.isFrame

/-! ## Clauses -/

/-- A clause of a query, or one of several of its kind. -/
inductive Clause where
  | cte (c : Cte)
  | selectItem (item : SelectItem)
  | source (s : Source)
  | join (j : Join)
  | condition (c : Condition)
  | grouping (e : Expression)
  | having (c : Condition)
  | setOperation (s : SetOperation)
  | ordering (item : OrderItem)

/-- A clause that a query has. -/
def Query.Has (q : Query) : Clause → Prop
  | .cte c => c ∈ q.ctes
  | .selectItem item => item ∈ q.selection
  | .source s => q.source = some s
  | .join j => j ∈ q.joins
  | .condition c => c ∈ q.conditions
  | .grouping e => e ∈ q.grouping
  | .having c => c ∈ q.having
  | .setOperation s => s ∈ q.setOperations
  | .ordering item => item ∈ q.ordering

/-- Conditions with a place for a query in their test. -/
inductive Condition.IsPlace : (Query → Condition) → Prop where
  | test {connective : Connective} {put : Query → Predicate} : Predicate.IsPlace put →
      IsPlace fun q => ⟨connective, put q⟩

/-- Bodies of named queries with a place for a query: the whole, or a slot of a fragment. -/
inductive CteBody.IsPlace : (Query → CteBody) → Prop where
  | query : IsPlace .query
  | raw {put : Query → Fragment} : Fragment.IsPlace put → IsPlace fun q => .raw (put q)

/-- Clauses with a place for a query, which is in parentheses except as a member of a set operation. The
condition of a cross join is not written. -/
inductive Clause.IsPlace : Bool → (Query → Clause) → Prop where
  | cte {name : String} {columns : Option (List String)} {put : Query → CteBody}
      {isRecursive : Bool} : CteBody.IsPlace put →
      IsPlace true fun q => .cte ⟨name, columns, put q, isRecursive⟩
  | selectItem {put : Query → Fragment} {label : Option String} : Fragment.IsPlace put →
      IsPlace true fun q => .selectItem ⟨.raw (put q), label⟩
  | source {table label : Option String} : IsPlace true fun q => .source ⟨table, some q, label⟩
  | join {kind : JoinKind} {label : Option String} {on : Option Fragment} :
      IsPlace true fun q => .join ⟨kind, .query q, label, on⟩
  | joinCondition {kind : JoinKind} {target : JoinTarget} {label : Option String}
      {put : Query → Fragment} : kind ≠ .cross → Fragment.IsPlace put →
      IsPlace true fun q => .join ⟨kind, target, label, some (put q)⟩
  | condition {put : Query → Condition} : Condition.IsPlace put →
      IsPlace true fun q => .condition (put q)
  | grouping {put : Query → Fragment} : Fragment.IsPlace put →
      IsPlace true fun q => .grouping (.raw (put q))
  | having {put : Query → Condition} : Condition.IsPlace put → IsPlace true fun q => .having (put q)
  | setOperation {operator : SetOperator} : IsPlace false fun q => .setOperation ⟨operator, q⟩
  | ordering {put : Query → Fragment} {direction : Option String} : Fragment.IsPlace put →
      IsPlace true fun q => .ordering ⟨.raw (put q), direction⟩

theorem Cte.layouts_eq_map (ctes : List Cte) : Cte.layouts ctes = ctes.map Cte.layout :=
  eq_map_of_cons (by rw [Cte.layouts]) (fun _ _ => by rw [Cte.layouts]) ctes

theorem SelectItem.layouts_eq_map (items : List SelectItem) :
    SelectItem.layouts items = items.map SelectItem.layout :=
  eq_map_of_cons (by rw [SelectItem.layouts]) (fun _ _ => by rw [SelectItem.layouts]) items

theorem Join.layouts_eq_map (joins : List Join) : Join.layouts joins = joins.map Join.layout :=
  eq_map_of_cons (by rw [Join.layouts]) (fun _ _ => by rw [Join.layouts]) joins

theorem Expression.layouts_eq_map (expressions : List Expression) :
    Expression.layouts expressions = expressions.map Expression.layout :=
  eq_map_of_cons (by rw [Expression.layouts]) (fun _ _ => by rw [Expression.layouts]) expressions

theorem SetOperation.layouts_eq_map (operations : List SetOperation) :
    SetOperation.layouts operations = operations.map SetOperation.layout :=
  eq_map_of_cons (by rw [SetOperation.layouts]) (fun _ _ => by rw [SetOperation.layouts]) operations

theorem OrderItem.layouts_eq_map (items : List OrderItem) :
    OrderItem.layouts items = items.map OrderItem.layout :=
  eq_map_of_cons (by rw [OrderItem.layouts]) (fun _ _ => by rw [OrderItem.layouts]) items

/-- One of several that are written by themselves. -/
theorem Layout.IsFrameIn.listed {α : Type} {enclosed : Bool} {layout : α → Layout}
    {all : List α → List Layout} (eq_map : ∀ items, all items = items.map layout) {put : Query → α}
    (h : IsFrame enclosed fun q => layout (put q)) (before after : List α) :
    IsFrameIn enclosed fun q => all (before ++ put q :: after) := by
  simp only [eq_map, List.map_append, List.map_cons]
  exact .among _ h _

theorem Layout.IsFrameIn.conditions {enclosed : Bool} {put : Query → Predicate} (word : String)
    (before : List Condition) (connective : Connective)
    (h : IsFrame enclosed fun q => (put q).layout .full) (after : List Condition) :
    IsFrameIn enclosed fun q =>
      Layout.groupedClause word (Condition.layouts .full (before ++ ⟨connective, put q⟩ :: after)) := by
  simp only [Condition.layouts_eq_map, List.map_append, List.map_cons]
  exact groupedClause word _ connective h _

namespace Query

theorem eta (q : Query) :
    ⟨q.ctes, q.distinct, q.selection, q.source, q.joins, q.conditions, q.grouping, q.having,
      q.setOperations, q.ordering, q.limit, q.offset⟩ = q := by
  cases q
  rfl

/-- What a query comes to be when others are put in the place of one of its clauses: it is a frame around
them, and `q` is the one that is there. -/
def IsAround (enclosed : Bool) (put : Query → Clause) (outer q : Query) : Prop :=
  ∃ change : Query → Query, change q = outer ∧ (∀ r, (change r).Has (put r)) ∧
    IsFrame enclosed fun r => (change r).layout

variable {enclosed : Bool} {outer q : Query}

theorem isFrame_of_opening (outer : Query) {change : Query → Query}
    (hc : ∀ r, (change r).closing = outer.closing)
    (h : IsFrameIn enclosed fun r => (change r).opening) :
    IsFrame enclosed fun r => (change r).layout := by
  simp only [layout_eq_lines, hc]
  exact (h.append outer.closing).joined "\n"

theorem isFrame_of_closing (outer : Query) {change : Query → Query}
    (ho : ∀ r, (change r).opening = outer.opening)
    (h : IsFrameIn enclosed fun r => (change r).closing) :
    IsFrame enclosed fun r => (change r).layout := by
  simp only [layout_eq_lines, ho]
  exact (h.prepend outer.opening).joined "\n"

theorem opening_of_selection {q : Query} (h : q.selection ≠ []) :
    q.opening =
      clause (if q.ctes.any (·.isRecursive) then "WITH RECURSIVE " else "WITH ") ", "
          (Cte.layouts q.ctes) ++
        [series [keyword (if q.distinct then "SELECT DISTINCT " else "SELECT "),
          joined ", " (q.selection.map SelectItem.layout), Source.line q.source]] ++
        Join.layouts q.joins ++
        groupedClause "WHERE " (Condition.layouts .full q.conditions) ++
        clause "GROUP BY " ", " (Expression.layouts q.grouping) ++
        groupedClause "HAVING " (Condition.layouts .full q.having) := by
  obtain ⟨first, rest, selected⟩ := List.exists_cons_of_ne_nil h
  rw [opening, SelectItem.layouts_eq_map, selected]
  rfl

/-- One of several clauses of a kind can be put in the place of another, between those before and after. -/
theorem isAround_of_mem {γ : Type} {c : Query → γ} {put : Query → Clause} (change : List γ → Query)
    {items : List γ} (here : change items = outer)
    (has : ∀ items r, c r ∈ items → (change items).Has (put r)) (hq : c q ∈ items)
    (h : ∀ before after, IsFrame enclosed fun r => (change (before ++ c r :: after)).layout) :
    IsAround enclosed put outer q := by
  obtain ⟨before, after, rfl⟩ := List.append_of_mem hq
  exact ⟨fun r => change (before ++ c r :: after), here,
    fun r => has _ r (List.mem_append_right before List.mem_cons_self), h before after⟩

theorem around_cte {c : Query → Cte} {isRecursive : Bool} (hr : ∀ r, (c r).isRecursive = isRecursive)
    (h : IsFrame enclosed fun r => (c r).layout) (hq : c q ∈ outer.ctes) :
    IsAround enclosed (fun r => .cte (c r)) outer q := by
  refine isAround_of_mem (fun ctes => { outer with ctes }) outer.eta (fun _ _ hm => hm) hq
    fun before after => isFrame_of_opening outer (fun _ => rfl) ?_
  have line : IsFrameIn enclosed fun r =>
      clause (if (before ++ c r :: after).any (·.isRecursive) then "WITH RECURSIVE " else "WITH ") ", "
        (Cte.layouts (before ++ c r :: after)) := by
    simp only [List.any_append, List.any_cons, hr]
    exact (IsFrameIn.listed Cte.layouts_eq_map h before after).clause _ _
  dsimp +instances only [opening]
  exact ((((line.append _).append _).append _).append _).append _

theorem around_selectItem {item : Query → SelectItem} (h : IsFrame enclosed fun r => (item r).layout)
    (hq : item q ∈ outer.selection) : IsAround enclosed (fun r => .selectItem (item r)) outer q := by
  refine isAround_of_mem (fun selection => { outer with selection }) outer.eta (fun _ _ hm => hm) hq
    fun before after => isFrame_of_opening outer (fun _ => rfl) ?_
  -- an empty selection is written in another way, so the opening is split where there is an item
  have start (r : Query) : ({ outer with selection := before ++ item r :: after } : Query).opening = _ :=
    opening_of_selection (by simp)
  simp only [start, List.map_append, List.map_cons]
  dsimp +instances only
  refine (((((IsFrameIn.single ?_).prepend _).append _).append _).append _).append _
  exact (h.joined ", " _ _).series [_] [_]

theorem around_source {s : Query → Source} (h : IsFrame enclosed fun r => (s r).layout)
    (hq : outer.source = some (s q)) : IsAround enclosed (fun r => .source (s r)) outer q := by
  refine ⟨fun r => { outer with source := some (s r) },
    (congrArg (fun source => ({ outer with source } : Query)) hq.symm).trans outer.eta, fun _ => rfl,
    isFrame_of_opening outer (fun _ => rfl) ?_⟩
  dsimp +instances only [opening, Source.line]
  refine (((((IsFrameIn.single ?_).prepend _).append _).append _).append _).append _
  exact (h.series [_] []).series [_, _] []

theorem around_join {j : Query → Join} (h : IsFrame enclosed fun r => (j r).layout)
    (hq : j q ∈ outer.joins) : IsAround enclosed (fun r => .join (j r)) outer q := by
  refine isAround_of_mem (fun joins => { outer with joins }) outer.eta (fun _ _ hm => hm) hq
    fun before after => isFrame_of_opening outer (fun _ => rfl) ?_
  have lines := IsFrameIn.listed Join.layouts_eq_map h before after
  dsimp +instances only [opening]
  exact (((lines.prepend _).append _).append _).append _

theorem around_condition {p : Query → Predicate} {connective : Connective}
    (h : IsFrame enclosed fun r => (p r).layout .full) (hq : ⟨connective, p q⟩ ∈ outer.conditions) :
    IsAround enclosed (fun r => .condition ⟨connective, p r⟩) outer q := by
  refine isAround_of_mem (fun conditions => { outer with conditions }) outer.eta (fun _ _ hm => hm) hq
    fun before after => isFrame_of_opening outer (fun _ => rfl) ?_
  dsimp +instances only [opening]
  exact (((IsFrameIn.conditions _ before connective h after).prepend _).append _).append _

theorem around_grouping {e : Query → Expression} (h : IsFrame enclosed fun r => (e r).layout)
    (hq : e q ∈ outer.grouping) : IsAround enclosed (fun r => .grouping (e r)) outer q := by
  refine isAround_of_mem (fun grouping => { outer with grouping }) outer.eta (fun _ _ hm => hm) hq
    fun before after => isFrame_of_opening outer (fun _ => rfl) ?_
  have lines := IsFrameIn.listed Expression.layouts_eq_map h before after
  dsimp +instances only [opening]
  exact ((lines.clause _ _).prepend _).append _

theorem around_having {p : Query → Predicate} {connective : Connective}
    (h : IsFrame enclosed fun r => (p r).layout .full) (hq : ⟨connective, p q⟩ ∈ outer.having) :
    IsAround enclosed (fun r => .having ⟨connective, p r⟩) outer q := by
  refine isAround_of_mem (fun having => { outer with having }) outer.eta (fun _ _ hm => hm) hq
    fun before after => isFrame_of_opening outer (fun _ => rfl) ?_
  dsimp +instances only [opening]
  exact (IsFrameIn.conditions _ before connective h after).prepend _

theorem around_setOperation {s : Query → SetOperation} (h : IsFrame enclosed fun r => (s r).layout)
    (hq : s q ∈ outer.setOperations) : IsAround enclosed (fun r => .setOperation (s r)) outer q := by
  refine isAround_of_mem (fun setOperations => { outer with setOperations }) outer.eta (fun _ _ hm => hm)
    hq fun before after => isFrame_of_closing outer (fun _ => rfl) ?_
  have lines := IsFrameIn.listed SetOperation.layouts_eq_map h before after
  dsimp only [closing]
  exact ((lines.append _).append _).append _

theorem around_ordering {item : Query → OrderItem} (h : IsFrame enclosed fun r => (item r).layout)
    (hq : item q ∈ outer.ordering) : IsAround enclosed (fun r => .ordering (item r)) outer q := by
  refine isAround_of_mem (fun ordering => { outer with ordering }) outer.eta (fun _ _ hm => hm) hq
    fun before after => isFrame_of_closing outer (fun _ => rfl) ?_
  have lines := IsFrameIn.listed OrderItem.layouts_eq_map h before after
  dsimp only [closing]
  exact (((lines.clause _ _).prepend _).append _).append _

end Query

theorem Fragment.IsPlace.isFrame_expression {put : Query → Fragment} (h : IsPlace put) :
    IsFrame true fun q => (Expression.raw (put q)).layout := by
  simp only [Expression.layout]
  exact h.isFrame

theorem OrderItem.isFrame {enclosed : Bool} {e : Query → Expression}
    (h : IsFrame enclosed fun q => (e q).layout) (direction : Option String) :
    IsFrame enclosed fun q => OrderItem.layout ⟨e q, direction⟩ := by
  cases direction with
  | none => simpa only [OrderItem.layout] using h
  | some direction =>
    simp only [OrderItem.layout]
    split
    · exact h
    · exact h.series [] [keyword " ", verbatim direction]

theorem CteBody.IsPlace.isFrame {put : Query → CteBody} (h : IsPlace put) :
    IsFrame true fun q => parenthesized (put q).layout := by
  cases h with
  | query =>
    simp only [CteBody.layout]
    exact .parenthesized
  | raw hf =>
    simp only [CteBody.layout]
    exact hf.isFrame.inParentheses

/-- A clause with a place for a query makes the query it stands in a frame. -/
theorem Clause.IsPlace.isAround {enclosed : Bool} {put : Query → Clause} (h : IsPlace enclosed put)
    {outer q : Query} (hq : outer.Has (put q)) : Query.IsAround enclosed put outer q := by
  cases h with
  | @cte name columns put isRecursive hb =>
    refine Query.around_cte (fun _ => rfl) ?_ hq
    simp only [Cte.layout]
    exact hb.isFrame.series [verbatim name, columnList columns, keyword " AS "] []
  | selectItem hf =>
    refine Query.around_selectItem ?_ hq
    simp only [SelectItem.layout]
    exact hf.isFrame_expression.aliased _
  | source =>
    refine Query.around_source ?_ hq
    simp only [Source.layout]
    exact IsFrame.parenthesized.aliased _
  | @join kind label on =>
    refine Query.around_join ?_ hq
    simp only [Join.layout.eq_def, JoinTarget.layout]
    exact (IsFrame.parenthesized.aliased _).series [_] [_]
  | @joinCondition kind target label put written hf =>
    refine Query.around_join ?_ hq
    have condition := hf.isFrame.series [keyword " ON "] []
    cases kind with
    | cross => exact absurd rfl written
    | inner | left | right | full =>
      simp only [Join.layout.eq_def]
      exact condition.series [_, _] []
  | condition hc =>
    cases hc with
    | test hp => exact Query.around_condition hp.isFrame hq
  | grouping hf => exact Query.around_grouping hf.isFrame_expression hq
  | having hc =>
    cases hc with
    | test hp => exact Query.around_having hp.isFrame hq
  | @setOperation operator =>
    refine Query.around_setOperation ?_ hq
    simp only [SetOperation.layout]
    exact IsFrame.whole.series [keyword (operator.keyword ++ "\n")] []
  | ordering hf => exact Query.around_ordering (OrderItem.isFrame hf.isFrame_expression _) hq

end SqlComposition
