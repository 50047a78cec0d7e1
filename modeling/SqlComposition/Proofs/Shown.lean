import SqlComposition.Proofs.InPlace
import SqlComposition.Proofs.Readings

/-!
Places in what is shown. Before a builder is written, the objects in its query are looked at. That changes
objects and nothing else: each clause stays where it is, and so does a query in a place of it.
-/

namespace SqlComposition

variable (f : Object → Object)

/-! ## Values and fragments -/

/-- Replaces the objects in a fragment. -/
def Fragment.mapObjects (x : Fragment) : Fragment :=
  Id.run (x.traverse fun o => pure (f o))

theorem Value.mapObjects_query (q : Query) :
    (Value.query q).mapObjects f = .query (q.mapObjects f) := by
  rw [Value.mapObjects, Value.traverse]
  rfl

theorem Value.mapObjects_fragment (x : Fragment) :
    (Value.fragment x).mapObjects f = .fragment (x.mapObjects f) := by
  rw [Value.mapObjects, Value.traverse]
  rfl

theorem Value.run_traverseAll (values : List Value) :
    Id.run (Value.traverseAll (fun o => pure (f o)) values) = values.map (·.mapObjects f) :=
  eq_map_of_cons (by rw [Value.traverseAll]; rfl) (fun _ _ => by rw [Value.traverseAll]; rfl) values

theorem Fragment.mapObjects_mk (sql : String) (bindings : List Value) :
    Fragment.mapObjects f ⟨sql, bindings⟩ = ⟨sql, bindings.map (·.mapObjects f)⟩ := by
  rw [mapObjects, traverse, ← Value.run_traverseAll]
  rfl

mutual

theorem Value.IsPlace.mapObjects {put : Query → Value} (h : Value.IsPlace put) :
    ∃ put', Value.IsPlace put' ∧ ∀ q, (put q).mapObjects f = put' (q.mapObjects f) :=
  match h with
  | .query => ⟨.query, .query, Value.mapObjects_query f⟩
  | .fragment hf => by
    obtain ⟨put', place, same⟩ := hf.mapObjects
    exact ⟨fun q => .fragment (put' q), .fragment place, fun q => by
      rw [Value.mapObjects_fragment, same]⟩

theorem Fragment.IsPlace.mapObjects {put : Query → Fragment} (h : Fragment.IsPlace put) :
    ∃ put', Fragment.IsPlace put' ∧ ∀ q, (put q).mapObjects f = put' (q.mapObjects f) :=
  match put, h with
  | _, @Fragment.IsPlace.slot sql before after put there hv => by
    obtain ⟨put', place, same⟩ := hv.mapObjects
    refine ⟨fun q => ⟨sql, before.map (·.mapObjects f) ++ put' q :: after.map (·.mapObjects f)⟩,
      .slot (by rwa [List.length_map]) place, fun q => ?_⟩
    rw [Fragment.mapObjects_mk, List.map_append, List.map_cons, same]

end

/-! ## Predicates -/

/-- Replaces the objects in what an IN test looks for. -/
def Members.mapObjects (x : Members) : Members :=
  Id.run (x.traverse fun o => pure (f o))

/-- Replaces the objects in a test. -/
def Predicate.mapObjects (p : Predicate) : Predicate :=
  Id.run (p.traverse fun o => pure (f o))

theorem Members.mapObjects_query (q : Query) :
    (Members.query q).mapObjects f = .query (q.mapObjects f) := by
  rw [mapObjects, traverse]
  rfl

theorem Members.mapObjects_listed (values : List Value) :
    (Members.listed values).mapObjects f = .listed (values.map (·.mapObjects f)) := by
  rw [mapObjects, traverse, ← Value.run_traverseAll]
  rfl

namespace Predicate

theorem mapObjects_comparison (column operator : String) (v : Value) :
    (comparison column operator v).mapObjects f = comparison column operator (v.mapObjects f) := by
  rw [mapObjects, traverse]
  rfl

theorem mapObjects_member (column : String) (members : Members) (negated : Bool) :
    (member column members negated).mapObjects f = member column (members.mapObjects f) negated := by
  rw [mapObjects, traverse]
  rfl

theorem mapObjects_between (column : String) (low high : Value) (negated : Bool) :
    (between column low high negated).mapObjects f =
      between column (low.mapObjects f) (high.mapObjects f) negated := by
  rw [mapObjects, traverse]
  rfl

theorem mapObjects_nonempty (q : Query) (negated : Bool) :
    (nonempty q negated).mapObjects f = nonempty (q.mapObjects f) negated := by
  rw [mapObjects, traverse]
  rfl

theorem mapObjects_raw (x : Fragment) : (raw x).mapObjects f = raw (x.mapObjects f) := by
  rw [mapObjects, traverse]
  rfl

end Predicate

theorem Members.IsPlace.mapObjects {put : Query → Members} (h : IsPlace put) :
    ∃ put', IsPlace put' ∧ ∀ q, (put q).mapObjects f = put' (q.mapObjects f) := by
  cases h with
  | query => exact ⟨.query, .query, Members.mapObjects_query f⟩
  | @item before after put hv =>
    obtain ⟨put', place, same⟩ := hv.mapObjects f
    refine ⟨fun q => .listed (before.map (·.mapObjects f) ++ put' q :: after.map (·.mapObjects f)),
      .item place, fun q => ?_⟩
    rw [Members.mapObjects_listed, List.map_append, List.map_cons, same]

theorem Predicate.IsPlace.mapObjects {put : Query → Predicate} (h : IsPlace put) :
    ∃ put', IsPlace put' ∧ ∀ q, (put q).mapObjects f = put' (q.mapObjects f) := by
  cases h with
  | @comparison column operator put hv =>
    obtain ⟨put', place, same⟩ := hv.mapObjects f
    exact ⟨fun q => .comparison column operator (put' q), .comparison place, fun q => by
      rw [mapObjects_comparison, same]⟩
  | @member column put negated hm =>
    obtain ⟨put', place, same⟩ := hm.mapObjects f
    exact ⟨fun q => .member column (put' q) negated, .member place, fun q => by
      rw [mapObjects_member, same]⟩
  | @low column put high negated hv =>
    obtain ⟨put', place, same⟩ := hv.mapObjects f
    exact ⟨fun q => .between column (put' q) (high.mapObjects f) negated, .low place, fun q => by
      rw [mapObjects_between, same]⟩
  | @high column low put negated hv =>
    obtain ⟨put', place, same⟩ := hv.mapObjects f
    exact ⟨fun q => .between column (low.mapObjects f) (put' q) negated, .high place, fun q => by
      rw [mapObjects_between, same]⟩
  | @nonempty negated =>
    exact ⟨fun q => .nonempty q negated, .nonempty, fun q => mapObjects_nonempty f q negated⟩
  | raw hf =>
    obtain ⟨put', place, same⟩ := hf.mapObjects f
    exact ⟨fun q => .raw (put' q), .raw place, fun q => by rw [mapObjects_raw, same]⟩

/-! ## Clauses -/

/-- Replaces the objects in a clause. -/
def Clause.mapObjects : Clause → Clause
  | .cte c => .cte (Id.run (c.traverse fun o => pure (f o)))
  | .selectItem item => .selectItem (Id.run (item.traverse fun o => pure (f o)))
  | .source s => .source (Id.run (s.traverse fun o => pure (f o)))
  | .join j => .join (Id.run (j.traverse fun o => pure (f o)))
  | .condition c => .condition (c.mapObjects f)
  | .grouping e => .grouping (Id.run (e.traverse fun o => pure (f o)))
  | .having c => .having (c.mapObjects f)
  | .setOperation s => .setOperation (Id.run (s.traverse fun o => pure (f o)))
  | .ordering item => .ordering (Id.run (item.traverse fun o => pure (f o)))

theorem Cte.run_traverseAll (ctes : List Cte) :
    Id.run (Cte.traverseAll (fun o => pure (f o)) ctes) =
      ctes.map fun c => Id.run (c.traverse fun o => pure (f o)) :=
  eq_map_of_cons (by rw [Cte.traverseAll]; rfl) (fun _ _ => by rw [Cte.traverseAll]; rfl) ctes

theorem SelectItem.run_traverseAll (items : List SelectItem) :
    Id.run (SelectItem.traverseAll (fun o => pure (f o)) items) =
      items.map fun item => Id.run (item.traverse fun o => pure (f o)) :=
  eq_map_of_cons (by rw [SelectItem.traverseAll]; rfl) (fun _ _ => by rw [SelectItem.traverseAll]; rfl) items

theorem Join.run_traverseAll (joins : List Join) :
    Id.run (Join.traverseAll (fun o => pure (f o)) joins) =
      joins.map fun j => Id.run (j.traverse fun o => pure (f o)) :=
  eq_map_of_cons (by rw [Join.traverseAll]; rfl) (fun _ _ => by rw [Join.traverseAll]; rfl) joins

theorem Condition.run_traverseAll (conditions : List Condition) :
    Id.run (Condition.traverseAll (fun o => pure (f o)) conditions) =
      conditions.map (·.mapObjects f) :=
  eq_map_of_cons (by rw [Condition.traverseAll]; rfl) (fun _ _ => by rw [Condition.traverseAll]; rfl)
    conditions

theorem Expression.run_traverseAll (expressions : List Expression) :
    Id.run (Expression.traverseAll (fun o => pure (f o)) expressions) =
      expressions.map fun e => Id.run (e.traverse fun o => pure (f o)) :=
  eq_map_of_cons (by rw [Expression.traverseAll]; rfl) (fun _ _ => by rw [Expression.traverseAll]; rfl)
    expressions

theorem SetOperation.run_traverseAll (operations : List SetOperation) :
    Id.run (SetOperation.traverseAll (fun o => pure (f o)) operations) =
      operations.map fun s => Id.run (s.traverse fun o => pure (f o)) :=
  eq_map_of_cons (by rw [SetOperation.traverseAll]; rfl) (fun _ _ => by rw [SetOperation.traverseAll]; rfl)
    operations

theorem OrderItem.run_traverseAll (items : List OrderItem) :
    Id.run (OrderItem.traverseAll (fun o => pure (f o)) items) =
      items.map fun item => Id.run (item.traverse fun o => pure (f o)) :=
  eq_map_of_cons (by rw [OrderItem.traverseAll]; rfl) (fun _ _ => by rw [OrderItem.traverseAll]; rfl) items

theorem Source.run_traverseOption (s : Option Source) :
    Id.run (Source.traverseOption (fun o => pure (f o)) s) =
      s.map fun s => Id.run (s.traverse fun o => pure (f o)) := by
  cases s <;> rw [Source.traverseOption] <;> rfl

theorem Value.run_traverseOption (v : Option Value) :
    Id.run (Value.traverseOption (fun o => pure (f o)) v) = v.map (·.mapObjects f) := by
  cases v <;> rw [Value.traverseOption] <;> rfl

/-- In a query objects are replaced clause by clause. -/
theorem Query.mapObjects_eq (q : Query) :
    q.mapObjects f =
      { ctes := q.ctes.map fun c => Id.run (c.traverse fun o => pure (f o))
        distinct := q.distinct
        selection := q.selection.map fun item => Id.run (item.traverse fun o => pure (f o))
        source := q.source.map fun s => Id.run (s.traverse fun o => pure (f o))
        joins := q.joins.map fun j => Id.run (j.traverse fun o => pure (f o))
        conditions := q.conditions.map (·.mapObjects f)
        grouping := q.grouping.map fun e => Id.run (e.traverse fun o => pure (f o))
        having := q.having.map (·.mapObjects f)
        setOperations := q.setOperations.map fun s => Id.run (s.traverse fun o => pure (f o))
        ordering := q.ordering.map fun item => Id.run (item.traverse fun o => pure (f o))
        limit := q.limit.map (·.mapObjects f)
        offset := q.offset.map (·.mapObjects f) } := by
  cases q
  rw [← Cte.run_traverseAll, ← SelectItem.run_traverseAll, ← Source.run_traverseOption,
    ← Join.run_traverseAll, ← Condition.run_traverseAll, ← Expression.run_traverseAll,
    ← Condition.run_traverseAll, ← SetOperation.run_traverseAll, ← OrderItem.run_traverseAll,
    ← Value.run_traverseOption, ← Value.run_traverseOption, Query.mapObjects, Query.traverse]
  rfl

/-- A clause is replaced where it is. -/
theorem Query.Has.mapObjects {q : Query} {c : Clause} (h : q.Has c) :
    (q.mapObjects f).Has (c.mapObjects f) := by
  rw [Query.mapObjects_eq]
  cases c with
  | cte _ | selectItem _ | join _ | condition _ | grouping _ | having _ | setOperation _ | ordering _ =>
    exact List.mem_map_of_mem h
  | source s => exact congrArg (Option.map _) h

namespace Clause

theorem mapObjects_cte (name : String) (columns : Option (List String)) (body : CteBody)
    (isRecursive : Bool) :
    (cte ⟨name, columns, body, isRecursive⟩).mapObjects f =
      cte ⟨name, columns, Id.run (body.traverse fun o => pure (f o)), isRecursive⟩ := by
  rw [mapObjects, Cte.traverse]
  rfl

theorem mapObjects_selectItem (x : Fragment) (label : Option String) :
    (selectItem ⟨.raw x, label⟩).mapObjects f = selectItem ⟨.raw (x.mapObjects f), label⟩ := by
  rw [mapObjects, SelectItem.traverse, Expression.traverse]
  rfl

theorem mapObjects_source (table label : Option String) (q : Query) :
    (source ⟨table, some q, label⟩).mapObjects f = source ⟨table, some (q.mapObjects f), label⟩ := by
  rw [mapObjects, Source.traverse, Query.traverseOption]
  rfl

theorem mapObjects_join (kind : JoinKind) (target : JoinTarget) (label : Option String)
    (on : Option Fragment) :
    (join ⟨kind, target, label, on⟩).mapObjects f =
      join ⟨kind, Id.run (target.traverse fun o => pure (f o)), label, on.map (·.mapObjects f)⟩ := by
  rw [mapObjects, Join.traverse]
  cases on <;> rw [Fragment.traverseOption] <;> rfl

theorem mapObjects_grouping (x : Fragment) :
    (grouping (.raw x)).mapObjects f = grouping (.raw (x.mapObjects f)) := by
  rw [mapObjects, Expression.traverse]
  rfl

theorem mapObjects_setOperation (operator : SetOperator) (q : Query) :
    (setOperation ⟨operator, q⟩).mapObjects f = setOperation ⟨operator, q.mapObjects f⟩ := by
  rw [mapObjects, SetOperation.traverse]
  rfl

theorem mapObjects_ordering (x : Fragment) (direction : Option String) :
    (ordering ⟨.raw x, direction⟩).mapObjects f = ordering ⟨.raw (x.mapObjects f), direction⟩ := by
  rw [mapObjects, OrderItem.traverse, Expression.traverse]
  rfl

end Clause

theorem Condition.mapObjects_mk (connective : Connective) (p : Predicate) :
    Condition.mapObjects f ⟨connective, p⟩ = ⟨connective, p.mapObjects f⟩ := by
  rw [mapObjects, traverse]
  rfl

theorem CteBody.run_traverse_raw (x : Fragment) :
    Id.run ((CteBody.raw x).traverse fun o => pure (f o)) = .raw (x.mapObjects f) := by
  rw [traverse]
  rfl

theorem Condition.IsPlace.mapObjects {put : Query → Condition} (h : IsPlace put) :
    ∃ put', IsPlace put' ∧ ∀ q, (put q).mapObjects f = put' (q.mapObjects f) := by
  cases h with
  | @test connective put hp =>
    obtain ⟨put', place, same⟩ := hp.mapObjects f
    refine ⟨fun q => ⟨connective, put' q⟩, .test place, fun q => ?_⟩
    rw [Condition.mapObjects_mk, same]

theorem CteBody.IsPlace.mapObjects {put : Query → CteBody} (h : IsPlace put) :
    ∃ put', IsPlace put' ∧
      ∀ q, Id.run ((put q).traverse fun o => pure (f o)) = put' (q.mapObjects f) := by
  cases h with
  | query => exact ⟨.query, .query, fun q => by rw [traverse]; rfl⟩
  | raw hf =>
    obtain ⟨put', place, same⟩ := hf.mapObjects f
    refine ⟨fun q => .raw (put' q), .raw place, fun q => ?_⟩
    rw [CteBody.run_traverse_raw, same]

/-- A place in a clause is one after the objects are replaced. -/
theorem Clause.IsPlace.mapObjects {enclosed : Bool} {put : Query → Clause} (h : IsPlace enclosed put) :
    ∃ put', IsPlace enclosed put' ∧ ∀ q, (put q).mapObjects f = put' (q.mapObjects f) := by
  cases h with
  | @cte name columns put isRecursive hb =>
    obtain ⟨put', place, same⟩ := hb.mapObjects f
    exact ⟨fun q => .cte ⟨name, columns, put' q, isRecursive⟩, .cte place, fun q => by
      rw [mapObjects_cte, same]⟩
  | @selectItem put label hf =>
    obtain ⟨put', place, same⟩ := hf.mapObjects f
    exact ⟨fun q => .selectItem ⟨.raw (put' q), label⟩, .selectItem place, fun q => by
      rw [mapObjects_selectItem, same]⟩
  | @source table label =>
    exact ⟨fun q => .source ⟨table, some q, label⟩, .source, mapObjects_source f table label⟩
  | @join kind label on =>
    refine ⟨fun q => .join ⟨kind, .query q, label, on.map (·.mapObjects f)⟩, .join, fun q => ?_⟩
    rw [mapObjects_join, JoinTarget.traverse]
    rfl
  | @joinCondition kind target label put written hf =>
    obtain ⟨put', place, same⟩ := hf.mapObjects f
    exact ⟨fun q => .join ⟨kind, Id.run (target.traverse fun o => pure (f o)), label, some (put' q)⟩,
      .joinCondition written place, fun q => by rw [mapObjects_join, Option.map_some, same]⟩
  | condition hc =>
    obtain ⟨put', place, same⟩ := hc.mapObjects f
    exact ⟨fun q => .condition (put' q), .condition place, fun q => by rw [Clause.mapObjects, same]⟩
  | grouping hf =>
    obtain ⟨put', place, same⟩ := hf.mapObjects f
    exact ⟨fun q => .grouping (.raw (put' q)), .grouping place, fun q => by
      rw [mapObjects_grouping, same]⟩
  | having hc =>
    obtain ⟨put', place, same⟩ := hc.mapObjects f
    exact ⟨fun q => .having (put' q), .having place, fun q => by rw [Clause.mapObjects, same]⟩
  | @setOperation operator =>
    exact ⟨fun q => .setOperation ⟨operator, q⟩, .setOperation, mapObjects_setOperation f operator⟩
  | @ordering put direction hf =>
    obtain ⟨put', place, same⟩ := hf.mapObjects f
    exact ⟨fun q => .ordering ⟨.raw (put' q), direction⟩, .ordering place, fun q => by
      rw [mapObjects_ordering, same]⟩

end SqlComposition
