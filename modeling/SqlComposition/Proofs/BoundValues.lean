import SqlComposition.Proofs.Presence
import SqlComposition.Proofs.Reached

/-!
The values of a text. They are found in the query at the same places whatever objects it holds, so when
others are put in the places of these, the same happens to the values; and what is bound for a query holds no
object that is not there.
-/

namespace SqlComposition
open HasObjects Layout

namespace Piece

theorem values_append (a b : List Piece) : values (a ++ b) = values a ++ values b := by
  induction a with
  | nil => rfl
  | cons piece rest ih => cases piece <;> simp [values, ih]

theorem values_operative (pieces : List Piece) : values (pieces.filter isOperative) = values pieces := by
  induction pieces with
  | nil => rfl
  | cons piece rest ih => cases piece <;> simp [values, List.filter_cons, isOperative, ih]

theorem values_flatMap (parts : List Layout) :
    values (parts.flatMap operative) = (parts.map fun layout => values layout.operative).flatten := by
  induction parts with
  | nil => rfl
  | cons part rest ih => rw [List.flatMap_cons, values_append, ih, List.map_cons, List.flatten_cons]

theorem values_plainLine (word : String) (rows : Option Value) :
    values ((plain word rows).flatMap operative) = [] := by
  cases rows with
  | none => rfl
  | some v =>
    have marks : (List.replicate v.sourceless Layout.sourceless).flatMap operative = [] :=
      List.flatMap_eq_nil_iff.2 fun layout hl => by rw [List.eq_of_mem_replicate hl]; rfl
    cases written : v.plainText <;> simp [plain, plainText, written, marks, values]

end Piece

open Piece

variable (f : Object → Object)

mutual

theorem Value.values_layout : (v : Value) →
    values ((Id.run (v.traverse fun o => pure (f o))).layout .full).operative =
      (values (v.layout .full).operative).map (·.mapObjects f)
  | .fragment x => by simp [Value.traverse, Value.layout, x.values_layout]
  | .query q => by simp [Value.traverse, Value.layout, q.values_layout]
  | .scalar _ => by simp [Value.traverse, Value.layout, values]
  | .list _ | .tuple _ | .mapping _ | .part _ | .bound _ | .object _ => by
    simp [Value.traverse, Value.layout, values, Value.mapObjects]

theorem Value.values_layouts : (items : List Value) →
    (Value.layouts .full (Id.run (Value.traverseAll (fun o => pure (f o)) items))).map
        (fun layout => values layout.operative) =
      (Value.layouts .full items).map fun layout => (values layout.operative).map (·.mapObjects f)
  | [] => by simp [Value.traverseAll, Value.layouts]
  | v :: rest => by simp [Value.traverseAll, Value.layouts, v.values_layout, Value.values_layouts rest]

theorem Fragment.values_layout : (x : Fragment) →
    values ((Id.run (x.traverse fun o => pure (f o))).layout .full).operative =
      (values (x.layout .full).operative).map (·.mapObjects f)
  | ⟨sql, bindings⟩ => by
    simp [Fragment.traverse, Fragment.layout, operative_filled, values_flatMap, Value.values_layouts bindings,
      List.map_flatten, Function.comp_def]

theorem Predicate.values_layout : (p : Predicate) →
    values ((Id.run (p.traverse fun o => pure (f o))).layout .full).operative =
      (values (p.layout .full).operative).map (·.mapObjects f)
  | .comparison _ _ v => by simp [Predicate.traverse, Predicate.layout, v.values_layout]
  | .member _ (.query q) _ => by
    simp [Predicate.traverse, Members.traverse, Predicate.layout, q.values_layout]
  | .member _ (.listed []) _ => by
    simp [Predicate.traverse, Members.traverse, Value.traverseAll, Predicate.layout, values]
  | .member _ (.listed (v :: rest)) _ => by
    simp [Predicate.traverse, Members.traverse, Value.traverseAll, Predicate.layout, values_append,
      values_flatMap, v.values_layout, Value.values_layouts rest, List.map_flatten, Function.comp_def]
  | .null _ _ => by simp [Predicate.traverse, Predicate.layout, values]
  | .between _ low high _ => by
    simp [Predicate.traverse, Predicate.layout, values_append, low.values_layout, high.values_layout]
  | .nonempty q _ => by simp [Predicate.traverse, Predicate.layout, q.values_layout]
  | .raw x => by simp [Predicate.traverse, Predicate.layout, x.values_layout]

theorem Condition.values_layouts : (conditions : List Condition) →
    values ((Condition.layouts .full
        (Id.run (Condition.traverseAll (fun o => pure (f o)) conditions))).flatMap
        fun c => c.2.operative) =
      (values ((Condition.layouts .full conditions).flatMap fun c => c.2.operative)).map (·.mapObjects f)
  | [] => by simp [Condition.traverseAll, Condition.layouts, values]
  | ⟨_, predicate⟩ :: rest => by
    simp [Condition.traverseAll, Condition.traverse, Condition.layouts, Condition.layout, values_append,
      predicate.values_layout, Condition.values_layouts rest]

theorem Expression.values_layout : (e : Expression) →
    values (Id.run (e.traverse fun o => pure (f o))).layout.operative =
      (values e.layout.operative).map (·.mapObjects f)
  | .name _ => by simp [Expression.traverse, Expression.layout, values]
  | .raw x => by simp [Expression.traverse, Expression.layout, x.values_layout]

theorem Expression.values_layouts : (items : List Expression) →
    values ((Expression.layouts (Id.run (Expression.traverseAll (fun o => pure (f o)) items))).flatMap
        operative) =
      (values ((Expression.layouts items).flatMap operative)).map (·.mapObjects f)
  | [] => by simp [Expression.traverseAll, Expression.layouts, values]
  | e :: rest => by
    simp [Expression.traverseAll, Expression.layouts, values_append, e.values_layout,
      Expression.values_layouts rest]

theorem SelectItem.values_layouts : (items : List SelectItem) →
    values ((SelectItem.layouts (Id.run (SelectItem.traverseAll (fun o => pure (f o)) items))).flatMap
        operative) =
      (values ((SelectItem.layouts items).flatMap operative)).map (·.mapObjects f)
  | [] => by simp [SelectItem.traverseAll, SelectItem.layouts, values]
  | ⟨expression, _⟩ :: rest => by
    simp [SelectItem.traverseAll, SelectItem.layouts, values_append, SelectItem.traverse, SelectItem.layout,
      expression.values_layout, SelectItem.values_layouts rest]

theorem Source.values_line : (s : Option Source) →
    values (Source.line (Id.run (Source.traverseOption (fun o => pure (f o)) s))).operative =
      (values (Source.line s).operative).map (·.mapObjects f)
  | none => by simp [Source.traverseOption, Source.line, values]
  | some ⟨_, some q, _⟩ => by
    simp [Source.traverseOption, Source.traverse, Query.traverseOption, Source.line, Source.layout,
      q.values_layout]
  | some ⟨some table, none, _⟩ => by
    by_cases empty : table = "" <;>
      simp [Source.traverseOption, Source.traverse, Query.traverseOption, Source.line, Source.layout, empty,
        values]
  | some ⟨none, none, _⟩ => by
    simp [Source.traverseOption, Source.traverse, Query.traverseOption, Source.line, Source.layout, values]

theorem JoinTarget.values_layout : (t : JoinTarget) →
    values (Id.run (t.traverse fun o => pure (f o))).layout.operative =
      (values t.layout.operative).map (·.mapObjects f)
  | .table _ => by simp [JoinTarget.traverse, JoinTarget.layout, values]
  | .query q => by simp [JoinTarget.traverse, JoinTarget.layout, q.values_layout]

theorem Join.values_layout : (j : Join) →
    values (Id.run (j.traverse fun o => pure (f o))).layout.operative =
      (values j.layout.operative).map (·.mapObjects f)
  | ⟨kind, target, _, none⟩ => by
    cases kind <;> simp [Join.traverse, Fragment.traverseOption, Join.layout, target.values_layout]
  | ⟨kind, target, _, some x⟩ => by
    cases kind <;>
      simp [Join.traverse, Fragment.traverseOption, Join.layout, values_append, target.values_layout,
        x.values_layout]

theorem Join.values_layouts : (items : List Join) →
    values ((Join.layouts (Id.run (Join.traverseAll (fun o => pure (f o)) items))).flatMap operative) =
      (values ((Join.layouts items).flatMap operative)).map (·.mapObjects f)
  | [] => by simp [Join.traverseAll, Join.layouts, values]
  | j :: rest => by
    simp [Join.traverseAll, Join.layouts, values_append, j.values_layout,
      Join.values_layouts rest]

theorem OrderItem.values_layout : (item : OrderItem) →
    values (Id.run (item.traverse fun o => pure (f o))).layout.operative =
      (values item.layout.operative).map (·.mapObjects f)
  | ⟨expression, none⟩ => by simp [OrderItem.traverse, OrderItem.layout, expression.values_layout]
  | ⟨expression, some direction⟩ => by
    by_cases empty : direction = "" <;>
      simp [OrderItem.traverse, OrderItem.layout, empty, expression.values_layout]

theorem OrderItem.values_layouts : (items : List OrderItem) →
    values ((OrderItem.layouts (Id.run (OrderItem.traverseAll (fun o => pure (f o)) items))).flatMap
        operative) =
      (values ((OrderItem.layouts items).flatMap operative)).map (·.mapObjects f)
  | [] => by simp [OrderItem.traverseAll, OrderItem.layouts, values]
  | item :: rest => by
    simp [OrderItem.traverseAll, OrderItem.layouts, values_append, item.values_layout,
      OrderItem.values_layouts rest]

theorem CteBody.values_layout : (body : CteBody) →
    values (Id.run (body.traverse fun o => pure (f o))).layout.operative =
      (values body.layout.operative).map (·.mapObjects f)
  | .query q => by simp [CteBody.traverse, CteBody.layout, q.values_layout]
  | .raw x => by simp [CteBody.traverse, CteBody.layout, x.values_layout]

theorem Cte.values_layouts : (items : List Cte) →
    values ((Cte.layouts (Id.run (Cte.traverseAll (fun o => pure (f o)) items))).flatMap operative) =
      (values ((Cte.layouts items).flatMap operative)).map (·.mapObjects f)
  | [] => by simp [Cte.traverseAll, Cte.layouts, values]
  | ⟨_, _, body, _⟩ :: rest => by
    simp [Cte.traverseAll, Cte.layouts, values_append, Cte.traverse, Cte.layout, body.values_layout,
      Cte.values_layouts rest]

theorem SetOperation.values_layouts : (items : List SetOperation) →
    values ((SetOperation.layouts (Id.run (SetOperation.traverseAll (fun o => pure (f o)) items))).flatMap
        operative) =
      (values ((SetOperation.layouts items).flatMap operative)).map (·.mapObjects f)
  | [] => by simp [SetOperation.traverseAll, SetOperation.layouts, values]
  | ⟨_, query⟩ :: rest => by
    simp [SetOperation.traverseAll, SetOperation.layouts, values_append, SetOperation.traverse,
      SetOperation.layout, query.values_layout, SetOperation.values_layouts rest]

theorem Query.values_layout : (q : Query) →
    values (Id.run (q.traverse fun o => pure (f o))).layout.operative =
      (values q.layout.operative).map (·.mapObjects f)
  | ⟨ctes, _, selection, source, joins, conditions, grouping, having, setOperations, ordering, limit,
      offset⟩ => by
    have items := SelectItem.values_layouts selection
    simp only [Query.traverse, Query.layout, Id.run_bind, Id.run_pure, operative_joined, List.flatMap_append,
      operative_clause, operative_groupedClause, List.flatMap_cons, List.flatMap_nil, operative_series,
      operative_keyword, values_append, values_plainLine, Cte.values_layouts ctes, Source.values_line source,
      Join.values_layouts joins, Condition.values_layouts conditions, Expression.values_layouts grouping,
      Condition.values_layouts having, SetOperation.values_layouts setOperations,
      OrderItem.values_layouts ordering, List.map_append]
    congr
    generalize SelectItem.layouts selection = before at items ⊢
    generalize SelectItem.layouts (Id.run (SelectItem.traverseAll _ selection)) = after at items ⊢
    cases before <;> cases after <;> simpa using items

end

/-- What is bound for a query that is there is there. -/
theorem DialectChoice.values_isPresent {choice : DialectChoice} {q : Query} {form : BoundQuery}
    (h : choice.bind q = .ok form) {count : Nat} (hq : IsPresent count q) :
    ∀ v ∈ form.values, IsPresent count v := by
  obtain ⟨d, rfl⟩ := known_of_bind h
  rw [bind_known] at h
  obtain ⟨⟨sql, listed⟩, bound, rfl⟩ := Failure.of_map_eq_ok h
  have all : listed = values q.layout.operative := by
    rw [Layout.operative, values_operative]
    have woven := Piece.bound_of_sound (Piece.sound_of_bound bound) d.placeholder 0
    exact congrArg Prod.snd (Except.ok.inj (bound.symm.trans woven))
  rw [all]
  intro v hv f g same
  have mapped := congrArg (fun q : Query => values q.layout.operative) (hq f g same)
  exact List.map_inj_left.1 ((q.values_layout f).symm.trans (mapped.trans (q.values_layout g))) v hv

end SqlComposition
