import SqlComposition.Proofs.Clauses
import SqlComposition.Proofs.Shown

/-!
Changes as they are seen. Looking at the objects in a query after a change of it is the same as making the
change, with the objects in it looked at, of the query with its objects looked at.
-/

namespace SqlComposition

variable (f : Object → Object)

theorem Value.mapObjects_list (items : List Value) :
    (list items).mapObjects f = list (items.map (·.mapObjects f)) := by
  rw [mapObjects, traverse, ← run_traverseAll]
  rfl

theorem Value.mapObjects_tuple (items : List Value) :
    (tuple items).mapObjects f = tuple (items.map (·.mapObjects f)) := by
  rw [mapObjects, traverse, ← run_traverseAll]
  rfl

/-- Replaces the objects in an expression. -/
def Expression.mapObjects (e : Expression) : Expression :=
  Id.run (e.traverse fun o => pure (f o))

theorem Clause.mapObjects_item (e : Expression) (label : Option String) :
    (selectItem ⟨e, label⟩).mapObjects f = selectItem ⟨e.mapObjects f, label⟩ := by
  rw [mapObjects, SelectItem.traverse]
  rfl

theorem Clause.mapObjects_order (e : Expression) (direction : Option String) :
    (ordering ⟨e, direction⟩).mapObjects f = ordering ⟨e.mapObjects f, direction⟩ := by
  rw [mapObjects, OrderItem.traverse]
  rfl

theorem Clause.kind_mapObjects (c : Clause) : (c.mapObjects f).kind = c.kind := by
  cases c <;> rfl

theorem Edit.bound?_mapObjects (rows : Value) :
    bound? (rows.mapObjects f) = (bound? rows).map (·.mapObjects f) := by
  cases rows with
  | scalar s => cases s <;> rfl
  | list _ | tuple _ | mapping _ | fragment _ | query _ | part _ | bound _ =>
    rw [Value.mapObjects, Value.traverse]
    rfl
  | object _ => rfl

namespace Change

/-- Replaces the objects in a change. -/
def mapObjects : Change → Change
  | clause c => clause (c.mapObjects f)
  | distinct => distinct
  | limit rows => limit (rows.mapObjects f)
  | offset rows => offset (rows.mapObjects f)

theorem kind_mapObjects (c : Change) : (c.mapObjects f).kind = c.kind := by
  cases c with
  | clause c => exact c.kind_mapObjects f
  | distinct | limit _ | offset _ => rfl

theorem mapObjects_apply (c : Change) (q : Query) :
    (c.apply q).mapObjects f = (c.mapObjects f).apply (q.mapObjects f) := by
  rw [Query.mapObjects_eq f q, Query.mapObjects_eq]
  cases c with
  | clause c =>
    cases c with
    | source _ => rfl
    | setOperation s =>
      cases s
      simp only [mapObjects, Clause.mapObjects, apply, Edit.addSetOperation, List.map_append, List.map_cons,
        List.map_nil]
      rfl
    | _ =>
      simp [mapObjects, Clause.mapObjects, apply, Edit.addSelection, Edit.addCondition, Edit.addGrouping,
        Edit.addHaving, Edit.addOrdering]
  | distinct => rfl
  | limit rows => simp [mapObjects, apply, Edit.setLimit, Edit.bound?_mapObjects]
  | offset rows => simp [mapObjects, apply, Edit.setOffset, Edit.bound?_mapObjects]

theorem mapObjects_applyAll (changes : List Change) (q : Query) :
    (applyAll changes q).mapObjects f = applyAll (changes.map (mapObjects f)) (q.mapObjects f) := by
  induction changes generalizing q with
  | nil => rfl
  | cons c rest ih =>
    rw [List.map_cons, applyAll, List.foldl_cons, ← applyAll, ih, mapObjects_apply]
    rfl

/-- The change of a kind that has made a query of an empty one. -/
def found? (q : Query) : ClauseKind → Option Change
  | .ctes => q.ctes.head?.map fun c => clause (.cte c)
  | .selection => q.selection.head?.map fun item => clause (.selectItem item)
  | .distinct => some distinct
  | .source => q.source.map fun s => clause (.source s)
  | .joins => q.joins.head?.map fun j => clause (.join j)
  | .conditions => q.conditions.head?.map fun c => clause (.condition c)
  | .grouping => q.grouping.head?.map fun e => clause (.grouping e)
  | .having => q.having.head?.map fun c => clause (.having c)
  | .setOperations => q.setOperations.head?.map fun s => clause (.setOperation s)
  | .ordering => q.ordering.head?.map fun item => clause (.ordering item)
  | .limit => some (limit (q.limit.getD .null))
  | .offset => some (offset (q.offset.getD .null))

theorem found?_apply (c : Change) : found? (c.apply .empty) c.kind = some c := by
  have kept (rows : Value) : (Edit.bound? rows).getD .null = rows := by
    unfold Edit.bound?
    split <;> rfl
  cases c with
  | clause c =>
    cases c with
    | setOperation s => cases s; rfl
    | _ => rfl
  | distinct => rfl
  | limit rows => exact congrArg (some <| limit ·) (kept rows)
  | offset rows => exact congrArg (some <| offset ·) (kept rows)

/-- Of one kind, changes that do the same are the same. -/
theorem eq_of_apply_eq {c d : Change} (hk : c.kind = d.kind) (h : c.apply = d.apply) : c = d := by
  refine Option.some.inj ?_
  rw [← found?_apply c, ← found?_apply d, hk, h]

end Change

end SqlComposition
