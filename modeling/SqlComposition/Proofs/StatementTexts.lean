import SqlComposition.Proofs.LiveCells
import SqlComposition.Proofs.SharedConditions
import SqlComposition.Proofs.WritingFailures

/-!
The text of an UPDATE, put together from the texts of its parts. A cell is written as a literal, as raw text
or as a query in parentheses. Without any column there is no data to update; apart from that, the text fails
only where one of the parts fails, and parts that hold no objects never fail for want of data.
-/

namespace SqlComposition

namespace Failure

variable {α β : Type} {failure : Failure}

theorem of_map_eq_error {f : α → β} {result : Except Failure α} (h : result.map f = .error failure) :
    result = .error failure := by
  cases result with
  | error other =>
    cases h
    rfl
  | ok a => cases h

theorem of_bind_eq_error {result : Except Failure α} {next : α → Except Failure β}
    (h : (result >>= next) = .error failure) :
    result = .error failure ∨ ∃ a, result = .ok a ∧ next a = .error failure := by
  cases result with
  | error other =>
    cases h
    exact .inl rfl
  | ok a => exact .inr ⟨a, rfl, h⟩

theorem of_mapM_eq_error {f : α → Except Failure β} {items : List α}
    (h : items.mapM f = .error failure) : ∃ a ∈ items, f a = .error failure := by
  induction items with
  | nil => cases h
  | cons a rest ih =>
    rw [List.mapM_cons] at h
    rcases of_bind_eq_error h with first | ⟨b, -, h⟩
    · exact ⟨a, List.mem_cons_self, first⟩
    rcases of_bind_eq_error h with later | ⟨others, -, h⟩
    · obtain ⟨c, hc, failed⟩ := ih later
      exact ⟨c, List.mem_cons_of_mem a hc, failed⟩
    · cases h

end Failure

/-! ## Writing without regard to the count -/

namespace Writing

variable {α β : Type}

/-- The work comes to the result, whatever is counted before it and in it. -/
def Gives (work : Writing α) (result : Except Failure α) : Prop :=
  ∀ count, ∃ count', work count = ofExcept result count'

theorem Gives.outcome {work : Writing α} {result : Except Failure α} (h : work.Gives result) :
    (Writing.outcome work).1 = result := by
  obtain ⟨count, run⟩ := h 0
  rw [Writing.outcome, run]
  cases result <;> rfl

theorem gives_ofExcept (result : Except Failure α) : Gives (ofExcept result) result :=
  fun count => ⟨count, rfl⟩

theorem gives_pure (a : α) : Gives (pure a) (.ok a) :=
  gives_ofExcept (.ok a)

theorem Gives.bind {work : Writing α} {next : α → Writing β} {result : Except Failure α}
    {after : α → Except Failure β} (h : work.Gives result) (hn : ∀ a, (next a).Gives (after a)) :
    Gives (work >>= next) (result >>= after) := by
  intro count
  obtain ⟨between, run⟩ := h count
  change ∃ count', EStateM.bind work next count = _
  rw [EStateM.bind, run]
  cases result with
  | error failure => exact ⟨between, rfl⟩
  | ok a => exact hn a between

theorem Gives.mapM {work : α → Writing β} {result : α → Except Failure β} (h : ∀ a, (work a).Gives (result a))
    (items : List α) : Gives (items.mapM work) (items.mapM result) := by
  induction items with
  | nil => exact gives_pure []
  | cons a rest ih =>
    rw [List.mapM_cons, List.mapM_cons]
    exact (h a).bind fun b => ih.bind fun others => gives_pure (b :: others)

theorem gives_cell (v : Value) : Gives (Statement.cell v) (v.layout .full).inlined :=
  fun count => ⟨_, Statement.cell_run v count⟩

theorem gives_value (v : Value) : Gives v.write v.plainText :=
  fun count => ⟨count + v.sourceless, rfl⟩

theorem gives_conditions (conditions : List Condition) :
    Gives (Statement.conditionsText conditions) (Condition.clause " WHERE " conditions) :=
  Filtered.conditionsText_eq conditions

end Writing

/-! ## Cells -/

/-- The text of a cell: a fragment with its slots filled, a query in parentheses, and all else a literal. -/
def Value.cellText : Value → Except Failure String
  | .fragment f => (f.layout .full).inlined
  | .query q => q.inlined.map fun text => "(" ++ text ++ ")"
  | other => other.literal

theorem Value.inlined_layout (v : Value) : (v.layout .full).inlined = v.cellText := by
  have operand (v : Value) : (Layout.operand v).inlined = v.literal := by
    rw [Layout.inlined, Layout.pieces, Piece.inlined, Piece.inlined]
    cases v.literal <;> simp [bind, Except.bind, pure, Except.pure]
  cases v with
  | fragment f => rw [layout, cellText]
  | query q =>
    have pieces : (Layout.parenthesized q.layout).pieces = .text "(" :: (q.layout.pieces ++ [.text ")"]) := by
      simp [Layout.parenthesized, Layout.pieces]
    rw [layout, Layout.nested, Layout.inlined, pieces, Piece.inlined_text, Piece.inlined_append_eq, cellText,
      Query.inlined, Layout.inlined]
    cases Piece.inlined q.layout.pieces <;> rfl
  | scalar _ | list _ | tuple _ | mapping _ | part _ | bound _ | object _ =>
    rw [layout, operand]
    rfl

namespace Statement

/-- The text of an UPDATE, from the columns that it assigns with the contents of their cells. -/
def updateOf (table : String) (columns : List (String × Value)) (conditions : List Condition)
    (returning : List Value) : Except Failure String :=
  if columns.isEmpty then .error (.noData "update")
  else do
    let cells ← columns.mapM fun e => e.2.cellText.map fun text => e.1 ++ " = " ++ text
    let filter ← Condition.clause " WHERE " conditions
    let suffix ← returningText returning
    return "UPDATE " ++ table ++ " SET " ++ ", ".intercalate cells ++ filter ++ suffix

/-- Columns as they are kept. -/
def keyed (data : List (String × Value)) : List (Value × Value) :=
  data.map fun e => (.text e.1, e.2)

theorem gives_assignment (column : String) (content : Value) :
    (assignmentText (.text column, content)).Gives
      (content.cellText.map fun text => column ++ " = " ++ text) := by
  have cell : (cell content).Gives content.cellText :=
    content.inlined_layout ▸ Writing.gives_cell content
  have both := (Writing.gives_value (.text column)).bind fun name =>
    cell.bind fun text => Writing.gives_pure (name ++ " = " ++ text)
  rw [Value.text, Value.plainText_scalar] at both
  exact both

theorem updateText_outcome {x : Statement} {table : String} {columns : List (String × Value)}
    (ht : x.table = .text table) (ha : x.assignments = keyed columns) :
    (Writing.outcome x.updateText).1 = updateOf table columns x.conditions x.returning := by
  refine Writing.Gives.outcome ?_
  have none : x.assignments.isEmpty = columns.isEmpty := by rw [ha, keyed, List.isEmpty_map]
  have cells : (x.assignments.mapM assignmentText).Gives
      (columns.mapM fun e => e.2.cellText.map fun text => e.1 ++ " = " ++ text) := by
    rw [ha, keyed, List.mapM_map]
    exact .mapM (fun e => gives_assignment e.1 e.2) columns
  have named : x.table.write.Gives (.ok table) := by
    rw [ht]
    exact Writing.gives_value (.text table)
  rw [updateText, updateOf, none]
  cases columns.isEmpty with
  | true => exact fun count => ⟨count, rfl⟩
  | false =>
    exact cells.bind fun _ => named.bind fun _ => (Writing.gives_conditions x.conditions).bind fun _ =>
      (Writing.gives_ofExcept _).bind fun _ => Writing.gives_pure _

/-! ## Why an UPDATE cannot be written -/

/-- A part of an UPDATE that fails to be written: a cell, the conditions, or the columns to give back. -/
def PartFails (columns : List (String × Value)) (conditions : List Condition) (returning : List Value)
    (failure : Failure) : Prop :=
  (∃ e ∈ columns, e.2.cellText = .error failure) ∨
    Condition.clause " WHERE " conditions = .error failure ∨ returningText returning = .error failure

variable {table : String} {columns : List (String × Value)} {conditions : List Condition}
  {returning : List Value} {failure : Failure}

/-- With columns to assign, an UPDATE fails to be written only where a part of it does. -/
theorem of_updateOf_error (h : updateOf table columns conditions returning = .error failure) :
    (columns = [] ∧ failure = .noData "update") ∨
      (columns ≠ [] ∧ PartFails columns conditions returning failure) := by
  rw [updateOf] at h
  cases columns with
  | nil =>
    cases h
    exact .inl ⟨rfl, rfl⟩
  | cons e rest =>
    refine .inr ⟨List.cons_ne_nil e rest, ?_⟩
    rw [if_neg (by simp)] at h
    rcases Failure.of_bind_eq_error h with cells | ⟨texts, -, h⟩
    · obtain ⟨d, hd, failed⟩ := Failure.of_mapM_eq_error cells
      exact .inl ⟨d, hd, Failure.of_map_eq_error failed⟩
    rcases Failure.of_bind_eq_error h with filter | ⟨text, -, h⟩
    · exact .inr (.inl filter)
    rcases Failure.of_bind_eq_error h with suffix | ⟨text, -, h⟩
    · exact .inr (.inr suffix)
    · cases h

theorem returningText_ne_noData (returning : List Value) (operation : String) :
    returningText returning ≠ .error (.noData operation) := by
  have joined (texts : List Value) (position : Nat) :
      Value.joinTexts position texts ≠ .error (.noData operation) := by
    induction texts generalizing position with
    | nil => nofun
    | cons v rest ih =>
      unfold Value.joinTexts
      split
      · nofun
      · rename_i same
        obtain ⟨-, rfl⟩ := List.cons.inj same
        exact fun failed => ih _ (Failure.of_map_eq_error failed)
      · nofun
  cases returning with
  | nil => nofun
  | cons v rest => exact fun failed => joined _ 0 (Failure.of_map_eq_error (Failure.of_map_eq_error failed))

/-- For want of data an UPDATE fails without any column, and with columns only where what is in it does. -/
theorem updateOf_noData_iff (cells : ∀ e ∈ columns, ∀ operation, e.2.cellText ≠ .error (.noData operation))
    (filter : ∀ operation, Condition.clause " WHERE " conditions ≠ .error (.noData operation)) :
    (∃ operation, updateOf table columns conditions returning = .error (.noData operation)) ↔
      columns = [] := by
  refine ⟨fun ⟨operation, failed⟩ => ?_, fun none => ⟨"update", by rw [none]; rfl⟩⟩
  rcases of_updateOf_error failed with ⟨none, -⟩ | ⟨-, ⟨e, he, wrong⟩ | wrong | wrong⟩
  · exact none
  · exact absurd wrong (cells e he operation)
  · exact absurd wrong (filter operation)
  · exact absurd wrong (returningText_ne_noData returning operation)

/-! ## Parts without objects -/

/-- What is reached in a layout without objects fails in two ways. -/
theorem of_reached_error {layout : Layout} {reached : List Reached}
    (h : layout.operative = reached.flatMap Reached.pieces) (failed : layout.inlined = .error failure) :
    failure = .noSource ∨ failure = .beyondCalendar := by
  rw [Layout.inlined, Piece.inlined_eq_error_iff,
    Piece.findSome?_operative fun _ hp => (Piece.failures_of_not_isOperative hp).1, h,
    Reached.findSome?_flatMap Reached.findSome?_pieces] at failed
  obtain ⟨r, -, stops⟩ := List.exists_of_findSome?_eq_some failed
  rcases Reached.failure?_eq_some.1 stops with ⟨rfl, -⟩ | ⟨rfl, -⟩
  · exact .inl rfl
  · exact .inr rfl

theorem cellText_ne_noData {v : Value} (h : v.IsSettled) (operation : String) :
    v.cellText ≠ .error (.noData operation) := by
  intro failed
  rw [← v.inlined_layout] at failed
  rcases of_reached_error (v.operative_layout h) failed with wrong | wrong <;> cases wrong

theorem clause_ne_noData (h : Condition.AllSettled conditions) (word operation : String) :
    Condition.clause word conditions ≠ .error (.noData operation) := by
  intro failed
  rw [Condition.clause] at failed
  split at failed
  · cases failed
  · have reached := Grouping.operative_layout (Condition.layouts .full conditions)
    rw [Condition.operative_layouts conditions h] at reached
    rcases of_reached_error reached (Failure.of_map_eq_error failed) with wrong | wrong <;> cases wrong

end Statement

/-! ## Looking at an UPDATE -/

/-- What a value is does not depend on what the objects in it are written as. -/
theorem Value.typeName_mapObjects {f : Object → Object} (hf : ∀ o, (f o).kind = o.kind) (v : Value) :
    (v.mapObjects f).typeName = v.typeName := by
  have part (p : Part) : (Id.run (p.traverse fun o => pure (f o))).typeName = p.typeName := by
    cases p with
    | predicate x => cases x <;> rfl
    | selectItem x | source x | join x | condition x | orderItem x | cte x | setOperation x =>
      cases x
      rfl
  cases v with
  | part p => exact part p
  | object o => exact congrArg ObjectKind.typeName (hf o)
  | scalar _ | list _ | tuple _ | mapping _ | fragment _ | query _ | bound _ => rfl

namespace Statement

theorem joinTexts_mapObjects {f : Object → Object} (hf : ∀ o, (f o).kind = o.kind) (position : Nat)
    (texts : List Value) :
    Value.joinTexts position (texts.map (·.mapObjects f)) = Value.joinTexts position texts := by
  induction texts generalizing position with
  | nil => rfl
  | cons v rest ih =>
    have typed := v.typeName_mapObjects hf
    rw [List.map_cons]
    cases v with
    | scalar x =>
      cases x with
      | text s => exact congrArg (Except.map (s :: ·)) (ih (position + 1))
      | _ => rfl
    | list _ | tuple _ | mapping _ | fragment _ | query _ | bound _ | part _ | object _ =>
      exact congrArg (fun type => Except.error (Failure.notTextItem position type)) typed

theorem returningText_mapObjects {f : Object → Object} (hf : ∀ o, (f o).kind = o.kind)
    (columns : List Value) : returningText (columns.map (·.mapObjects f)) = returningText columns := by
  cases columns with
  | nil => rfl
  | cons v rest =>
    exact congrArg (fun texts => ((texts.map (", ".intercalate ·)).map (" RETURNING " ++ ·)))
      (joinTexts_mapObjects hf 0 (v :: rest))

end Statement

namespace Store

variable {s : Store} {number : Nat} {x : Statement} {table : String} {columns : List (String × Value)}

theorem kind_lookFrom (s : Store) (number : Nat) (o : Object) : (s.lookFrom number o).kind = o.kind := by
  rw [lookFrom, Object.shownBy]
  split <;> rfl

/-- Columns with the contents of their cells as they are written inside of a statement. -/
def cellsFrom (s : Store) (number : Nat) (columns : List (String × Value)) : List (String × Value) :=
  columns.map fun e => (e.1, e.2.cellBy (s.shownWithin s.contents.length [number]))

/-- An UPDATE is written with what is in its cells and its conditions as that is written then. -/
theorem rendition_update (hx : s.statement? number = some x) (hk : x.kind = .update)
    (ht : x.table = .text table) (ha : x.assignments = Statement.keyed columns) :
    (s.rendition number).text = Statement.updateOf table (s.cellsFrom number columns)
      (x.conditions.map (·.mapObjects (s.lookFrom number))) x.returning := by
  let looked := x.mapData (s.lookFrom number) (·.cellBy (s.shownWithin s.contents.length [number]))
  have shown : s.shown number = some (.statement looked) := by
    rw [Store.shown, shownWithin, if_neg (by simp), content?_of_statement? hx]
    rfl
  have named : looked.table = .text table := by
    change x.table.mapObjects _ = _
    rw [ht]
    rfl
  have cells : looked.assignments = Statement.keyed (s.cellsFrom number columns) := by
    change x.assignments.map _ = _
    rw [ha, Statement.keyed, Statement.keyed, cellsFrom, List.map_map, List.map_map]
    rfl
  have returned : Statement.returningText looked.returning = Statement.returningText x.returning :=
    Statement.returningText_mapObjects (s.kind_lookFrom number) x.returning
  have text : (s.rendition number).text = (Writing.outcome looked.updateText).1 := by
    rw [rendition, shown]
    change (Writing.outcome looked.text).1 = _
    rw [Statement.text, show looked.kind = .update from hk]
  rw [text, Statement.updateText_outcome named cells, Statement.updateOf, Statement.updateOf, returned]
  rfl

end Store

end SqlComposition
