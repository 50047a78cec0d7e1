import SqlComposition.Statement
import SqlComposition.Proofs.Grouping
import Mathlib.Tactic.Common

/-!
What is rendered is the layout, piece by piece. Every builder of a clause renders the parts of its clause
in the order in which they stand in the text, whatever is done with the plain values in them.
-/

namespace SqlComposition

open Rendering

variable (plainValue : Value → Rendering String)

namespace Piece

/-- Pieces written from left to right. -/
def emit : List Piece → Rendering String
  | [] => return ""
  | text s :: rest => do return s ++ (← emit rest)
  | value v :: rest => do
    let text ← plainValue v
    return text ++ (← emit rest)
  | sourceless :: rest => do
    note 1
    emit rest
  | failed failure :: _ => throw failure

theorem emit_append (a b : List Piece) :
    emit plainValue (a ++ b) = (do
      let front ← emit plainValue a
      return front ++ (← emit plainValue b)) := by
  induction a with
  | nil => simp only [List.nil_append, emit, pure_bind, String.empty_append, bind_pure]
  | cons piece rest ih =>
    cases piece with
    | text s => simp only [List.cons_append, emit, ih, pure_bind, bind_assoc, String.append_assoc]
    | value v => simp only [List.cons_append, emit, ih, pure_bind, bind_assoc, String.append_assoc]
    | sourceless => simp only [List.cons_append, emit, ih, bind_assoc]
    | failed failure => rfl

end Piece

/-- Texts that are joined already, among others. -/
theorem intercalate_joined (separator : String) (before after : List String) {texts : List String}
    (h : texts ≠ []) :
    separator.intercalate (before ++ (separator.intercalate texts :: after)) =
      separator.intercalate (before ++ (texts ++ after)) := by
  have behind : separator.intercalate (separator.intercalate texts :: after) =
      separator.intercalate (texts ++ after) := by
    cases after with
    | nil => rw [String.intercalate_singleton, List.append_nil]
    | cons next later =>
      rw [String.intercalate_cons_cons, String.intercalate_append_of_ne_nil h (List.cons_ne_nil _ _)]
  cases before with
  | nil => exact behind
  | cons first others =>
    rw [String.intercalate_append_of_ne_nil (List.cons_ne_nil _ _) (List.cons_ne_nil _ _), behind,
      String.intercalate_append_of_ne_nil (List.cons_ne_nil _ _) (by simp [h])]

namespace Layout

def emit (layout : Layout) : Rendering String :=
  Piece.emit plainValue layout.pieces

@[simp] theorem emit_keyword (s : String) : (keyword s).emit plainValue = pure s := by
  simp [emit, pieces, Piece.emit]

@[simp] theorem emit_verbatim (s : String) : (verbatim s).emit plainValue = pure s := by
  simp [emit, pieces, Piece.emit]

@[simp] theorem emit_operand (v : Value) : (operand v).emit plainValue = plainValue v := by
  simp [emit, pieces, Piece.emit]

@[simp] theorem emit_sourceless : sourceless.emit plainValue = (do note 1; return "") := rfl

@[simp] theorem emit_failed (failure : Failure) : (failed failure).emit plainValue = throw failure := rfl

@[simp] theorem emit_series_nil : (series []).emit plainValue = pure "" := rfl

@[simp] theorem emit_series_cons (part : Layout) (rest : List Layout) :
    (series (part :: rest)).emit plainValue = (do
      let front ← part.emit plainValue
      return front ++ (← (series rest).emit plainValue)) := by
  simp only [emit, pieces, piecesOfAll, Piece.emit_append]

@[simp] theorem emit_joined (separator : String) : (parts : List Layout) →
    (joined separator parts).emit plainValue =
      (do return separator.intercalate (← parts.mapM (emit plainValue)))
  | [] => rfl
  | [only] => by
    simp only [joined, separated, emit_series_cons, emit_series_nil, pure_bind, String.append_empty,
      List.mapM_cons, List.mapM_nil, bind_assoc, String.intercalate_singleton]
  | first :: second :: rest => by
    have later := emit_joined separator (second :: rest)
    rw [joined] at later ⊢
    rw [separated, emit_series_cons, emit_series_cons, later]
    · simp only [emit_keyword, pure_bind, List.mapM_cons, bind_assoc, String.intercalate_cons_cons,
        String.append_assoc]
    · exact List.cons_ne_nil _ _

@[simp] theorem emit_parenthesized (inner : Layout) :
    (parenthesized inner).emit plainValue = (do return "(" ++ (← inner.emit plainValue) ++ ")") := by
  simp only [parenthesized, emit_series_cons, emit_series_nil, emit_keyword, pure_bind, bind_assoc,
    String.append_empty, String.append_assoc]

@[simp] theorem emit_nested (nesting : Nesting) (inner : Layout) :
    (nested nesting inner).emit plainValue = Rendering.nested nesting (inner.emit plainValue) := by
  cases nesting with
  | full => exact emit_parenthesized plainValue inner
  | fixed text => simp only [nested, Rendering.nested, emit_parenthesized, emit_verbatim, pure_bind]
  | unavailable => rfl

@[simp] theorem emit_negation (negated : Bool) (yes no : String) :
    (negation negated yes no).emit plainValue = pure (if negated then yes else no) :=
  emit_keyword plainValue _

@[simp] theorem emit_aliased (inner : Layout) (label : Option String) :
    (aliased inner label).emit plainValue =
      (do return Line.aliased (← inner.emit plainValue) label) := by
  cases label with
  | none => simp only [aliased, Line.aliased, bind_pure]
  | some label =>
    rw [aliased]
    split
    · rename_i empty
      simp only [Line.aliased, if_pos empty, bind_pure]
    · rename_i more
      simp only [emit_series_cons, emit_series_nil, emit_keyword, emit_verbatim, pure_bind,
        Line.aliased, if_neg more, String.append_empty, String.append_assoc]

@[simp] theorem mapM_emit_verbatim (names : List String) :
    (names.map verbatim).mapM (emit plainValue) = pure names := by
  induction names with
  | nil => rfl
  | cons name rest ih => simp only [List.map_cons, List.mapM_cons, emit_verbatim, ih, pure_bind]

@[simp] theorem emit_columnList (columns : Option (List String)) :
    (columnList columns).emit plainValue = pure (Line.columnList columns) := by
  match columns with
  | none => rfl
  | some [] => rfl
  | some (name :: others) =>
    simp only [columnList, Line.columnList, emit_series_cons, emit_series_nil, emit_keyword,
      emit_parenthesized, emit_joined, mapM_emit_verbatim, pure_bind, String.append_empty,
      ← String.append_assoc]
    rfl

theorem emit_marks (count : Nat) (rest : List Layout) :
    (series (List.replicate count sourceless ++ rest)).emit plainValue = (do
      note count
      (series rest).emit plainValue) := by
  induction count with
  | zero => rfl
  | succ count ih =>
    have together : (do note 1; note count) = note (count + 1) := by
      funext r
      have total : r.sourceless + 1 + count = r.sourceless + (count + 1) := by omega
      exact congrArg (fun total => EStateM.Result.ok () { r with sourceless := total }) total
    simp only [List.replicate_succ, List.cons_append, emit_series_cons, emit_sourceless, ih, pure_bind,
      bind_assoc, String.empty_append, bind_pure, ← together]

@[simp] theorem mapM_emit_plain (word : String) (value : Option Value) :
    (plain word value).mapM (emit plainValue) = Rendering.plain word value := by
  cases value with
  | none => rfl
  | some v =>
    rw [plain, Rendering.plain, plainText]
    simp only [List.mapM_cons, List.mapM_nil, emit_series_cons, emit_series_nil, emit_keyword, emit_marks,
      pure_bind, bind_assoc, String.append_empty]
    cases v.plainText <;> simp [Rendering.ofExcept]

/-- A list of parts makes a clause when it is not empty. -/
@[simp] theorem mapM_emit_clause (word separator : String) (parts : List Layout) :
    (clause word separator parts).mapM (emit plainValue) =
      (do return Line.clause word separator (← parts.mapM (emit plainValue))) := by
  cases parts with
  | nil => rfl
  | cons first rest =>
    simp only [clause, Line.clause, List.mapM_cons, List.mapM_nil, emit_series_cons, emit_series_nil,
      emit_keyword, emit_joined, pure_bind, bind_assoc, String.append_empty]

def emitCondition (condition : Connective × Layout) : Rendering (String × String) := do
  return (condition.1.keyword, ← condition.2.emit plainValue)

theorem emit_grouping (conditions : List (Connective × Layout)) :
    (Grouping.layout conditions).emit plainValue =
      (do return Grouping.text (← conditions.mapM (emitCondition plainValue))) := by
  have joins (connective : String) (parts : List Layout) :
      (parenthesized (joined connective parts)).emit plainValue =
        (fun texts => "(" ++ connective.intercalate texts ++ ")") <$> parts.mapM (emit plainValue) := by
    simp only [emit_parenthesized, emit_joined, bind_assoc, pure_bind, map_eq_pure_bind]
  have opened : Grouping.traverse (emit plainValue) (conditions.map fun c => (c.1 == .or, c.2)) =
      List.map (fun c => (c.1 == Connective.or.keyword, c.2)) <$>
        conditions.mapM (emitCondition plainValue) := by
    induction conditions with
    | nil => simp [Grouping.traverse]
    | cons c rest ih =>
      have same : (c.1.keyword == Connective.or.keyword) = (c.1 == .or) := by
        cases c.1 <;> rfl
      rw [Grouping.traverse] at ih
      simp only [Grouping.traverse, List.map_cons, List.mapM_cons, emitCondition, ih, map_eq_pure_bind,
        bind_assoc, pure_bind, same]
  have whole (layout? : Option Layout) : (layout?.getD (series [])).emit plainValue =
      (fun text? => text?.getD "") <$> layout?.mapM (emit plainValue) := by
    cases layout? <;> simp
  rw [Grouping.layout, whole, Grouping.assemble_mapM joins, opened, Functor.map_map, Functor.map_map,
    map_eq_pure_bind]
  rfl

@[simp] theorem mapM_emit_groupedClause (word : String) (conditions : List (Connective × Layout)) :
    (groupedClause word conditions).mapM (emit plainValue) =
      (do return Line.grouped word (← conditions.mapM (emitCondition plainValue))) := by
  cases conditions with
  | nil => rfl
  | cons first rest =>
    simp only [groupedClause, Line.grouped, List.mapM_cons, List.mapM_nil, emit_series_cons, emit_series_nil,
      emit_keyword, emit_grouping, pure_bind, bind_assoc, String.append_empty]

theorem emit_unfilled (segments : List (List Char)) :
    Piece.emit plainValue (fill .text segments []) =
      pure (String.ofList (['?'].intercalate segments)) := by
  induction segments with
  | nil => rfl
  | cons segment rest ih =>
    cases rest with
    | nil => simp [fill, Piece.emit, List.intercalate]
    | cons next later =>
      have front : ['?'].intercalate (segment :: next :: later) =
          segment ++ '?' :: ['?'].intercalate (next :: later) := by
        simp [List.intercalate, List.intersperse]
      have mark : String.ofList ('?' :: ['?'].intercalate (next :: later)) =
          "?" ++ String.ofList (['?'].intercalate (next :: later)) := by
        rw [← List.singleton_append, String.ofList_append]
      simp only [fill, Piece.emit, ih, pure_bind, front, String.ofList_append, mark]

end Layout

open Layout

mutual

theorem Value.render_eq (nesting : Nesting) : (v : Value) →
    v.render plainValue nesting = (v.layout nesting).emit plainValue
  | .fragment f => by
    rw [Value.render, Value.layout, f.render_eq nesting]
  | .query q => by
    rw [Value.render, Value.layout, emit_nested, q.render_eq]
  | .scalar _ | .list _ | .tuple _ | .mapping _ | .part _ | .bound _ | .object _ => by
    rw [Value.render, Value.layout, emit_operand]

theorem Value.renderEach_eq (nesting : Nesting) : (values : List Value) →
    Value.renderEach plainValue nesting values = (Value.layouts nesting values).mapM (emit plainValue)
  | [] => by
    rw [Value.renderEach, Value.layouts, List.mapM_nil]
  | v :: rest => by
    rw [Value.renderEach, Value.layouts, List.mapM_cons, v.render_eq nesting,
      Value.renderEach_eq nesting rest]

theorem Value.renderInto_eq (nesting : Nesting) : (values : List Value) → (segments : List (List Char)) →
    Value.renderInto plainValue nesting values segments =
      Piece.emit plainValue (fill .text segments (piecesOfEach (Value.layouts nesting values)))
  | [], segments => by
    rw [Value.renderInto, Value.layouts, piecesOfEach, emit_unfilled]
  | _ :: _, [] => by
    rw [Value.renderInto, fill, Piece.emit]
  | _ :: _, [last] => by
    simp only [Value.renderInto, fill, Piece.emit, pure_bind, String.append_empty]
  | v :: rest, segment :: next :: later => by
    have slot : Piece.emit plainValue (v.layout nesting).pieces = v.render plainValue nesting :=
      (v.render_eq nesting).symm
    simp only [Value.renderInto, Value.layouts, piecesOfEach, fill, Piece.emit, Piece.emit_append, slot,
      ← Value.renderInto_eq nesting rest, bind_assoc, pure_bind]

theorem Fragment.render_eq (nesting : Nesting) : (f : Fragment) →
    f.render plainValue nesting = (f.layout nesting).emit plainValue
  | ⟨sql, bindings⟩ => by
    rw [Fragment.layout, emit, pieces, ← Value.renderInto_eq nesting bindings, Fragment.render]
    split
    · rename_i empty
      rw [List.isEmpty_iff.1 empty, Value.renderInto, Slot.intercalate_segments, String.ofList_toList]
    · rfl

theorem Predicate.render_eq (nesting : Nesting) : (x : Predicate) →
    x.render plainValue nesting = (x.layout nesting).emit plainValue
  | .comparison column operator value => by
    simp only [Predicate.render, Predicate.layout, emit_series_cons, emit_series_nil, emit_verbatim,
      emit_keyword, ← value.render_eq nesting, pure_bind, bind_assoc, String.append_empty,
      String.append_assoc]
  | .member column (.query q) negated => by
    simp only [Predicate.render, Predicate.layout, emit_series_cons, emit_series_nil, emit_verbatim,
      emit_negation, emit_nested, ← q.render_eq, pure_bind, bind_assoc, String.append_empty,
      String.append_assoc]
  | .member _ (.listed []) negated => by
    rw [Predicate.render, Predicate.layout, emit_negation]
  | .member column (.listed (v :: rest)) negated => by
    simp only [Predicate.render, Predicate.layout, emit_series_cons, emit_series_nil, emit_verbatim,
      emit_negation, emit_parenthesized, emit_joined, List.mapM_cons, ← v.render_eq nesting,
      ← Value.renderEach_eq nesting rest, pure_bind, bind_assoc, String.append_empty, String.append_assoc]
  | .null column negated => by
    simp only [Predicate.render, Predicate.layout, emit_series_cons, emit_series_nil, emit_verbatim,
      emit_negation, pure_bind, String.append_empty]
  | .between column low high negated => by
    simp only [Predicate.render, Predicate.layout, emit_series_cons, emit_series_nil, emit_verbatim,
      emit_negation, emit_keyword, ← low.render_eq nesting, ← high.render_eq nesting, pure_bind, bind_assoc,
      String.append_empty, String.append_assoc]
  | .nonempty q negated => by
    simp only [Predicate.render, Predicate.layout, emit_series_cons, emit_series_nil, emit_negation,
      emit_nested, ← q.render_eq, pure_bind, bind_assoc, String.append_empty]
  | .raw fragment => by
    rw [Predicate.render, Predicate.layout, fragment.render_eq nesting]

theorem Condition.render_eq (nesting : Nesting) : (c : Condition) →
    c.render plainValue nesting = emitCondition plainValue (c.layout nesting)
  | ⟨_, predicate⟩ => by
    rw [Condition.render, Condition.layout, emitCondition, predicate.render_eq nesting]

theorem Condition.renderEach_eq (nesting : Nesting) : (conditions : List Condition) →
    Condition.renderEach plainValue nesting conditions =
      (Condition.layouts nesting conditions).mapM (emitCondition plainValue)
  | [] => by
    rw [Condition.renderEach, Condition.layouts, List.mapM_nil]
  | c :: rest => by
    rw [Condition.renderEach, Condition.layouts, List.mapM_cons, c.render_eq nesting,
      Condition.renderEach_eq nesting rest]

theorem Expression.render_eq : (e : Expression) → e.render plainValue = e.layout.emit plainValue
  | .name text => by
    rw [Expression.render, Expression.layout, emit_verbatim]
  | .raw fragment => by
    rw [Expression.render, Expression.layout, fragment.render_eq .full]

theorem Expression.renderEach_eq : (expressions : List Expression) →
    Expression.renderEach plainValue expressions = (Expression.layouts expressions).mapM (emit plainValue)
  | [] => by
    rw [Expression.renderEach, Expression.layouts, List.mapM_nil]
  | e :: rest => by
    rw [Expression.renderEach, Expression.layouts, List.mapM_cons, e.render_eq, Expression.renderEach_eq rest]

theorem SelectItem.render_eq : (item : SelectItem) → item.render plainValue = item.layout.emit plainValue
  | ⟨expression, label⟩ => by
    rw [SelectItem.render, SelectItem.layout, emit_aliased, expression.render_eq]

theorem SelectItem.renderEach_eq : (items : List SelectItem) →
    SelectItem.renderEach plainValue items = (SelectItem.layouts items).mapM (emit plainValue)
  | [] => by
    rw [SelectItem.renderEach, SelectItem.layouts, List.mapM_nil]
  | item :: rest => by
    rw [SelectItem.renderEach, SelectItem.layouts, List.mapM_cons, item.render_eq,
      SelectItem.renderEach_eq rest]

theorem Source.render_eq : (s : Source) → s.render plainValue = s.layout.emit plainValue
  | ⟨_, some q, label⟩ => by
    simp only [Source.render, Source.layout, emit_aliased, emit_parenthesized, q.render_eq, bind_assoc,
      pure_bind]
  | ⟨some table, none, label⟩ => by
    rw [Source.render, Source.layout]
    split
    · rfl
    · rw [emit_aliased, emit_verbatim, pure_bind]
  | ⟨none, none, _⟩ => by
    rw [Source.render, Source.layout, emit_failed]

/-- The FROM line stands behind the selection, on a line of its own. -/
theorem Source.emit_behind (word : String) (selected : Layout) : (source : Option Source) →
    (series [keyword word, selected, Source.line source]).emit plainValue = (do
      let items ← selected.emit plainValue
      return "\n".intercalate ((word ++ items) :: (← Source.renderLine plainValue source)))
  | none => by
    simp only [Source.line, Source.renderLine, emit_series_cons, emit_series_nil, emit_keyword,
      emit_sourceless, bind_assoc, pure_bind, String.append_empty, String.intercalate_singleton]
  | some s => by
    have lines (opening text : String) :
        "\n".intercalate [opening, "FROM " ++ text] = opening ++ ("\nFROM " ++ text) := by
      have word : "\nFROM " = "\n" ++ "FROM " := rfl
      rw [String.intercalate_cons_cons, String.intercalate_singleton, word, String.append_assoc,
        String.append_assoc]
    simp only [Source.line, Source.renderLine, emit_series_cons, emit_series_nil, emit_keyword,
      ← s.render_eq, bind_assoc, pure_bind, String.append_empty, lines, String.append_assoc]

theorem JoinTarget.render_eq : (t : JoinTarget) → t.render plainValue = t.layout.emit plainValue
  | .table name => by
    rw [JoinTarget.render, JoinTarget.layout, emit_verbatim]
  | .query q => by
    rw [JoinTarget.render, JoinTarget.layout, emit_parenthesized, q.render_eq]

theorem Join.render_eq : (j : Join) → j.render plainValue = j.layout.emit plainValue
  | ⟨kind, target, label, none⟩ => by
    cases kind <;>
      simp only [Join.render, Join.renderCondition, Join.layout, emit_series_cons, emit_series_nil,
        emit_keyword, emit_aliased, ← target.render_eq, pure_bind, bind_assoc, String.append_empty]
  | ⟨.cross, target, label, some _⟩ => by
    simp only [Join.render, Join.renderCondition, Join.layout, emit_series_cons, emit_series_nil,
      emit_keyword, emit_aliased, ← target.render_eq, if_true, pure_bind, bind_assoc, String.append_empty]
  | ⟨.inner, target, label, some fragment⟩ | ⟨.left, target, label, some fragment⟩
  | ⟨.right, target, label, some fragment⟩ | ⟨.full, target, label, some fragment⟩ => by
    simp only [Join.render, Join.renderCondition, Join.layout, emit_series_cons, emit_series_nil,
      emit_keyword, emit_aliased, ← target.render_eq, ← fragment.render_eq .full, reduceCtorEq, if_false,
      pure_bind, bind_assoc, String.append_empty, String.append_assoc]

theorem Join.renderEach_eq : (joins : List Join) →
    Join.renderEach plainValue joins = (Join.layouts joins).mapM (emit plainValue)
  | [] => by
    rw [Join.renderEach, Join.layouts, List.mapM_nil]
  | j :: rest => by
    rw [Join.renderEach, Join.layouts, List.mapM_cons, j.render_eq, Join.renderEach_eq rest]

theorem OrderItem.render_eq : (item : OrderItem) → item.render plainValue = item.layout.emit plainValue
  | ⟨expression, none⟩ => by
    rw [OrderItem.render, OrderItem.layout, expression.render_eq]
    exact bind_pure _
  | ⟨expression, some direction⟩ => by
    rw [OrderItem.render, OrderItem.layout, expression.render_eq]
    by_cases empty : direction = ""
    · simp only [if_pos empty, bind_pure]
    · simp only [if_neg empty, emit_series_cons, emit_series_nil, emit_keyword, emit_verbatim, pure_bind,
        String.append_empty, String.append_assoc]

theorem OrderItem.renderEach_eq : (items : List OrderItem) →
    OrderItem.renderEach plainValue items = (OrderItem.layouts items).mapM (emit plainValue)
  | [] => by
    rw [OrderItem.renderEach, OrderItem.layouts, List.mapM_nil]
  | item :: rest => by
    rw [OrderItem.renderEach, OrderItem.layouts, List.mapM_cons, item.render_eq, OrderItem.renderEach_eq rest]

theorem CteBody.render_eq : (body : CteBody) → body.render plainValue = body.layout.emit plainValue
  | .query q => by
    rw [CteBody.render, CteBody.layout, q.render_eq]
  | .raw fragment => by
    rw [CteBody.render, CteBody.layout, fragment.render_eq .full]

theorem Cte.render_eq : (c : Cte) → c.render plainValue = c.layout.emit plainValue
  | ⟨name, columns, body, _⟩ => by
    have opening : " AS (" = " AS " ++ "(" := rfl
    simp only [Cte.render, opening, Cte.layout, emit_series_cons, emit_series_nil, emit_keyword,
      emit_verbatim, emit_columnList, emit_parenthesized, ← body.render_eq, pure_bind, bind_assoc,
      String.append_empty, String.append_assoc]

theorem Cte.renderEach_eq : (ctes : List Cte) →
    Cte.renderEach plainValue ctes = (Cte.layouts ctes).mapM (emit plainValue)
  | [] => by
    rw [Cte.renderEach, Cte.layouts, List.mapM_nil]
  | c :: rest => by
    rw [Cte.renderEach, Cte.layouts, List.mapM_cons, c.render_eq, Cte.renderEach_eq rest]

theorem SetOperation.render_eq : (s : SetOperation) → s.render plainValue = s.layout.emit plainValue
  | ⟨operator, query⟩ => by
    simp only [SetOperation.render, SetOperation.layout, emit_series_cons, emit_series_nil, emit_keyword,
      ← query.render_eq, pure_bind, bind_assoc, String.append_empty]

theorem SetOperation.renderEach_eq : (members : List SetOperation) →
    SetOperation.renderEach plainValue members = (SetOperation.layouts members).mapM (emit plainValue)
  | [] => by
    rw [SetOperation.renderEach, SetOperation.layouts, List.mapM_nil]
  | s :: rest => by
    rw [SetOperation.renderEach, SetOperation.layouts, List.mapM_cons, s.render_eq,
      SetOperation.renderEach_eq rest]

/-- The clauses of a query are rendered in the order of its layout. -/
theorem Query.render_eq : (q : Query) → q.render plainValue = q.layout.emit plainValue
  | ⟨ctes, distinct, selection, source, joins, conditions, grouping, having, setOperations, ordering,
      limit, offset⟩ => by
    simp only [Query.render, Query.layout, emit_joined, List.mapM_append, List.mapM_cons,
      mapM_emit_clause, mapM_emit_groupedClause, mapM_emit_plain, Source.emit_behind _ _ source,
      Cte.renderEach_eq ctes, SelectItem.renderEach_eq selection, Join.renderEach_eq joins,
      Condition.renderEach_eq .full conditions, Expression.renderEach_eq grouping,
      Condition.renderEach_eq .full having, SetOperation.renderEach_eq setOperations,
      OrderItem.renderEach_eq ordering, bind_assoc, pure_bind, List.append_assoc, List.cons_append,
      List.nil_append, intercalate_joined _ _ _ (List.cons_ne_nil _ _), Line.selection]
    cases SelectItem.layouts selection with
    | nil => simp only [List.mapM_nil, emit_keyword, pure_bind, List.isEmpty_nil, if_true]
    | cons first rest =>
      simp only [emit_joined, List.mapM_cons, bind_assoc, pure_bind, List.isEmpty_cons, Bool.false_eq_true,
        if_false]

end

namespace Rendering

def result {α : Type} (text : Except Failure α) (r : Runtime) : EStateM.Result Failure Runtime α :=
  match text with
  | .ok a => .ok a r
  | .error failure => .error failure r

section Steps

variable {α β : Type} {work : Rendering α} {r r' : Runtime} (next : α → Rendering β)

theorem bind_ok {a : α} (h : work r = .ok a r') : (work >>= next) r = next a r' := by
  change EStateM.bind work next r = _
  simp only [EStateM.bind, h]

theorem bind_error {failure : Failure} (h : work r = .error failure r') :
    (work >>= next) r = .error failure r' := by
  change EStateM.bind work next r = _
  simp only [EStateM.bind, h]

theorem map_result {f : α → β} {text : Except Failure α} (h : work r = result text r') :
    (do return f (← work)) r = result (text.map f) r' := by
  cases text with
  | ok a => exact bind_ok _ h
  | error failure => exact bind_error _ h

end Steps

theorem note_run (sourceless : Nat) (r : Runtime) :
    note sourceless r = .ok () { r with sourceless := r.sourceless + sourceless } := rfl

theorem format_run (v : Value) (r : Runtime) :
    format v r = result v.literal { r with sourceless := r.sourceless + v.sourceless } := by
  rw [format, bind_ok _ (note_run v.sourceless r)]
  cases v.literal <;> rfl

/-- A value gets the position after those bound before. -/
theorem bindValue_run (placeholder : Nat → Except Failure String) (v : Value) (r : Runtime) :
    bindValue placeholder v r =
      result (placeholder (r.bindings.length + 1)) { r with bindings := r.bindings ++ [v] } := by
  have added : addValue v r = .ok (r.bindings.length + 1) { r with bindings := r.bindings ++ [v] } := by
    have total : (r.bindings ++ [v]).length = r.bindings.length + 1 := List.length_append
    rw [← total]
    rfl
  rw [bindValue, bind_ok _ added]
  cases placeholder (r.bindings.length + 1) <;> rfl

end Rendering

namespace Piece

open Rendering

/-- The formatter writes the inlined text. -/
theorem emit_format (pieces : List Piece) (r : Runtime) :
    emit format pieces r =
      result (inlined pieces) { r with sourceless := r.sourceless + sourcelessInlined pieces } := by
  induction pieces generalizing r with
  | nil => rfl
  | cons piece rest ih =>
    cases piece with
    | text s =>
      rw [emit, map_result (ih r), inlined_text]
      rfl
    | value v =>
      have first := format_run v r
      cases h : v.literal with
      | error failure =>
        rw [h] at first
        rw [emit, bind_error _ first, inlined, sourcelessInlined, h]
        rfl
      | ok literal =>
        rw [h] at first
        rw [emit, bind_ok _ first, map_result (ih _), inlined, sourcelessInlined, h, Nat.add_assoc]
        cases inlined rest <;> rfl
    | sourceless =>
      rw [emit, bind_ok _ (note_run 1 r), ih, inlined, sourcelessInlined, Nat.add_assoc, Nat.add_comm 1]
    | failed failure => rfl

/-- The binder writes the bound text, with placeholders that go on from the values bound before, and
adds its values to them. -/
theorem emit_bindValue (placeholder : Nat → String) (pieces : List Piece) (r : Runtime) :
    emit (bindValue fun position => .ok (placeholder position)) pieces r =
      result ((bound placeholder r.bindings.length pieces).map Prod.fst)
        { bindings := r.bindings ++ valuesReached pieces
          sourceless := r.sourceless + sourcelessBound pieces } := by
  induction pieces generalizing r with
  | nil => simp only [emit, bound, valuesReached, sourcelessBound, List.append_nil]; rfl
  | cons piece rest ih =>
    cases piece with
    | text s =>
      rw [emit, map_result (ih r), bound]
      cases bound placeholder r.bindings.length rest <;> rfl
    | value v =>
      rw [emit, bind_ok _ (bindValue_run _ v r), map_result (ih _), bound, valuesReached, sourcelessBound,
        List.length_append, List.append_assoc]
      cases h : bound placeholder (r.bindings.length + 1) rest <;>
        simp [bind, Except.bind, Except.map, pure, Except.pure]
    | sourceless =>
      rw [emit, bind_ok _ (note_run 1 r), ih, bound, valuesReached, sourcelessBound, Nat.add_assoc,
        Nat.add_comm 1]
    | failed failure =>
      simp only [emit, bound, valuesReached, sourcelessBound, List.append_nil]
      rfl

theorem valuesReached_of_bound {placeholder : Nat → String} {count : Nat} {pieces : List Piece}
    {form : String × List Value} (h : bound placeholder count pieces = .ok form) :
    valuesReached pieces = form.2 := by
  induction pieces generalizing count form with
  | nil =>
    cases h
    rfl
  | cons piece rest ih =>
    cases piece with
    | text s =>
      rw [bound] at h
      cases ht : bound placeholder count rest with
      | error failure => simp [ht, Bind.bind, Except.bind] at h
      | ok tail =>
        simp only [ht, Bind.bind, Except.bind, pure, Except.pure, Except.ok.injEq] at h
        rw [valuesReached, ih ht, ← h]
    | value v =>
      rw [bound] at h
      cases ht : bound placeholder (count + 1) rest with
      | error failure => simp [ht, Bind.bind, Except.bind] at h
      | ok tail =>
        simp only [ht, Bind.bind, Except.bind, pure, Except.pure, Except.ok.injEq] at h
        rw [valuesReached, ih ht, ← h]
    | sourceless => exact ih h
    | failed failure => cases h

end Piece

theorem Query.render_format (q : Query) (r : Runtime) :
    q.render format r =
      result q.inlined { r with sourceless := r.sourceless + Piece.sourcelessInlined q.layout.pieces } := by
  rw [q.render_eq]
  exact Piece.emit_format q.layout.pieces r

/-- Rendering with the binder gives the bound text from any list of values. -/
theorem Query.render_bindValue (q : Query) (placeholder : Nat → String) (r : Runtime) :
    q.render (bindValue fun position => .ok (placeholder position)) r =
      result ((Piece.bound placeholder r.bindings.length q.layout.pieces).map Prod.fst)
        { bindings := r.bindings ++ Piece.valuesReached q.layout.pieces
          sourceless := r.sourceless + Piece.sourcelessBound q.layout.pieces } := by
  rw [q.render_eq]
  exact Piece.emit_bindValue placeholder q.layout.pieces r

theorem Query.rendition_eq (q : Query) :
    q.rendition = ⟨q.inlined, Piece.sourcelessInlined q.layout.pieces⟩ := by
  rw [rendition, outcome, q.render_format, Nat.zero_add]
  cases q.inlined <;> rfl

namespace DialectChoice

theorem bind_known (d : Dialect) (q : Query) :
    (known d).bind q = (q.bound d.placeholder).map fun (sql, values) => ⟨sql, values, d.name⟩ := by
  have rendered : q.render (bindValue (known d).placeholder) {} = _ := q.render_bindValue d.placeholder {}
  rw [List.length_nil, List.nil_append] at rendered
  rw [bind, outcome, render]
  cases h : q.bound d.placeholder with
  | error failure =>
    rw [Query.bound, Layout.bound] at h
    rw [h] at rendered
    rw [bind_error _ rendered]
    rfl
  | ok form =>
    rw [Query.bound, Layout.bound] at h
    rw [h] at rendered
    rw [bind_ok _ rendered, Piece.valuesReached_of_bound h]
    rfl

theorem known_of_bind {choice : DialectChoice} {q : Query} {form : BoundQuery}
    (h : choice.bind q = .ok form) : ∃ d, choice = known d := by
  cases choice with
  | known d => exact ⟨d, rfl⟩
  | unusable type =>
    rw [bind, outcome, render] at h
    cases rendered : q.render (bindValue (unusable type).placeholder) {} with
    | error failure r =>
      rw [bind_error _ rendered] at h
      cases h
    | ok text r =>
      rw [bind_ok _ rendered] at h
      cases h

end DialectChoice

namespace Statement

theorem rendered_run {work : Rendering String} {layout : Layout} (h : work = layout.emit format)
    (count : Nat) :
    rendered work count =
      Writing.ofExcept layout.inlined (count + Piece.sourcelessInlined layout.pieces) := by
  have run : work {} = _ := (congrFun h {}).trans (Piece.emit_format layout.pieces {})
  rw [rendered, outcome, run, Nat.zero_add, Layout.inlined]
  cases Piece.inlined layout.pieces <;> rfl

theorem cell_run (v : Value) (count : Nat) :
    cell v count = Writing.ofExcept (v.layout .full).inlined
      (count + Piece.sourcelessInlined (v.layout .full).pieces) :=
  rendered_run (v.render_eq format .full) count

theorem conditionsText_run (c : Condition) (rest : List Condition) (count : Nat) :
    let layout := Grouping.layout (Condition.layouts .full (c :: rest))
    conditionsText (c :: rest) count =
      Writing.ofExcept (layout.inlined.map (" WHERE " ++ ·))
        (count + Piece.sourcelessInlined layout.pieces) := by
  intro layout
  have grouped : (do return Grouping.text (← Condition.renderEach format .full (c :: rest))) =
      layout.emit format := by
    rw [Condition.renderEach_eq, emit_grouping]
  change EStateM.bind (rendered _) _ count = _
  rw [EStateM.bind, rendered_run grouped]
  cases layout.inlined <;> rfl

end Statement

end SqlComposition
