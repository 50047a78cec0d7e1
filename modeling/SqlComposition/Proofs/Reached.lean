import SqlComposition.Proofs.Composition
import SqlComposition.Proofs.Settled
import SqlComposition.Proofs.Slots

/-!
What is reached while a query is written: its FROM clauses and the data that it compares with, in the order
of the text, with those of all nested queries that are written. A fragment writes no more bindings than it
has slots, and a cross join writes no condition. Nothing else in a query has to do with whether it can be
written.
-/

namespace SqlComposition

inductive Reached where
  | source (s : Source)
  /-- Data that is written as a literal or takes a placeholder. -/
  | operand (v : Value)

mutual

def Value.reached : Value → List Reached
  | .fragment f => f.reached
  | .query q => q.reached
  | .scalar s => [.operand (.scalar s)]
  | .list items => [.operand (.list items)]
  | .tuple items => [.operand (.tuple items)]
  | .mapping entries => [.operand (.mapping entries)]
  | .part p => [.operand (.part p)]
  | .bound b => [.operand (.bound b)]
  | .object o => [.operand (.object o)]

def Value.allReached : List Value → List Reached
  | [] => []
  | v :: rest => v.reached ++ Value.allReached rest

/-- Only the first `slots` values are written. -/
def Value.firstReached : Nat → List Value → List Reached
  | _, [] => []
  | 0, _ => []
  | slots + 1, v :: rest => v.reached ++ Value.firstReached slots rest

def Fragment.reached : Fragment → List Reached
  | ⟨sql, bindings⟩ => Value.firstReached (Slot.count sql.toList) bindings

def Fragment.optionReached : Option Fragment → List Reached
  | none => []
  | some f => f.reached

def Members.reached : Members → List Reached
  | .listed values => Value.allReached values
  | .query q => q.reached

def Predicate.reached : Predicate → List Reached
  | .comparison _ _ value => value.reached
  | .member _ members _ => members.reached
  | .null _ _ => []
  | .between _ low high _ => low.reached ++ high.reached
  | .nonempty q _ => q.reached
  | .raw f => f.reached

def Condition.allReached : List Condition → List Reached
  | [] => []
  | ⟨_, predicate⟩ :: rest => predicate.reached ++ Condition.allReached rest

def Expression.reached : Expression → List Reached
  | .name _ => []
  | .raw f => f.reached

def Expression.allReached : List Expression → List Reached
  | [] => []
  | e :: rest => e.reached ++ Expression.allReached rest

def SelectItem.allReached : List SelectItem → List Reached
  | [] => []
  | ⟨expression, _⟩ :: rest => expression.reached ++ SelectItem.allReached rest

def Source.reached : Source → List Reached
  | ⟨table, subquery, label⟩ => .source ⟨table, subquery, label⟩ :: Query.optionReached subquery

def Source.optionReached : Option Source → List Reached
  | none => []
  | some s => s.reached

def JoinTarget.reached : JoinTarget → List Reached
  | .table _ => []
  | .query q => q.reached

def Join.reached : Join → List Reached
  | ⟨kind, target, _, on⟩ => target.reached ++ if kind = .cross then [] else Fragment.optionReached on

def Join.allReached : List Join → List Reached
  | [] => []
  | j :: rest => j.reached ++ Join.allReached rest

def OrderItem.allReached : List OrderItem → List Reached
  | [] => []
  | ⟨expression, _⟩ :: rest => expression.reached ++ OrderItem.allReached rest

def CteBody.reached : CteBody → List Reached
  | .query q => q.reached
  | .raw f => f.reached

def Cte.allReached : List Cte → List Reached
  | [] => []
  | ⟨_, _, body, _⟩ :: rest => body.reached ++ Cte.allReached rest

def SetOperation.allReached : List SetOperation → List Reached
  | [] => []
  | ⟨_, query⟩ :: rest => query.reached ++ SetOperation.allReached rest

def Query.reached : Query → List Reached
  | ⟨ctes, _, selection, source, joins, conditions, grouping, having, setOperations, ordering, _, _⟩ =>
    Cte.allReached ctes ++ SelectItem.allReached selection ++ Source.optionReached source ++
      Join.allReached joins ++ Condition.allReached conditions ++ Expression.allReached grouping ++
      Condition.allReached having ++ SetOperation.allReached setOperations ++
      OrderItem.allReached ordering

def Query.optionReached : Option Query → List Reached
  | none => []
  | some q => q.reached

end

/-- Names neither a subquery nor a table. -/
def Source.isMissing (s : Source) : Bool :=
  s.subquery.isNone && s.table.getD "" == ""

/-- What is written for it where nothing holds an object. -/
def Reached.pieces : Reached → List Piece
  | source s => if s.isMissing then [.failed .noSource] else []
  | operand (.object _) => []
  | operand v => [.value v]

/-- A piece that decides whether a text can be written. -/
def Piece.isOperative : Piece → Bool
  | value _ | failed _ => true
  | text _ | sourceless => false

namespace Layout

def operative (layout : Layout) : List Piece :=
  layout.pieces.filter Piece.isOperative

variable (text : String) (inner : Layout)

@[simp] theorem operative_keyword : (keyword text).operative = [] := rfl

@[simp] theorem operative_verbatim : (verbatim text).operative = [] := rfl

@[simp] theorem operative_sourceless : sourceless.operative = [] := rfl

@[simp] theorem operative_operand (v : Value) : (operand v).operative = [.value v] := rfl

@[simp] theorem operative_failed (failure : Failure) : (failed failure).operative = [.failed failure] := rfl

@[simp] theorem operative_series (parts : List Layout) :
    (series parts).operative = parts.flatMap operative := by
  rw [operative, pieces_series, List.filter_flatMap]
  rfl

@[simp] theorem operative_joined (separator : String) (parts : List Layout) :
    (joined separator parts).operative = parts.flatMap operative := by
  rw [joined, operative_series]
  fun_induction separated separator parts with
  | case1 => rfl
  | case2 only => rfl
  | case3 first rest _ ih => simp [ih]

@[simp] theorem operative_parenthesized : (parenthesized inner).operative = inner.operative := by
  simp [parenthesized]

@[simp] theorem operative_nested : (nested .full inner).operative = inner.operative :=
  operative_parenthesized inner

@[simp] theorem operative_aliased (label : Option String) :
    (aliased inner label).operative = inner.operative := by
  cases label with
  | none => rfl
  | some label =>
    rw [aliased]
    split <;> simp

@[simp] theorem operative_negation (negated : Bool) (yes no : String) :
    (negation negated yes no).operative = [] := rfl

@[simp] theorem operative_columnList (columns : Option (List String)) :
    (columnList columns).operative = [] := by
  match columns with
  | none => rfl
  | some [] => rfl
  | some (name :: others) =>
    have names : ((name :: others).map verbatim).flatMap operative = [] := by simp
    simp only [columnList, operative_series, List.flatMap_cons, operative_parenthesized, operative_joined,
      names, List.flatMap_nil, operative_keyword, List.append_nil]

@[simp] theorem operative_clause (word separator : String) (items : List Layout) :
    (clause word separator items).flatMap operative = items.flatMap operative := by
  cases items with
  | nil => rfl
  | cons first rest => simp [clause]

/-- A fragment writes the bindings that have slots. -/
theorem operative_filled (sql : String) (slots : List Layout) :
    (filled sql slots).operative = (slots.take (Slot.count sql.toList)).flatMap operative := by
  rw [operative, pieces, piecesOfEach_eq_map, Slot.count]
  generalize Slot.segments sql.toList = segments
  induction segments generalizing slots with
  | nil => rfl
  | cons segment rest ih =>
    cases rest with
    | nil => rfl
    | cons next rest =>
      cases slots with
      | nil => simpa [fill, Piece.isOperative] using ih []
      | cons slot slots =>
        have later := ih slots
        simp only [List.length_cons, Nat.add_sub_cancel] at later ⊢
        rw [List.map_cons, fill, List.filter_cons_of_neg (by simp [Piece.isOperative]), List.filter_append,
          later, List.take_succ_cons, List.flatMap_cons]
        · rfl
        · simp

end Layout

namespace Grouping

/-- Whatever the groups are, conditions are written in order. -/
theorem assemble_flatten {α : Type} (conditions : List (Bool × List α)) :
    (assemble (fun _ parts => parts.flatten) conditions).getD [] = conditions.flatMap Prod.snd := by
  by_cases some : conditions = []
  · subst some
    rfl
  · have whole := @assemble_eq_some (List α) (fun _ parts => parts.flatten) _ Prod.fst Prod.snd conditions
      (fun _ _ => List.flatten_singleton) some
    rw [List.map_id'] at whole
    rw [whole, Option.getD_some, List.flatMap_def]
    conv_rhs => rw [← List.flatten_splitBy (fun _ next => !next.1) conditions]
    rw [List.map_flatten, List.flatten_flatten, List.map_map]
    rfl

theorem operative_layout (conditions : List (Connective × Layout)) :
    (Grouping.layout conditions).operative = conditions.flatMap fun c => c.2.operative := by
  have join (connective : String) (parts : List Layout) :
      (Layout.grouped connective parts).operative = (parts.map Layout.operative).flatten := by
    simp [Layout.grouped, List.flatMap_def]
  have natural := assemble_map join (conditions.map fun c => (c.1 == .or, c.2))
  have read (whole : Option Layout) :
      (whole.getD (.series [])).operative = (whole.map Layout.operative).getD [] := by
    cases whole <;> simp
  rw [layout_eq, read, ← natural, assemble_flatten]
  simp [List.flatMap_map]

end Grouping

@[simp] theorem Layout.operative_groupedClause (word : String)
    (conditions : List (Connective × Layout)) :
    (groupedClause word conditions).flatMap operative = conditions.flatMap fun c => c.2.operative := by
  cases conditions with
  | nil => rfl
  | cons first rest => simp [groupedClause, Grouping.operative_layout]

theorem Value.IsSettled.plainText {v : Value} (h : v.IsSettled) : ∃ text, v.plainText = .ok text := by
  cases v with
  | object o =>
    rw [Value.IsSettled] at h
    exact h.elim
  | _ => exact ⟨_, rfl⟩

theorem Layout.operative_plain (word : String) {rows : Option Value} (h : Value.OptionSettled rows) :
    (plain word rows).flatMap operative = [] := by
  cases rows with
  | none => rfl
  | some v =>
    rw [Value.OptionSettled] at h
    obtain ⟨text, written⟩ := h.plainText
    have marks : (List.replicate v.sourceless sourceless).flatMap operative = [] :=
      List.flatMap_eq_nil_iff.2 fun layout hl => by rw [List.eq_of_mem_replicate hl]; rfl
    simp [plain, Layout.plainText, written, marks]

open Layout

mutual

theorem Value.operative_layout : (v : Value) → v.IsSettled →
    (v.layout .full).operative = v.reached.flatMap Reached.pieces
  | .fragment f, h => by
    rw [Value.IsSettled] at h
    rw [Value.layout, Value.reached, f.operative_layout h]
  | .query q, h => by
    rw [Value.IsSettled] at h
    rw [Value.layout, Value.reached, operative_nested, q.operative_layout h]
  | .scalar _, _ | .list _, _ | .tuple _, _ | .mapping _, _ | .part _, _ | .bound _, _ => by
    simp [Value.layout, Value.reached, Reached.pieces]

theorem Value.operative_layouts : (values : List Value) → Value.AllSettled values →
    (Value.layouts .full values).flatMap operative = (Value.allReached values).flatMap Reached.pieces
  | [], _ => by rw [Value.layouts, Value.allReached]; rfl
  | v :: rest, h => by
    rw [Value.AllSettled] at h
    rw [Value.layouts, Value.allReached, List.flatMap_cons, List.flatMap_append, v.operative_layout h.1,
      Value.operative_layouts rest h.2]

theorem Value.operative_take : (slots : Nat) → (values : List Value) → Value.AllSettled values →
    ((Value.layouts .full values).take slots).flatMap operative =
      (Value.firstReached slots values).flatMap Reached.pieces
  | _, [], _ => by simp [Value.layouts, Value.firstReached]
  | 0, _ :: _, _ => by simp [Value.firstReached]
  | slots + 1, v :: rest, h => by
    rw [Value.AllSettled] at h
    rw [Value.layouts, Value.firstReached, List.take_succ_cons, List.flatMap_cons, List.flatMap_append,
      v.operative_layout h.1, Value.operative_take slots rest h.2]

theorem Fragment.operative_layout : (f : Fragment) → f.IsSettled →
    (f.layout .full).operative = f.reached.flatMap Reached.pieces
  | ⟨sql, bindings⟩, h => by
    rw [Fragment.IsSettled] at h
    rw [Fragment.layout, Fragment.reached, operative_filled, Value.operative_take _ bindings h]

theorem Predicate.operative_layout : (x : Predicate) → x.IsSettled →
    (x.layout .full).operative = x.reached.flatMap Reached.pieces
  | .comparison column operator value, h => by
    rw [Predicate.IsSettled] at h
    simp [Predicate.layout, Predicate.reached, value.operative_layout h]
  | .member column (.query q) negated, h => by
    rw [Predicate.IsSettled, Members.IsSettled] at h
    simp [Predicate.layout, Predicate.reached, Members.reached, q.operative_layout h]
  | .member column (.listed []) negated, _ => by
    simp [Predicate.layout, Predicate.reached, Members.reached, Value.allReached]
  | .member column (.listed (v :: rest)) negated, h => by
    rw [Predicate.IsSettled, Members.IsSettled, Value.AllSettled] at h
    simp [Predicate.layout, Predicate.reached, Members.reached, Value.allReached, v.operative_layout h.1,
      Value.operative_layouts rest h.2]
  | .null column negated, _ => by
    simp [Predicate.layout, Predicate.reached]
  | .between column low high negated, h => by
    rw [Predicate.IsSettled] at h
    simp [Predicate.layout, Predicate.reached, low.operative_layout h.1, high.operative_layout h.2]
  | .nonempty q negated, h => by
    rw [Predicate.IsSettled] at h
    simp [Predicate.layout, Predicate.reached, q.operative_layout h]
  | .raw fragment, h => by
    rw [Predicate.IsSettled] at h
    rw [Predicate.layout, Predicate.reached, fragment.operative_layout h]

theorem Condition.operative_layouts : (conditions : List Condition) → Condition.AllSettled conditions →
    ((Condition.layouts .full conditions).flatMap fun c => c.2.operative) =
      (Condition.allReached conditions).flatMap Reached.pieces
  | [], _ => by rw [Condition.layouts, Condition.allReached]; rfl
  | ⟨connective, predicate⟩ :: rest, h => by
    rw [Condition.AllSettled, Condition.IsSettled] at h
    rw [Condition.layouts, Condition.layout, Condition.allReached, List.flatMap_cons, List.flatMap_append,
      predicate.operative_layout h.1, Condition.operative_layouts rest h.2]

theorem Expression.operative_layout : (e : Expression) → e.IsSettled →
    e.layout.operative = e.reached.flatMap Reached.pieces
  | .name text, _ => by simp [Expression.layout, Expression.reached]
  | .raw fragment, h => by
    rw [Expression.IsSettled] at h
    rw [Expression.layout, Expression.reached, fragment.operative_layout h]

theorem Expression.operative_layouts : (expressions : List Expression) →
    Expression.AllSettled expressions →
    (Expression.layouts expressions).flatMap operative =
      (Expression.allReached expressions).flatMap Reached.pieces
  | [], _ => by rw [Expression.layouts, Expression.allReached]; rfl
  | e :: rest, h => by
    rw [Expression.AllSettled] at h
    rw [Expression.layouts, Expression.allReached, List.flatMap_cons, List.flatMap_append,
      e.operative_layout h.1, Expression.operative_layouts rest h.2]

theorem SelectItem.operative_layouts : (items : List SelectItem) → SelectItem.AllSettled items →
    (SelectItem.layouts items).flatMap operative = (SelectItem.allReached items).flatMap Reached.pieces
  | [], _ => by rw [SelectItem.layouts, SelectItem.allReached]; rfl
  | ⟨expression, label⟩ :: rest, h => by
    rw [SelectItem.AllSettled, SelectItem.IsSettled] at h
    rw [SelectItem.layouts, SelectItem.layout, SelectItem.allReached, List.flatMap_cons,
      List.flatMap_append, operative_aliased, expression.operative_layout h.1,
      SelectItem.operative_layouts rest h.2]

theorem Source.operative_line : (s : Option Source) → Source.OptionSettled s →
    (Source.line s).operative = (Source.optionReached s).flatMap Reached.pieces
  | none, _ => by simp [Source.line, Source.optionReached]
  | some ⟨table, some q, label⟩, h => by
    rw [Source.OptionSettled, Source.IsSettled, Query.OptionSettled] at h
    simp [Source.line, Source.layout, Source.optionReached, Source.reached, Query.optionReached,
      Reached.pieces, Source.isMissing, q.operative_layout h]
  | some ⟨some table, none, label⟩, _ => by
    by_cases empty : table = "" <;>
      simp [Source.line, Source.layout, Source.optionReached, Source.reached, Query.optionReached,
        Reached.pieces, Source.isMissing, empty]
  | some ⟨none, none, label⟩, _ => by
    simp [Source.line, Source.layout, Source.optionReached, Source.reached, Query.optionReached,
      Reached.pieces, Source.isMissing]

theorem JoinTarget.operative_layout : (t : JoinTarget) → t.IsSettled →
    t.layout.operative = t.reached.flatMap Reached.pieces
  | .table name, _ => by simp [JoinTarget.layout, JoinTarget.reached]
  | .query q, h => by
    rw [JoinTarget.IsSettled] at h
    simp [JoinTarget.layout, JoinTarget.reached, q.operative_layout h]

theorem Join.operative_layout : (j : Join) → j.IsSettled →
    j.layout.operative = j.reached.flatMap Reached.pieces
  | ⟨kind, target, label, none⟩, h => by
    rw [Join.IsSettled] at h
    cases kind <;>
      simp [Join.layout, Join.reached, Fragment.optionReached, target.operative_layout h.1]
  | ⟨kind, target, label, some fragment⟩, h => by
    rw [Join.IsSettled, Fragment.OptionSettled] at h
    cases kind <;>
      simp [Join.layout, Join.reached, Fragment.optionReached, target.operative_layout h.1,
        fragment.operative_layout h.2]

theorem Join.operative_layouts : (joins : List Join) → Join.AllSettled joins →
    (Join.layouts joins).flatMap operative = (Join.allReached joins).flatMap Reached.pieces
  | [], _ => by rw [Join.layouts, Join.allReached]; rfl
  | j :: rest, h => by
    rw [Join.AllSettled] at h
    rw [Join.layouts, Join.allReached, List.flatMap_cons, List.flatMap_append, j.operative_layout h.1,
      Join.operative_layouts rest h.2]

theorem OrderItem.operative_layouts : (items : List OrderItem) → OrderItem.AllSettled items →
    (OrderItem.layouts items).flatMap operative = (OrderItem.allReached items).flatMap Reached.pieces
  | [], _ => by rw [OrderItem.layouts, OrderItem.allReached]; rfl
  | ⟨expression, none⟩ :: rest, h => by
    rw [OrderItem.AllSettled, OrderItem.IsSettled] at h
    rw [OrderItem.layouts, OrderItem.layout, OrderItem.allReached, List.flatMap_cons, List.flatMap_append,
      expression.operative_layout h.1, OrderItem.operative_layouts rest h.2]
  | ⟨expression, some direction⟩ :: rest, h => by
    rw [OrderItem.AllSettled, OrderItem.IsSettled] at h
    by_cases empty : direction = "" <;>
      simp [OrderItem.layouts, OrderItem.layout, OrderItem.allReached, empty,
        expression.operative_layout h.1, OrderItem.operative_layouts rest h.2]

theorem CteBody.operative_layout : (body : CteBody) → body.IsSettled →
    body.layout.operative = body.reached.flatMap Reached.pieces
  | .query q, h => by
    rw [CteBody.IsSettled] at h
    rw [CteBody.layout, CteBody.reached, q.operative_layout h]
  | .raw fragment, h => by
    rw [CteBody.IsSettled] at h
    rw [CteBody.layout, CteBody.reached, fragment.operative_layout h]

theorem Cte.operative_layouts : (ctes : List Cte) → Cte.AllSettled ctes →
    (Cte.layouts ctes).flatMap operative = (Cte.allReached ctes).flatMap Reached.pieces
  | [], _ => by rw [Cte.layouts, Cte.allReached]; rfl
  | ⟨name, columns, body, isRecursive⟩ :: rest, h => by
    rw [Cte.AllSettled, Cte.IsSettled] at h
    simp [Cte.layouts, Cte.layout, Cte.allReached, body.operative_layout h.1,
      Cte.operative_layouts rest h.2]

theorem SetOperation.operative_layouts : (operations : List SetOperation) →
    SetOperation.AllSettled operations →
    (SetOperation.layouts operations).flatMap operative =
      (SetOperation.allReached operations).flatMap Reached.pieces
  | [], _ => by rw [SetOperation.layouts, SetOperation.allReached]; rfl
  | ⟨operator, query⟩ :: rest, h => by
    rw [SetOperation.AllSettled, SetOperation.IsSettled] at h
    simp [SetOperation.layouts, SetOperation.layout, SetOperation.allReached, query.operative_layout h.1,
      SetOperation.operative_layouts rest h.2]

/-- Whether a query can be written is decided by what is reached in it, in order. -/
theorem Query.operative_layout : (q : Query) → q.IsSettled →
    q.layout.operative = q.reached.flatMap Reached.pieces
  | ⟨ctes, distinct, selection, source, joins, conditions, grouping, having, setOperations, ordering,
      limit, offset⟩, h => by
    rw [Query.IsSettled] at h
    obtain ⟨hctes, hselection, hsource, hjoins, hconditions, hgrouping, hhaving, hoperations, hordering,
      hlimit, hoffset⟩ := h
    have items := SelectItem.operative_layouts selection hselection
    rw [Query.layout, Query.reached]
    simp only [operative_joined, List.flatMap_append, operative_clause, operative_groupedClause,
      Cte.operative_layouts ctes hctes, Join.operative_layouts joins hjoins,
      Condition.operative_layouts conditions hconditions, Expression.operative_layouts grouping hgrouping,
      Condition.operative_layouts having hhaving, SetOperation.operative_layouts setOperations hoperations,
      OrderItem.operative_layouts ordering hordering, operative_plain _ hlimit, operative_plain _ hoffset,
      List.flatMap_cons, List.flatMap_nil, operative_series, operative_keyword,
      Source.operative_line source hsource, List.nil_append, List.append_nil, List.append_assoc]
    rw [← items]
    cases SelectItem.layouts selection with
    | nil => rfl
    | cons first rest => rw [operative_joined]

end

end SqlComposition
