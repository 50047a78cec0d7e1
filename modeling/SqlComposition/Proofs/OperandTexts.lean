import SqlComposition.Proofs.Composition

/-!
The texts that a query compares with: operands of comparisons, members of lists and bounds of ranges, at
any depth. They are taken out of a query by putting the empty text in the place of each. The bindings of a
fragment fill slots of trusted SQL and stay as they are, but the queries and fragments among them are gone
through too.
-/

namespace SqlComposition

def Value.blank : Value → Value
  | .scalar (.text _) => .text ""
  | other => other

mutual

def Value.masked : Value → Value
  | .fragment f => .fragment f.masked
  | .query q => .query q.masked
  | other => other.blank

def Value.allMasked : List Value → List Value
  | [] => []
  | v :: rest => v.masked :: Value.allMasked rest

def Value.bindingMasked : Value → Value
  | .fragment f => .fragment f.masked
  | .query q => .query q.masked
  | other => other

def Value.bindingsMasked : List Value → List Value
  | [] => []
  | v :: rest => v.bindingMasked :: Value.bindingsMasked rest

def Fragment.masked : Fragment → Fragment
  | ⟨sql, bindings⟩ => ⟨sql, Value.bindingsMasked bindings⟩

def Fragment.optionMasked : Option Fragment → Option Fragment
  | none => none
  | some f => some f.masked

def Members.masked : Members → Members
  | .listed values => .listed (Value.allMasked values)
  | .query q => .query q.masked

def Predicate.masked : Predicate → Predicate
  | .comparison column operator value => .comparison column operator value.masked
  | .member column members negated => .member column members.masked negated
  | .null column negated => .null column negated
  | .between column low high negated => .between column low.masked high.masked negated
  | .nonempty q negated => .nonempty q.masked negated
  | .raw fragment => .raw fragment.masked

def Condition.masked : Condition → Condition
  | ⟨connective, predicate⟩ => ⟨connective, predicate.masked⟩

def Condition.allMasked : List Condition → List Condition
  | [] => []
  | c :: rest => c.masked :: Condition.allMasked rest

def Expression.masked : Expression → Expression
  | .name text => .name text
  | .raw fragment => .raw fragment.masked

def Expression.allMasked : List Expression → List Expression
  | [] => []
  | e :: rest => e.masked :: Expression.allMasked rest

def SelectItem.masked : SelectItem → SelectItem
  | ⟨expression, label⟩ => ⟨expression.masked, label⟩

def SelectItem.allMasked : List SelectItem → List SelectItem
  | [] => []
  | item :: rest => item.masked :: SelectItem.allMasked rest

def Source.masked : Source → Source
  | ⟨table, subquery, label⟩ => ⟨table, Query.optionMasked subquery, label⟩

def Source.optionMasked : Option Source → Option Source
  | none => none
  | some s => some s.masked

def JoinTarget.masked : JoinTarget → JoinTarget
  | .table name => .table name
  | .query q => .query q.masked

def Join.masked : Join → Join
  | ⟨kind, target, label, on⟩ => ⟨kind, target.masked, label, Fragment.optionMasked on⟩

def Join.allMasked : List Join → List Join
  | [] => []
  | j :: rest => j.masked :: Join.allMasked rest

def OrderItem.masked : OrderItem → OrderItem
  | ⟨expression, direction⟩ => ⟨expression.masked, direction⟩

def OrderItem.allMasked : List OrderItem → List OrderItem
  | [] => []
  | item :: rest => item.masked :: OrderItem.allMasked rest

def CteBody.masked : CteBody → CteBody
  | .query q => .query q.masked
  | .raw fragment => .raw fragment.masked

def Cte.masked : Cte → Cte
  | ⟨name, columns, body, isRecursive⟩ => ⟨name, columns, body.masked, isRecursive⟩

def Cte.allMasked : List Cte → List Cte
  | [] => []
  | c :: rest => c.masked :: Cte.allMasked rest

def SetOperation.masked : SetOperation → SetOperation
  | ⟨operator, query⟩ => ⟨operator, query.masked⟩

def SetOperation.allMasked : List SetOperation → List SetOperation
  | [] => []
  | s :: rest => s.masked :: SetOperation.allMasked rest

def Query.masked : Query → Query
  | ⟨ctes, distinct, selection, source, joins, conditions, grouping, having, setOperations, ordering,
      limit, offset⟩ =>
    ⟨Cte.allMasked ctes, distinct, SelectItem.allMasked selection, Source.optionMasked source,
      Join.allMasked joins, Condition.allMasked conditions, Expression.allMasked grouping,
      Condition.allMasked having, SetOperation.allMasked setOperations, OrderItem.allMasked ordering,
      limit, offset⟩

def Query.optionMasked : Option Query → Option Query
  | none => none
  | some q => some q.masked

end

namespace Layout

mutual

/-- The layout without the texts among its operands. -/
def masked : Layout → Layout
  | operand v => operand v.blank
  | filled sql slots => filled sql (slotsMasked slots)
  | series parts => series (allMasked parts)
  | keyword text => keyword text
  | verbatim text => verbatim text
  | sourceless => sourceless
  | failed failure => failed failure

def allMasked : List Layout → List Layout
  | [] => []
  | part :: rest => part.masked :: allMasked rest

def slotsMasked : List Layout → List Layout
  | [] => []
  | slot :: rest => (if slot.isOperand then slot else slot.masked) :: slotsMasked rest

end

@[simp] theorem allMasked_eq_map (parts : List Layout) : allMasked parts = parts.map masked :=
  eq_map_of_cons (by rw [allMasked]) (fun _ _ => by rw [allMasked]) parts

@[simp] theorem masked_keyword (text : String) : (keyword text).masked = keyword text := by
  rw [masked]

@[simp] theorem masked_verbatim (text : String) : (verbatim text).masked = verbatim text := by
  rw [masked]

@[simp] theorem masked_series (parts : List Layout) :
    (series parts).masked = series (parts.map masked) := by
  rw [masked, allMasked_eq_map]

@[simp] theorem masked_sourceless : sourceless.masked = sourceless := by
  rw [masked]

@[simp] theorem masked_failed (failure : Failure) : (failed failure).masked = failed failure := by
  rw [masked]

@[simp] theorem masked_parenthesized (inner : Layout) :
    (parenthesized inner).masked = parenthesized inner.masked := by
  simp [parenthesized]

@[simp] theorem masked_joined (separator : String) (parts : List Layout) :
    (joined separator parts).masked = joined separator (parts.map masked) := by
  suffices h : (separated separator parts).map masked = separated separator (parts.map masked) by
    simp [joined, h]
  induction parts with
  | nil => rfl
  | cons first rest ih =>
    cases rest with
    | nil => rfl
    | cons second rest =>
      rw [List.map_cons] at ih
      simp [separated, ih]

@[simp] theorem masked_aliased (inner : Layout) (label : Option String) :
    (aliased inner label).masked = aliased inner.masked label := by
  cases label with
  | none => rfl
  | some text => by_cases h : text = "" <;> simp [aliased, h]

@[simp] theorem masked_negation (negated : Bool) (yes no : String) :
    (negation negated yes no).masked = negation negated yes no := by
  rw [negation, masked_keyword]

@[simp] theorem masked_columnList (columns : Option (List String)) :
    (columnList columns).masked = columnList columns := by
  match columns with
  | none => rfl
  | some [] => rfl
  | some (name :: others) => simp [columnList, Function.comp_def]

@[simp] theorem masked_plainText (rows : Value) : (plainText rows).masked = plainText rows := by
  cases h : rows.plainText <;> simp [plainText, h]

@[simp] theorem masked_plain (word : String) (rows : Option Value) :
    (plain word rows).map masked = plain word rows := by
  cases rows <;> simp [plain]

@[simp] theorem masked_clause (word separator : String) (items : List Layout) :
    (clause word separator items).map masked = clause word separator (items.map masked) := by
  cases items <;> simp [clause]

end Layout

theorem Grouping.masked_layout (conditions : List (Connective × Layout)) :
    (Grouping.layout conditions).masked =
      Grouping.layout (conditions.map fun c => (c.1, c.2.masked)) := by
  have join (connective : String) (parts : List Layout) :
      (Layout.grouped connective parts).masked =
        Layout.grouped connective (parts.map Layout.masked) := by
    simp [Layout.grouped]
  have natural := assemble_map join (conditions.map fun c => (c.1 == .or, c.2))
  rw [List.map_map] at natural
  rw [layout_eq, layout_eq, List.map_map]
  simp only [Function.comp_def] at natural ⊢
  rw [natural]
  cases assemble _ _ <;> simp

@[simp] theorem Layout.masked_groupedClause (word : String)
    (conditions : List (Connective × Layout)) :
    (groupedClause word conditions).map masked =
      groupedClause word (conditions.map fun c => (c.1, c.2.masked)) := by
  cases conditions <;> simp [groupedClause, Grouping.masked_layout]

theorem Cte.any_allMasked (ctes : List Cte) :
    (Cte.allMasked ctes).any (·.isRecursive) = ctes.any (·.isRecursive) := by
  induction ctes with
  | nil => rw [Cte.allMasked]
  | cons c rest ih =>
    cases c
    simp [Cte.allMasked, Cte.masked, ih]

open Layout

mutual

theorem Value.layout_masked : (v : Value) → v.masked.layout .full = (v.layout .full).masked
  | .fragment f => by
    rw [Value.masked, Value.layout, Value.layout, f.layout_masked]
  | .query q => by
    rw [Value.masked, Value.layout, Value.layout, q.layout_masked]
    exact (masked_parenthesized _).symm
  | .scalar s => by
    cases s <;> simp [Value.masked, Value.blank, Value.layout, Layout.masked, Value.text]
  | .list _ | .tuple _ | .mapping _ | .part _ | .bound _ | .object _ => by
    simp [Value.masked, Value.blank, Value.layout, Layout.masked]

theorem Value.layouts_masked : (values : List Value) →
    Value.layouts .full (Value.allMasked values) = (Value.layouts .full values).map masked
  | [] => by simp [Value.allMasked, Value.layouts]
  | v :: rest => by
    simp [Value.allMasked, Value.layouts, v.layout_masked, Value.layouts_masked rest]

theorem Value.layouts_bindingsMasked : (values : List Value) →
    Value.layouts .full (Value.bindingsMasked values) = slotsMasked (Value.layouts .full values)
  | [] => by simp [Value.bindingsMasked, Value.layouts, slotsMasked]
  | .fragment f :: rest => by
    have text : (f.layout .full).isOperand = false := by
      cases f
      rw [Fragment.layout]
      rfl
    simp [Value.bindingsMasked, Value.bindingMasked, Value.layouts, Value.layout, slotsMasked, text,
      f.layout_masked, Value.layouts_bindingsMasked rest]
  | .query q :: rest => by
    have text : (parenthesized q.layout).isOperand = false := rfl
    simp [Value.bindingsMasked, Value.bindingMasked, Value.layouts, Value.layout, nested, slotsMasked,
      text, q.layout_masked, Value.layouts_bindingsMasked rest]
  | .scalar _ :: rest | .list _ :: rest | .tuple _ :: rest | .mapping _ :: rest | .part _ :: rest
  | .bound _ :: rest | .object _ :: rest => by
    simp [Value.bindingsMasked, Value.bindingMasked, Value.layouts, Value.layout, slotsMasked,
      isOperand, Value.layouts_bindingsMasked rest]

theorem Fragment.layout_masked : (f : Fragment) → f.masked.layout .full = (f.layout .full).masked
  | ⟨sql, bindings⟩ => by
    rw [Fragment.masked, Fragment.layout, Fragment.layout, Layout.masked,
      Value.layouts_bindingsMasked bindings]

theorem Predicate.layout_masked : (x : Predicate) →
    x.masked.layout .full = (x.layout .full).masked
  | .comparison column operator value => by
    simp [Predicate.masked, Predicate.layout, value.layout_masked]
  | .member column (.query q) negated => by
    simp [Predicate.masked, Members.masked, Predicate.layout, nested, q.layout_masked]
  | .member column (.listed []) negated => by
    simp [Predicate.masked, Members.masked, Value.allMasked, Predicate.layout]
  | .member column (.listed (v :: rest)) negated => by
    simp [Predicate.masked, Members.masked, Value.allMasked, Predicate.layout, v.layout_masked,
      Value.layouts_masked rest]
  | .null column negated => by
    simp [Predicate.masked, Predicate.layout]
  | .between column low high negated => by
    simp [Predicate.masked, Predicate.layout, low.layout_masked, high.layout_masked]
  | .nonempty q negated => by
    simp [Predicate.masked, Predicate.layout, nested, q.layout_masked]
  | .raw fragment => by
    rw [Predicate.masked, Predicate.layout, Predicate.layout, fragment.layout_masked]

theorem Condition.layouts_masked : (conditions : List Condition) →
    Condition.layouts .full (Condition.allMasked conditions) =
      (Condition.layouts .full conditions).map fun c => (c.1, c.2.masked)
  | [] => by simp [Condition.allMasked, Condition.layouts]
  | ⟨connective, predicate⟩ :: rest => by
    simp [Condition.allMasked, Condition.masked, Condition.layouts, Condition.layout,
      predicate.layout_masked, Condition.layouts_masked rest]

theorem Expression.layout_masked : (e : Expression) → e.masked.layout = e.layout.masked
  | .name text => by simp [Expression.masked, Expression.layout]
  | .raw fragment => by simp [Expression.masked, Expression.layout, fragment.layout_masked]

theorem Expression.layouts_masked : (expressions : List Expression) →
    Expression.layouts (Expression.allMasked expressions) =
      (Expression.layouts expressions).map masked
  | [] => by simp [Expression.allMasked, Expression.layouts]
  | e :: rest => by
    simp [Expression.allMasked, Expression.layouts, e.layout_masked, Expression.layouts_masked rest]

theorem SelectItem.layouts_masked : (items : List SelectItem) →
    SelectItem.layouts (SelectItem.allMasked items) = (SelectItem.layouts items).map masked
  | [] => by simp [SelectItem.allMasked, SelectItem.layouts]
  | ⟨expression, label⟩ :: rest => by
    simp [SelectItem.allMasked, SelectItem.masked, SelectItem.layouts, SelectItem.layout,
      expression.layout_masked, SelectItem.layouts_masked rest]

theorem Source.line_masked : (source : Option Source) →
    Source.line (Source.optionMasked source) = (Source.line source).masked
  | none => by simp [Source.optionMasked, Source.line]
  | some ⟨table, some q, label⟩ => by
    simp [Source.optionMasked, Source.masked, Query.optionMasked, Source.line, Source.layout,
      q.layout_masked]
  | some ⟨some table, none, label⟩ => by
    by_cases h : table = "" <;>
      simp [Source.optionMasked, Source.masked, Query.optionMasked, Source.line, Source.layout, h]
  | some ⟨none, none, label⟩ => by
    simp [Source.optionMasked, Source.masked, Query.optionMasked, Source.line, Source.layout]

theorem JoinTarget.layout_masked : (t : JoinTarget) → t.masked.layout = t.layout.masked
  | .table name => by simp [JoinTarget.masked, JoinTarget.layout]
  | .query q => by simp [JoinTarget.masked, JoinTarget.layout, q.layout_masked]

theorem Join.layout_masked : (j : Join) → j.masked.layout = j.layout.masked
  | ⟨kind, target, label, none⟩ => by
    cases kind <;> simp [Join.masked, Fragment.optionMasked, Join.layout, target.layout_masked]
  | ⟨kind, target, label, some fragment⟩ => by
    cases kind <;> simp [Join.masked, Fragment.optionMasked, Join.layout, target.layout_masked,
      fragment.layout_masked]

theorem Join.layouts_masked : (joins : List Join) →
    Join.layouts (Join.allMasked joins) = (Join.layouts joins).map masked
  | [] => by simp [Join.allMasked, Join.layouts]
  | j :: rest => by
    simp [Join.allMasked, Join.layouts, j.layout_masked, Join.layouts_masked rest]

theorem OrderItem.layouts_masked : (items : List OrderItem) →
    OrderItem.layouts (OrderItem.allMasked items) = (OrderItem.layouts items).map masked
  | [] => by simp [OrderItem.allMasked, OrderItem.layouts]
  | ⟨expression, none⟩ :: rest => by
    simp [OrderItem.allMasked, OrderItem.masked, OrderItem.layouts, OrderItem.layout,
      expression.layout_masked, OrderItem.layouts_masked rest]
  | ⟨expression, some direction⟩ :: rest => by
    by_cases h : direction = "" <;>
      simp [OrderItem.allMasked, OrderItem.masked, OrderItem.layouts, OrderItem.layout, h,
        expression.layout_masked, OrderItem.layouts_masked rest]

theorem Cte.layout_masked : (c : Cte) → c.masked.layout = c.layout.masked
  | ⟨name, columns, .query q, isRecursive⟩ => by
    simp [Cte.masked, CteBody.masked, Cte.layout, CteBody.layout, q.layout_masked]
  | ⟨name, columns, .raw fragment, isRecursive⟩ => by
    simp [Cte.masked, CteBody.masked, Cte.layout, CteBody.layout, fragment.layout_masked]

theorem Cte.layouts_masked : (ctes : List Cte) →
    Cte.layouts (Cte.allMasked ctes) = (Cte.layouts ctes).map masked
  | [] => by simp [Cte.allMasked, Cte.layouts]
  | c :: rest => by
    simp [Cte.allMasked, Cte.layouts, c.layout_masked, Cte.layouts_masked rest]

theorem SetOperation.layouts_masked : (operations : List SetOperation) →
    SetOperation.layouts (SetOperation.allMasked operations) =
      (SetOperation.layouts operations).map masked
  | [] => by simp [SetOperation.allMasked, SetOperation.layouts]
  | ⟨operator, q⟩ :: rest => by
    simp [SetOperation.allMasked, SetOperation.masked, SetOperation.layouts, SetOperation.layout,
      q.layout_masked, SetOperation.layouts_masked rest]

/-- Taking the texts out of a query takes them out of its layout, and does nothing else to it. -/
theorem Query.layout_masked : (q : Query) → q.masked.layout = q.layout.masked
  | ⟨ctes, distinct, selection, source, joins, conditions, grouping, having, setOperations,
      ordering, limit, offset⟩ => by
    rw [Query.masked, Query.layout, Query.layout, Cte.any_allMasked, SelectItem.layouts_masked selection,
      Source.line_masked source, Cte.layouts_masked ctes, Join.layouts_masked joins,
      Condition.layouts_masked conditions, Expression.layouts_masked grouping,
      Condition.layouts_masked having, SetOperation.layouts_masked setOperations,
      OrderItem.layouts_masked ordering]
    cases SelectItem.layouts selection <;> simp

end

end SqlComposition
