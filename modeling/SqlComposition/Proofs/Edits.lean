import SqlComposition.Proofs.Apart
import SqlComposition.Session.Call

/-!
The calls of builders and statements keep objects apart. Each call works out its changes first and then
makes them on its own object; as long as it is meant for its arguments, the query or statement that it
changes comes to hold no object.
-/

namespace SqlComposition
open SqlComposition.Action Store

/-- While sound functions are called, objects stay apart. -/
structure Setting.KeepsApart (resolve : String → Except Failure Value) (setting : Setting) : Prop where
  resolved : setting.resolve = resolve
  calls : ∀ (base : Store) (isOpen : Nat → Prop) (f : Function), f.IsSound resolve →
    Keeps setting (IsApart resolve base isOpen) (fun _ => True) (fun _ => setting.call f)

variable {setting : Setting} {resolve : String → Except Failure Value} {base : Store}
  {isOpen : Nat → Prop}

/-! ## What arguments become -/

namespace Action.Keeps

theorem query (hs : setting.KeepsApart resolve) (v : Value) :
    Keeps setting (IsApart resolve base isOpen) Query.IsSettled (Action.query v) := by
  unfold Action.query
  split
  · exact snapshot _
  · refine bind (known fun s f h hf => h.settled _ _ (content?_of_function? hf)) fun f hf =>
      bind read ?_
    rintro _ rfl
    exact bind (hs.calls base isOpen f hf) fun number _ => snapshot number
  · exact throw _

theorem operands {items : List Value} (h : ∀ item ∈ items, item.IsOperand) :
    Keeps setting (IsApart resolve base isOpen) Value.AllSettled (items.mapM Action.operand) :=
  weaken (mapM fun item hi => operand (h item hi)) fun _ all => Value.allSettled_iff.2 all

theorem bindings {given : Option Value} (h : ∀ v, given = some v → v.IsBindings) :
    Keeps setting (IsApart resolve base isOpen) Value.AllSettled (Action.bindings given) := by
  have none : Keeps setting (IsApart resolve base isOpen) Value.AllSettled (Pure.pure []) :=
    pure (Value.allSettled_iff.2 (List.forall_mem_nil _))
  cases given with
  | none => exact none
  | some v =>
    have meant := h v rfl
    have items : ∀ items, v.items = .ok items → ∀ item ∈ items, item.IsOperand := by
      intro items hi
      cases v with
      | list _ | tuple _ =>
        cases hi
        exact meant
      | scalar s =>
        cases s with
        | text s =>
          cases hi
          exact List.forall_mem_map.2 fun _ _ => trivial
        | bytes bytes =>
          cases hi
          exact List.forall_mem_map.2 fun _ _ => trivial
        | null | bool _ | int _ | float _ | decimal _ | date _ | time _ | dateTime _ | duration _
        | uuid _ => cases hi
      | mapping _ | fragment _ | query _ | part _ | bound _ | object _ => exact meant.elim
    rw [Action.bindings]
    split
    · exact bind (ofExcept fun _ => items _) fun _ all => operands all
    · exact none

theorem fragment {sql : Value} {given : Option Value} (hs : sql.IsTrusted)
    (hg : ∀ v, given = some v → v.IsBindings) :
    Keeps setting (IsApart resolve base isOpen) Fragment.IsSettled (Action.fragment sql given) := by
  unfold Action.fragment
  split
  · exact pure hs
  · exact bind (bindings hg) fun values hv => bind (anyOf _) fun text _ =>
      pure (by rwa [Fragment.IsSettled])

theorem members (hs : setting.KeepsApart resolve) {v : Value} (h : v.IsMembers) :
    Keeps setting (IsApart resolve base isOpen) Members.IsSettled (Action.members v) := by
  have ofQuery (v : Value) : Keeps setting (IsApart resolve base isOpen) Members.IsSettled
      (do return .query (← Action.query v)) :=
    bind (query hs v) fun q hq => pure (by rwa [Members.IsSettled])
  have alone {v : Value} (hv : v.IsSettled) :
      Keeps setting (IsApart resolve base isOpen) Members.IsSettled (Pure.pure (.listed [v])) :=
    pure (by rw [Members.IsSettled]; exact Value.allSettled_iff.2 (by simpa using hv))
  have several {items : List Value} (hi : ∀ item ∈ items, item.IsOperand) :
      Keeps setting (IsApart resolve base isOpen) Members.IsSettled
        (do return .listed (← items.mapM Action.operand)) :=
    bind (operands hi) fun values hv => pure (by rwa [Members.IsSettled])
  cases v with
  | list items => exact several h
  | tuple items => exact several h
  | object o =>
    obtain ⟨number, kind, form⟩ := o
    rcases h with rfl | rfl
    · exact ofQuery _
    · exact ofQuery _
  | scalar s => exact alone (by rw [Value.IsSettled]; trivial)
  | fragment f => exact alone (by rwa [Value.IsSettled])
  | mapping _ | query _ | part _ | bound _ => exact h.elim

end Action.Keeps

/-! ## Conditions -/

namespace Filter
open Keeps

theorem member_keeps (hs : setting.KeepsApart resolve) (negated : Bool) (column : Value) {values : Value}
    (h : values.IsMembers) :
    Keeps setting (IsApart resolve base isOpen) Predicate.IsSettled (member negated column values) :=
  .bind (members hs h) fun found hf => .bind (.anyOf _) fun _ _ => .pure (by rwa [Predicate.IsSettled])

theorem null_keeps (negated : Bool) (column : Value) :
    Keeps setting (IsApart resolve base isOpen) Predicate.IsSettled (null negated column) :=
  .bind (.anyOf _) fun _ _ => .pure (by rw [Predicate.IsSettled]; trivial)

theorem between_keeps (negated : Bool) (column : Value) {low high : Value} (hl : low.IsOperand)
    (hh : high.IsOperand) :
    Keeps setting (IsApart resolve base isOpen) Predicate.IsSettled (between negated column low high) :=
  .bind (operand hl) fun a ha => .bind (operand hh) fun b hb => .bind (.anyOf _) fun _ _ =>
    .pure (by rw [Predicate.IsSettled]; exact ⟨ha, hb⟩)

theorem route_equals : route "=" = .comparison := rfl

theorem routed_keeps (hs : setting.KeepsApart resolve) {operator : String} {way : Routing}
    (hw : route operator = way) (column : Value) {value : Value} (h : way.Admits value) :
    Keeps setting (IsApart resolve base isOpen) Predicate.IsSettled (routed operator column value) := by
  rw [routed, hw]
  cases way with
  | member negated => exact member_keeps hs negated column h
  | null negated => exact null_keeps negated column
  | between negated => exact between_keeps negated column h.1 h.2
  | comparison =>
    exact .bind (operand h) fun v hv => .bind (.anyOf _) fun _ _ => .pure (by rwa [Predicate.IsSettled])

theorem compare_keeps (hs : setting.KeepsApart resolve) (column operator : Value) {value : Value}
    (h : Test.compare.Admits [column, operator, value]) :
    Keeps setting (IsApart resolve base isOpen) Predicate.IsSettled (compare column operator value) := by
  have any (hv : value.IsOperand) (operator : String) :
      Keeps setting (IsApart resolve base isOpen) Predicate.IsSettled (routed operator column value) :=
    routed_keeps hs rfl column (Routing.admits_operand hv _)
  rw [compare]
  split
  · rcases h with always | ⟨s, way, rfl, -, hw, here⟩
    · exact .bind (.write operator) fun text _ => any always _
    · exact .write_text (routed_keeps hs hw column here)
  · rename_i falsy
    rcases h with always | ⟨s, way, rfl, some, -⟩
    · exact .bind (g := fun _ => True) (.pure trivial) fun text _ => any always _
    · exact absurd (by simpa [Value.text, Value.isTruthy, Scalar.isTruthy] using some) falsy

theorem nonempty_keeps (hs : setting.KeepsApart resolve) (negated : Bool) (query : Value) :
    Keeps setting (IsApart resolve base isOpen) Predicate.IsSettled (nonempty negated query) :=
  .bind (Keeps.query hs query) fun q hq => .pure (by rwa [Predicate.IsSettled])

theorem raw_keeps {sql : Value} {given : Option Value} (h : sql.IsTrusted)
    (hg : ∀ v, given = some v → v.IsBindings) :
    Keeps setting (IsApart resolve base isOpen) Predicate.IsSettled (raw sql given) :=
  .bind (fragment h hg) fun f hf => .pure (by rwa [Predicate.IsSettled])

end Filter

theorem Test.predicate_keeps (hs : setting.KeepsApart resolve) (call : String) (test : Test)
    {arguments : List Value} (h : test.Admits arguments) :
    Keeps setting (IsApart resolve base isOpen) Predicate.IsSettled (test.predicate call arguments) := by
  unfold Test.predicate
  split
  · exact Filter.routed_keeps hs Filter.route_equals _ h
  · exact Filter.compare_keeps hs _ _ h
  · exact Filter.member_keeps hs _ _ h
  · exact Filter.null_keeps _ _
  · exact Filter.between_keeps _ _ h.1 h.2
  · exact Filter.nonempty_keeps hs _ _
  · exact Filter.raw_keeps h nofun
  · exact Filter.raw_keeps h.1 fun v hv => Option.some.inj hv ▸ h.2
  · exact .throw _

theorem Filter.condition_keeps (hs : setting.KeepsApart resolve) (call : String) (f : Filter)
    {arguments : List Value} (h : f.test.Admits arguments) :
    Keeps setting (IsApart resolve base isOpen) Condition.IsSettled (f.condition call arguments) :=
  .bind (f.test.predicate_keeps hs call h) fun p hp => .pure (by rwa [Condition.IsSettled])

/-! ## What is read of an argument -/

namespace Checked

variable {α β : Type}

theorem of_map_eq_valid {f : α → β} {c : Checked α} {b : β} (h : c.map f = valid b) :
    ∃ a, c = valid a ∧ f a = b := by
  cases c with
  | valid a => exact ⟨a, rfl, valid.inj h⟩
  | invalid faults => cases h

theorem of_seq_eq_valid {f : Checked (α → β)} {c : Checked α} {b : β} (h : f <*> c = valid b) :
    ∃ g a, f = valid g ∧ c = valid a ∧ g a = b := by
  cases f with
  | valid g =>
    cases c with
    | valid a => exact ⟨g, a, rfl, rfl, valid.inj h⟩
    | invalid faults => cases h
  | invalid faults => cases c <;> cases h

theorem of_under_eq_valid {step : String} {c : Checked α} {a : α} (h : c.under step = valid a) :
    c = valid a := by
  cases c with
  | valid b => exact h
  | invalid faults => cases h

theorem of_either_eq_valid {c d : Checked α} {a : α} (h : c.either d = valid a) :
    c = valid a ∨ d = valid a := by
  cases c with
  | valid b => exact .inl h
  | invalid faults =>
    cases d with
    | valid b => exact .inr h
    | invalid others => cases h

theorem of_orReject_eq_ok {record : String} {c : Checked α} {a : α} (h : c.orReject record = .ok a) :
    c = valid a := by
  cases c with
  | valid b => rw [Except.ok.inj h]
  | invalid faults => cases h

end Checked

/-- An expression holds no object if it is a name, or if no fragment that is read holds one. -/
theorem Schema.expression_of_fragment {v : Value} (hf : ∀ f, fragment v = .valid f → f.IsSettled)
    {e : Expression} (h : expression v = .valid e) : e.IsSettled := by
  rcases Checked.of_either_eq_valid h with name | raw
  · obtain ⟨s, -, rfl⟩ := Checked.of_map_eq_valid (Checked.of_under_eq_valid name)
    rw [Expression.IsSettled]
    trivial
  · obtain ⟨f, read, rfl⟩ := Checked.of_map_eq_valid (Checked.of_under_eq_valid raw)
    rw [Expression.IsSettled]
    exact hf f read

/-- A fragment is read from a mapping, or it is given as it is. -/
theorem Schema.expression_settled {v : Value} (hv : v.IsTrusted) {e : Expression}
    (h : expression v = .valid e) : e.IsSettled := by
  refine expression_of_fragment (fun f read => ?_) h
  cases v with
  | fragment given =>
    obtain rfl := Checked.valid.inj read
    exact hv
  | mapping _ => exact hv.elim
  | scalar _ | list _ | tuple _ | query _ | part _ | bound _ | object _ => cases read

/-! ## Changes of a query -/

namespace Edit

/-- A change that brings no object into a query. -/
def Settles (change : Query → Query) : Prop :=
  ∀ q : Query, q.IsSettled → (change q).IsSettled

theorem settles_of_clauses {change : Query → Query}
    (h : ∀ q : Query, q.ClausesSettled → (change q).ClausesSettled) : Settles change :=
  fun q hq => Query.isSettled_iff.2 (h q (Query.isSettled_iff.1 hq))

theorem settles_selection {item : SelectItem} (h : item.IsSettled) : Settles (addSelection item) :=
  settles_of_clauses fun _ hq =>
    { hq with selection := List.forall_mem_append.2 ⟨hq.selection, List.forall_mem_singleton.2 h⟩ }

theorem settles_distinct : Settles fun q => { q with distinct := true } :=
  settles_of_clauses fun _ hq => { hq with }

theorem settles_source {s : Source} (h : s.IsSettled) : Settles (setSource s) :=
  settles_of_clauses fun _ hq =>
    { hq with source := by rwa [setSource, Source.OptionSettled] }

theorem settles_join {j : Join} (h : j.IsSettled) :
    Settles fun q => { q with joins := q.joins ++ [j] } :=
  settles_of_clauses fun _ hq =>
    { hq with joins := List.forall_mem_append.2 ⟨hq.joins, List.forall_mem_singleton.2 h⟩ }

theorem settles_cte {c : Cte} (h : c.IsSettled) :
    Settles fun q => { q with ctes := q.ctes ++ [c] } :=
  settles_of_clauses fun _ hq =>
    { hq with ctes := List.forall_mem_append.2 ⟨hq.ctes, List.forall_mem_singleton.2 h⟩ }

theorem settles_condition {c : Condition} (h : c.IsSettled) : Settles (addCondition c) :=
  settles_of_clauses fun _ hq =>
    { hq with conditions := List.forall_mem_append.2 ⟨hq.conditions, List.forall_mem_singleton.2 h⟩ }

theorem settles_having {c : Condition} (h : c.IsSettled) : Settles (addHaving c) :=
  settles_of_clauses fun _ hq =>
    { hq with having := List.forall_mem_append.2 ⟨hq.having, List.forall_mem_singleton.2 h⟩ }

theorem settles_grouping {e : Expression} (h : e.IsSettled) : Settles (addGrouping e) :=
  settles_of_clauses fun _ hq =>
    { hq with grouping := List.forall_mem_append.2 ⟨hq.grouping, List.forall_mem_singleton.2 h⟩ }

theorem settles_ordering {item : OrderItem} (h : item.IsSettled) : Settles (addOrdering item) :=
  settles_of_clauses fun _ hq =>
    { hq with ordering := List.forall_mem_append.2 ⟨hq.ordering, List.forall_mem_singleton.2 h⟩ }

theorem settled_bound {rows : Value} (h : rows.IsSettled) : Value.OptionSettled (bound? rows) := by
  unfold bound?
  split
  · rw [Value.OptionSettled]
    trivial
  · rwa [Value.OptionSettled]

theorem settles_limit {rows : Value} (h : rows.IsSettled) : Settles (setLimit rows) :=
  settles_of_clauses fun _ hq => { hq with limit := settled_bound h }

theorem settles_offset {rows : Value} (h : rows.IsSettled) : Settles (setOffset rows) :=
  settles_of_clauses fun _ hq => { hq with offset := settled_bound h }

theorem settles_setOperation {member : Query} (operator : SetOperator) (h : member.IsSettled) :
    Settles (addSetOperation operator member) := by
  have own : SetOperation.IsSettled ⟨operator, member⟩ := by rwa [SetOperation.IsSettled]
  exact settles_of_clauses fun _ hq =>
    { hq with
      setOperations := List.forall_mem_append.2 ⟨hq.setOperations, List.forall_mem_singleton.2 own⟩ }

/-! ## The calls of a builder -/

/-- While the changes of an edit are worked out objects stay apart, and none of the changes brings an
object into a query. -/
def IsSafe (setting : Setting) (resolve : String → Except Failure Value) (base : Store)
    (isOpen : Nat → Prop) (edit : Edit) : Prop :=
  ∀ work ∈ edit, Keeps setting (IsApart resolve base isOpen) Settles work

theorem safe_change {work : Action (Query → Query)}
    (h : Keeps setting (IsApart resolve base isOpen) Settles work) :
    IsSafe setting resolve base isOpen (change work) :=
  List.forall_mem_singleton.2 h

theorem safe_refused (failure : Failure) : IsSafe setting resolve base isOpen (.refused failure) :=
  List.forall_mem_singleton.2 (.throw failure)

theorem reading_keeps {α : Type} {g : α → Prop} {record : String} {checked : Checked α}
    (h : ∀ a, checked = .valid a → g a) :
    Keeps setting (IsApart resolve base isOpen) g (reading record checked) :=
  .ofExcept fun a ha => h a (Checked.of_orReject_eq_ok ha)

theorem selectItem_keeps {expression : Checked Expression}
    (h : ∀ e, expression = .valid e → e.IsSettled) (given : Option Value) :
    Keeps setting (IsApart resolve base isOpen) SelectItem.IsSettled (selectItem expression given) := by
  refine reading_keeps fun item hi => ?_
  obtain ⟨make, name, hm, -, rfl⟩ := Checked.of_seq_eq_valid hi
  obtain ⟨e, he, rfl⟩ := Checked.of_map_eq_valid hm
  rw [SelectItem.IsSettled]
  exact h e (Checked.of_under_eq_valid he)

theorem select_safe {columns : List Value} (h : ∀ column ∈ columns, column.IsTrusted) :
    IsSafe setting resolve base isOpen (select columns) :=
  List.forall_mem_map.2 fun column hc =>
    .bind (selectItem_keeps (fun _ => Schema.expression_settled (h column hc)) none) fun _ hi =>
      .pure (settles_selection hi)

theorem selectRaw_safe {sql : Value} {given : Option Value} (h : sql.IsTrusted)
    (hg : ∀ v, given = some v → v.IsBindings) :
    IsSafe setting resolve base isOpen (selectRaw sql given) :=
  safe_change <| .bind (.fragment h hg) fun f hf =>
    .pure (settles_selection (by rwa [SelectItem.IsSettled, Expression.IsSettled]))

theorem aggregate_safe (function : String) (column : Value) (given : Option Value) :
    IsSafe setting resolve base isOpen (aggregate function column given) := by
  refine safe_change (.bind (.write column) fun written _ => .bind (selectItem_keeps ?_ given) fun _ hi =>
    .pure (settles_selection hi))
  rintro _ ⟨⟩
  rw [Expression.IsSettled]
  trivial

theorem table_safe (name : Value) (given : Option Value) :
    IsSafe setting resolve base isOpen (table name given) := by
  refine safe_change (.bind (reading_keeps fun s hs => ?_) fun s hs => .pure (settles_source hs))
  obtain ⟨make, label, hm, -, rfl⟩ := Checked.of_seq_eq_valid hs
  obtain ⟨name, -, rfl⟩ := Checked.of_map_eq_valid hm
  rw [Source.IsSettled, Query.OptionSettled]
  trivial

theorem subquery_safe (hs : setting.KeepsApart resolve) (query given : Value) :
    IsSafe setting resolve base isOpen (subquery query given) := by
  refine safe_change (.bind (.query hs query) fun inner hi => .bind (reading_keeps fun s hr => ?_)
    fun s hs => .pure (settles_source hs))
  obtain ⟨label, -, rfl⟩ := Checked.of_map_eq_valid hr
  rwa [Source.IsSettled, Query.OptionSettled]

theorem joinTarget_keeps (hs : setting.KeepsApart resolve) (target : Value) :
    Keeps setting (IsApart resolve base isOpen) JoinTarget.IsSettled (joinTarget target) := by
  unfold joinTarget
  split
  · exact .pure (by rw [JoinTarget.IsSettled]; trivial)
  · exact .map (.query hs target) fun q hq => by rwa [JoinTarget.IsSettled]

theorem joinCondition_keeps {on : Option Value} (h : ∀ v, on = some v → v.IsTrusted) :
    Keeps setting (IsApart resolve base isOpen) Fragment.OptionSettled (joinCondition on) := by
  unfold joinCondition
  split
  · exact .pure (by rw [Fragment.OptionSettled]; trivial)
  · exact .pure (by rw [Fragment.OptionSettled]; trivial)
  · exact .map (.fragment (h _ rfl) nofun) fun f hf => by rwa [Fragment.OptionSettled]

theorem join_safe (hs : setting.KeepsApart resolve) (kind : JoinKind) (target : Value)
    {on : Option Value} (h : ∀ v, on = some v → v.IsTrusted) (given : Option Value) :
    IsSafe setting resolve base isOpen (join kind target on given) := by
  refine safe_change (.bind (joinTarget_keeps hs target) fun t ht => .bind (joinCondition_keeps h)
    fun f hf => .bind (reading_keeps fun j hj => ?_) fun j hj => .pure (settles_join hj))
  obtain ⟨label, -, rfl⟩ := Checked.of_map_eq_valid hj
  rw [Join.IsSettled]
  exact ⟨ht, hf⟩

theorem cteBody_keeps (hs : setting.KeepsApart resolve) {body : Value} (h : body.IsTrusted) :
    Keeps setting (IsApart resolve base isOpen) CteBody.IsSettled (cteBody body) := by
  unfold cteBody
  split
  · exact .pure (by rw [CteBody.IsSettled, Fragment.IsSettled, Value.AllSettled]; trivial)
  · exact .pure (by rw [CteBody.IsSettled]; exact h)
  · exact .map (.query hs body) fun q hq => by rwa [CteBody.IsSettled]

theorem cteColumns_keeps (columns : Option Value) :
    Keeps setting (IsApart resolve base isOpen) (fun _ => True) (cteColumns columns) := by
  unfold cteColumns
  split
  · exact .pure trivial
  · split
    · exact .bind (.anyOf _) fun _ _ => .pure trivial
    · exact .pure trivial

theorem cte_safe (hs : setting.KeepsApart resolve) (isRecursive : Bool) (name : Value) {body : Value}
    (h : body.IsTrusted) (columns : Option Value) :
    IsSafe setting resolve base isOpen (cte isRecursive name body columns) := by
  refine safe_change (.bind (cteBody_keeps hs h) fun b hb => .bind (cteColumns_keeps columns)
    fun names _ => .bind (reading_keeps fun c hc => ?_) fun c hc => .pure (settles_cte hc))
  obtain ⟨make, names, hm, -, rfl⟩ := Checked.of_seq_eq_valid hc
  obtain ⟨name, -, rfl⟩ := Checked.of_map_eq_valid hm
  rwa [Cte.IsSettled]

theorem filter_safe (hs : setting.KeepsApart resolve) (call : String) (f : Filter)
    {arguments : List Value} (h : f.test.Admits arguments) :
    IsSafe setting resolve base isOpen (filter call f arguments) :=
  safe_change <| .bind (f.condition_keeps hs call h) fun _ hc => .pure (settles_condition hc)

theorem having_safe (hs : setting.KeepsApart resolve) (call : String) (f : Filter)
    {arguments : List Value} (h : f.test.Admits arguments) :
    IsSafe setting resolve base isOpen (having call f arguments) :=
  safe_change <| .bind (f.condition_keeps hs call h) fun _ hc => .pure (settles_having hc)

theorem groupBy_safe (columns : List Value) : IsSafe setting resolve base isOpen (groupBy columns) :=
  List.forall_mem_map.2 fun column _ => .bind (.write column) fun _ _ =>
    .pure (settles_grouping (by rw [Expression.IsSettled]; trivial))

theorem groupByRaw_safe {sql : Value} {given : Option Value} (h : sql.IsTrusted)
    (hg : ∀ v, given = some v → v.IsBindings) :
    IsSafe setting resolve base isOpen (groupByRaw sql given) :=
  safe_change <| .bind (.fragment h hg) fun f hf =>
    .pure (settles_grouping (by rwa [Expression.IsSettled]))

theorem orderBy_safe {column : Value} (h : column.IsTrusted) (given : Option Value) :
    IsSafe setting resolve base isOpen (orderBy column given) := by
  refine safe_change (.bind (.anyOf _) fun direction _ => .bind (reading_keeps fun item hi => ?_)
    fun item hi => .pure (settles_ordering hi))
  obtain ⟨make, direction, hm, -, rfl⟩ := Checked.of_seq_eq_valid hi
  obtain ⟨e, he, rfl⟩ := Checked.of_map_eq_valid hm
  rw [OrderItem.IsSettled]
  exact Schema.expression_settled h (Checked.of_under_eq_valid he)

theorem orderByRaw_safe {sql : Value} {given : Option Value} (h : sql.IsTrusted)
    (hg : ∀ v, given = some v → v.IsBindings) :
    IsSafe setting resolve base isOpen (orderByRaw sql given) :=
  safe_change <| .bind (.fragment h hg) fun f hf =>
    .pure (settles_ordering (by rwa [OrderItem.IsSettled, Expression.IsSettled]))

theorem combine_safe (hs : setting.KeepsApart resolve) (operator : SetOperator) (query : Value) :
    IsSafe setting resolve base isOpen (combine operator query) :=
  safe_change <| .bind (.query hs query) fun _ hq => .pure (settles_setOperation operator hq)

/-- The changes of an edit are made one by one on one object. -/
theorem apply_keeps {number : Nat} (hn : MayChange base isOpen number) {edit : Edit}
    (h : IsSafe setting resolve base isOpen edit) :
    Keeps setting (IsApart resolve base isOpen) (fun _ => True) (edit.apply number) := by
  refine .forM fun work hw => .bind (h work hw) fun change hc => ?_
  have found : Keeps setting (IsApart resolve base isOpen)
      (fun b : Builder => b.query.IsSettled ∧
        (number < base.contents.length → (base.builder? number).isSome = true))
      (Action.known Store.builder? number) :=
    .known fun s b hs hb => ⟨hs.builder hb, fun old => by rw [← hs.builders number old, hb]; rfl⟩
  exact .bind found fun b hb => .update fun _ ha => ha.set hn hb.2 (hc b.query hb.1)

end Edit

theorem Method.edit_safe (hs : setting.KeepsApart resolve) (name : String) (m : Method)
    {arguments : List Value} (h : m.Admits arguments) :
    Edit.IsSafe setting resolve base isOpen (m.edit name arguments) := by
  have given {v : Value} (hv : v.IsBindings) : ∀ w, some v = some w → w.IsBindings :=
    fun _ hw => Option.some.inj hw ▸ hv
  have trusted {v : Value} (hv : v.IsTrusted) : ∀ w, some v = some w → w.IsTrusted :=
    fun _ hw => Option.some.inj hw ▸ hv
  have absent : ∀ w : Value, none = some w → w.IsTrusted := nofun
  unfold Method.edit
  split
  · exact Edit.cte_safe hs _ _ h _
  · exact Edit.cte_safe hs _ _ h _
  · exact Edit.select_safe h
  · exact Edit.selectRaw_safe h nofun
  · exact Edit.selectRaw_safe h.1 (given h.2)
  · exact Edit.safe_change (.pure Edit.settles_distinct)
  · exact Edit.aggregate_safe _ _ _
  · exact Edit.aggregate_safe _ _ _
  · exact Edit.aggregate_safe _ _ _
  · exact Edit.table_safe _ _
  · exact Edit.table_safe _ _
  · exact Edit.subquery_safe hs _ _
  · exact Edit.join_safe hs _ _ absent _
  · exact Edit.join_safe hs _ _ absent _
  · exact Edit.safe_refused _
  · exact Edit.join_safe hs _ _ absent _
  · exact Edit.join_safe hs _ _ (trusted h) _
  · exact Edit.join_safe hs _ _ (trusted h) _
  · exact Edit.filter_safe hs _ _ h
  · exact Edit.groupBy_safe _
  · exact Edit.groupByRaw_safe h nofun
  · exact Edit.groupByRaw_safe h.1 (given h.2)
  · exact Edit.having_safe hs _ _ h
  · exact Edit.orderBy_safe h _
  · exact Edit.orderBy_safe h _
  · exact Edit.orderByRaw_safe h nofun
  · exact Edit.orderByRaw_safe h.1 (given h.2)
  · exact Edit.safe_change (.pure (Edit.settles_limit h))
  · exact Edit.safe_change (.pure (Edit.settles_offset h))
  · exact Edit.combine_safe hs _ _
  · exact Edit.safe_refused _

end SqlComposition
