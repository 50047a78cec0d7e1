import SqlComposition.Proofs.Likeness

/-!
Changes that a call makes in two runs. Step by step, what is worked out of steady arguments looks the same
in both runs, and so does the change that is made of it.
-/

namespace SqlComposition
open SqlComposition.Action Store

variable {setting : Setting} {number : Nat} {s t s' t' : Store}

/-! ## Operands and fragments -/

namespace Action.Alike

variable {v : Value}

theorem operand (h : v.IsSteady setting number s t) :
    Alike setting number s t (.by Value.mapObjects) (Action.operand v) (Action.operand v) := by
  have query := h.query
  have kept := h.kept
  unfold Action.operand
  split
  · exact map query fun _ _ _ _ => Likeness.made Value.mapObjects_query
  · exact pure kept

theorem operands {items : List Value} (h : ∀ item ∈ items, item.IsSteady setting number s t) :
    Alike setting number s t (.by fun f => List.map (Value.mapObjects f)) (items.mapM Action.operand)
      (items.mapM Action.operand) :=
  mapM (fun item _ _ => Adds.operand item) fun item hi => operand (h item hi)

variable {sql : Value} {given : Option Value}

theorem bindings (h : GivenSteady setting number s t given) :
    Alike setting number s t (.by fun f => List.map (Value.mapObjects f)) (Action.bindings given)
      (Action.bindings given) := by
  have none : Alike setting number s t (.by fun f => List.map (Value.mapObjects f))
      (Pure.pure [] : Action (List Value)) (Pure.pure []) := pure (.of_forall fun _ _ => rfl)
  cases given with
  | none => exact none
  | some v =>
    rw [Action.bindings]
    split
    · exact read fun items hi => operands ((h v rfl).items items (Value.items?_of_items hi))
    · exact none

theorem fragment (hsql : sql.IsSteady setting number s t) (h : GivenSteady setting number s t given) :
    Alike setting number s t (.by Fragment.mapObjects) (Action.fragment sql given)
      (Action.fragment sql given) := by
  have kept := hsql.kept
  unfold Action.fragment
  split
  · refine pure (kept.imp fun f g like => ?_)
    rw [Value.mapObjects_fragment, Value.mapObjects_fragment] at like
    exact Value.fragment.inj like
  · refine bind (fun _ => Adds.bindings given) (bindings h) fun s' t' values values' _ _ like => ?_
    exact read fun text _ => pure (like.imp fun _ _ => Likeness.made fun f => Fragment.mapObjects_mk f text)

theorem members (hs : setting.Adds) (h : v.IsSteadyArgument setting number s t) :
    Alike setting number s t (.by Members.mapObjects) (Action.members v) (Action.members v) := by
  have kept := h.kept
  have query := h.query
  have items := h.items
  have single : Eventually number s t fun f g =>
      Likeness.by Members.mapObjects f g (.listed [v]) (.listed [v]) :=
    kept.imp fun f g like => by
      rw [Likeness.by, Members.mapObjects_listed, Members.mapObjects_listed, List.map_singleton, like]
      rfl
  unfold Action.members
  split
  · exact bind (fun _ => Adds.query hs _) query fun _ _ _ _ _ _ like =>
      pure (like.imp fun _ _ => Likeness.made Members.mapObjects_query)
  · exact bind (fun _ => Adds.query hs _) query fun _ _ _ _ _ _ like =>
      pure (like.imp fun _ _ => Likeness.made Members.mapObjects_query)
  · exact pure single
  · exact pure single
  · split
    · exact pure single
    · rename_i values found
      exact bind (fun _ => Adds.operands values) (operands (items values found)) fun _ _ _ _ _ _ like =>
        pure (like.imp fun _ _ => Likeness.made Members.mapObjects_listed)

end Action.Alike

/-! ## Conditions -/

namespace Filter

variable {column value : Value}

theorem ends_steady (h : value.IsSteadyArgument setting number s t) :
    (ends value).1.IsSteady setting number s t ∧ (ends value).2.IsSteady setting number s t := by
  have items := h.items
  have whole := h.toIsSteady
  unfold ends
  split
  · exact ⟨items _ rfl _ (by simp), items _ rfl _ (by simp)⟩
  · exact ⟨items _ rfl _ (by simp), items _ rfl _ (by simp)⟩
  · exact ⟨whole, whole⟩

theorem between_alike {low high : Value} (hl : low.IsSteady setting number s t)
    (hh : high.IsSteady setting number s t) (negated : Bool) :
    Alike setting number s t (.by Predicate.mapObjects) (between negated column low high)
      (between negated column low high) := by
  refine .bind (fun _ => Adds.operand low) (.operand hl) fun s' t' a a' hs ht first => ?_
  refine .bind (fun _ => Adds.operand high) (.operand (hh.later hs ht)) fun _ _ b b' hs ht second => ?_
  refine .read fun column _ => .pure ((first.later hs ht).mp (second.imp fun f g high low => ?_))
  rw [Likeness.by, Predicate.mapObjects_between, Predicate.mapObjects_between, low, high]

theorem member_alike (hs : setting.Adds) (h : value.IsSteadyArgument setting number s t) (negated : Bool) :
    Alike setting number s t (.by Predicate.mapObjects) (member negated column value)
      (member negated column value) :=
  .bind (fun _ => Adds.members hs value) (.members hs h) fun _ _ _ _ _ _ like => .read fun column _ =>
    .pure (like.imp fun f g like => by
      rw [Likeness.by, Predicate.mapObjects_member, Predicate.mapObjects_member, like])

theorem null_alike (negated : Bool) :
    Alike setting number s t (.by Predicate.mapObjects) (null negated column) (null negated column) := by
  refine .read fun column _ => .pure (.of_forall fun f g => ?_)
  rw [Likeness.by, Predicate.mapObjects, Predicate.mapObjects, Predicate.traverse, Predicate.traverse]

theorem raw_alike {sql : Value} {given : Option Value} (hsql : sql.IsSteady setting number s t)
    (h : GivenSteady setting number s t given) :
    Alike setting number s t (.by Predicate.mapObjects) (raw sql given) (raw sql given) :=
  .bind (fun _ => Adds.fragment sql given) (.fragment hsql h) fun _ _ _ _ _ _ like =>
    .pure (like.imp fun f g like => by
      rw [Likeness.by, Predicate.mapObjects_raw, Predicate.mapObjects_raw, like])

theorem routed_alike (hs : setting.Adds) (operator : String)
    (h : value.IsSteadyArgument setting number s t) :
    Alike setting number s t (.by Predicate.mapObjects) (routed operator column value)
      (routed operator column value) := by
  unfold routed
  split
  · exact member_alike hs h _
  · exact null_alike _
  · exact between_alike (ends_steady h).1 (ends_steady h).2 _
  · exact .bind (fun _ => Adds.operand value) (.operand h.toIsSteady) fun _ _ _ _ _ _ like =>
      .read fun column _ => .pure (like.imp fun f g like => by
        rw [Likeness.by, Predicate.mapObjects_comparison, Predicate.mapObjects_comparison, like])

theorem compare_alike (hs : setting.Adds) {operator : Value}
    (ho : operator.IsSteadyArgument setting number s t) (h : value.IsSteadyArgument setting number s t) :
    Alike setting number s t (.by Predicate.mapObjects) (compare column operator value)
      (compare column operator value) := by
  rw [compare]
  split
  · exact .bindSame (fun _ => .write operator) ho.text fun _ _ _ hs' ht' =>
      routed_alike hs _ (h.later hs' ht')
  · exact routed_alike hs (normalize "=") h

end Filter

theorem Test.predicate_alike (hs : setting.Adds) (call : String) (test : Test) {arguments : List Value}
    (h : ∀ v ∈ arguments, v.IsSteadyArgument setting number s t) :
    Alike setting number s t (.by Predicate.mapObjects) (test.predicate call arguments)
      (test.predicate call arguments) := by
  unfold Test.predicate
  split
  · exact Filter.routed_alike hs _ (h _ (by simp))
  · exact Filter.compare_alike hs (h _ (by simp)) (h _ (by simp))
  · exact Filter.member_alike hs (h _ (by simp)) _
  · exact Filter.null_alike _
  · exact Filter.between_alike (h _ (by simp)).toIsSteady (h _ (by simp)).toIsSteady _
  · exact .bind (fun _ => Adds.query hs _) (h _ (by simp)).query fun _ _ _ _ _ _ like =>
      .pure (like.imp fun f g like => by
        rw [Likeness.by, Predicate.mapObjects_nonempty, Predicate.mapObjects_nonempty, like])
  · exact Filter.raw_alike (h _ (by simp)).toIsSteady .none
  · exact Filter.raw_alike (h _ (by simp)).toIsSteady (.some (h _ (by simp)))
  · exact .throw _ _

theorem Filter.condition_alike (hs : setting.Adds) (call : String) (x : Filter) {arguments : List Value}
    (h : ∀ v ∈ arguments, v.IsSteadyArgument setting number s t) :
    Alike setting number s t (.by Condition.mapObjects) (x.condition call arguments)
      (x.condition call arguments) :=
  .bind (fun _ => x.test.predicate_adds hs call arguments) (x.test.predicate_alike hs call h)
    fun _ _ _ _ _ _ like => .pure (like.imp fun f g like => by
      rw [Likeness.by, Condition.mapObjects_mk, Condition.mapObjects_mk, like])

/-! ## The calls of a builder -/

/-- Two functions that make changes of one kind which look the same. -/
def Likeness.changes (kind : ClauseKind) : Likeness (Query → Query) :=
  fun f g first second => ∃ c d : Change, first = c.apply ∧ second = d.apply ∧ c.kind = kind ∧
    d.kind = kind ∧ c.mapObjects f = d.mapObjects g

namespace Edit

/-- Each step of an edit works out changes that are alike. -/
def Alike (setting : Setting) (number : Nat) (s t : Store) (kind : ClauseKind) (edit : Edit) : Prop :=
  ∀ work ∈ edit, Action.Alike setting number s t (.changes kind) work work

theorem alike_change {kind : ClauseKind} {work : Action (Query → Query)}
    (h : Action.Alike setting number s t (.changes kind) work work) :
    Alike setting number s t kind (change work) :=
  List.forall_mem_singleton.2 h

theorem alike_refused (kind : ClauseKind) (failure : Failure) :
    Alike setting number s t kind (.refused failure) :=
  List.forall_mem_singleton.2 (.throw failure _)

variable {α : Type} {kind : ClauseKind}

/-- The work ends in changes that are made of what has been worked out. -/
theorem alike_ends (make : α → Change) {look : (Object → Object) → α → α} {a a' : α}
    (hk : ∀ a, (make a).kind = kind) (hm : ∀ f a, (make a).mapObjects f = make (look f a))
    (like : Eventually number s t fun f g => Likeness.by look f g a a') :
    Action.Alike setting number s t (.changes kind) (pure (make a).apply) (pure (make a').apply) :=
  .pure (like.imp fun _ _ like => ⟨make a, make a', rfl, rfl, hk a, hk a', Likeness.made hm like⟩)

/-- Both runs end in one change, with no object in it. -/
theorem alike_same (c : Change) (hm : ∀ f, c.mapObjects f = c) :
    Action.Alike setting number s t (.changes c.kind) (pure c.apply) (pure c.apply) :=
  .pure (.of_forall fun f g => ⟨c, c, rfl, rfl, rfl, rfl, (hm f).trans (hm g).symm⟩)

/-- What is read of the same arguments in both runs is put together with what was worked out in each. -/
theorem alike_reading {β γ : Type} {R : Likeness γ} {record : String} {checked : Checked β}
    {make make' : β → α} {next next' : α → Action γ}
    (h : ∀ b, Action.Alike setting number s t R (next (make b)) (next' (make' b))) :
    Action.Alike setting number s t R (reading record (make <$> checked) >>= next)
      (reading record (make' <$> checked) >>= next') := by
  cases checked with
  | valid b => exact h b
  | invalid faults => exact .throw _ _

theorem alike_reading_two {β β' γ : Type} {R : Likeness γ} {record : String} {first : Checked β}
    {second : Checked β'} {make make' : β → β' → α} {next next' : α → Action γ}
    (h : ∀ b c, Action.Alike setting number s t R (next (make b c)) (next' (make' b c))) :
    Action.Alike setting number s t R (reading record (make <$> first <*> second) >>= next)
      (reading record (make' <$> first <*> second) >>= next') := by
  cases first <;> cases second
  case valid.valid b c => exact h b c
  all_goals exact .throw _ _

variable {sql : Value} {given : Option Value}

theorem of_selectItem {expression : Checked Expression} {item : SelectItem}
    (h : (SelectItem.mk <$> expression.under "expr" <*> label given).orReject "SelectItem" = .ok item) :
    ∃ e label, expression = .valid e ∧ item = ⟨e, label⟩ := by
  obtain ⟨make, label, made, -, rfl⟩ := Checked.of_seq_eq_valid (Checked.of_orReject_eq_ok h)
  obtain ⟨e, found, rfl⟩ := Checked.of_map_eq_valid made
  exact ⟨e, label, Checked.of_under_eq_valid found, rfl⟩

theorem select_alike {columns : List Value} (h : ∀ v ∈ columns, v.IsSteadyArgument setting number s t) :
    Alike setting number s t .selection (select columns) := by
  refine List.forall_mem_map.2 fun column hc => .read fun item hi => ?_
  obtain ⟨e, label, found, rfl⟩ := of_selectItem hi
  exact alike_ends (fun e => .clause (.selectItem ⟨e, label⟩)) (fun _ => rfl)
    (fun f e => congrArg Change.clause (Clause.mapObjects_item f e label)) ((h column hc).expression e found)

theorem selectRaw_alike (hsql : sql.IsSteady setting number s t) (h : GivenSteady setting number s t given) :
    Alike setting number s t .selection (selectRaw sql given) :=
  alike_change <| .bind (fun _ => Adds.fragment sql given) (.fragment hsql h) fun _ _ _ _ _ _ like =>
    alike_ends (fun x => .clause (.selectItem ⟨.raw x, none⟩)) (fun _ => rfl)
      (fun f x => congrArg Change.clause (Clause.mapObjects_selectItem f x none)) like

theorem aggregate_alike (function : String) {column : Value} (h : column.IsSteady setting number s t)
    (given : Option Value) : Alike setting number s t .selection (aggregate function column given) :=
  alike_change <| .bindSame (fun _ => .write column) h.text fun _ _ written _ _ => .read fun item hi => by
    obtain ⟨e, label, found, rfl⟩ := of_selectItem hi
    obtain rfl := Checked.valid.inj found
    refine alike_same (.clause (.selectItem ⟨.name _, label⟩)) fun f => congrArg Change.clause ?_
    rw [Clause.mapObjects, SelectItem.traverse, Expression.traverse]
    rfl

theorem table_alike (name : Value) (given : Option Value) :
    Alike setting number s t .source (table name given) :=
  alike_change <| .read fun x hx => by
    obtain ⟨make, label, made, -, rfl⟩ := Checked.of_seq_eq_valid (Checked.of_orReject_eq_ok hx)
    obtain ⟨name, -, rfl⟩ := Checked.of_map_eq_valid made
    refine alike_same (.clause (.source ⟨name, none, label⟩)) fun f => congrArg Change.clause ?_
    rw [Clause.mapObjects, Source.traverse, Query.traverseOption]
    rfl

theorem subquery_alike (hs : setting.Adds) {query : Value} (h : query.IsSteady setting number s t)
    (label : Value) : Alike setting number s t .source (subquery query label) :=
  alike_change <| .bind (fun _ => Adds.query hs query) h.query fun _ _ _ _ _ _ like =>
    alike_reading fun label => alike_ends (fun q => .clause (.source ⟨none, some q, label⟩)) (fun _ => rfl)
      (fun f q => congrArg Change.clause (Clause.mapObjects_source f none label q)) like

/-- Replaces the objects in the target of a join. -/
theorem joinTarget_alike {target : Value} (h : target.IsSteady setting number s t) :
    Action.Alike setting number s t (.by fun f (x : JoinTarget) => Id.run (x.traverse fun o => pure (f o)))
      (joinTarget target) (joinTarget target) := by
  have query := h.query
  unfold joinTarget
  split
  · exact .pure (.of_forall fun f g => by rw [Likeness.by, JoinTarget.traverse, JoinTarget.traverse])
  · exact .map query fun f g q q' like => by
      rw [Likeness.by, JoinTarget.traverse, JoinTarget.traverse]
      exact congrArg JoinTarget.query like

theorem joinCondition_alike {on : Option Value} (h : GivenSteady setting number s t on) :
    Action.Alike setting number s t (.by fun f => Option.map (Fragment.mapObjects f)) (joinCondition on)
      (joinCondition on) := by
  unfold joinCondition
  split
  · exact .pure (.of_forall fun _ _ => rfl)
  · exact .pure (.of_forall fun _ _ => rfl)
  · exact .map (.fragment (h _ rfl).toIsSteady .none) fun f g x y like => congrArg some like

theorem join_alike (hs : setting.Adds) (kind : JoinKind) {target : Value} {on : Option Value}
    (ht : target.IsSteady setting number s t) (ho : GivenSteady setting number s t on)
    (given : Option Value) : Alike setting number s t .joins (join kind target on given) := by
  refine alike_change <| .bind (fun _ => joinTarget_adds hs target) (joinTarget_alike ht)
    fun _ _ x x' hs' ht' target => ?_
  refine .bind (fun _ => joinCondition_adds on) (joinCondition_alike (GivenSteady.later ho hs' ht'))
    fun s'' t'' y y' hs' ht' condition => alike_reading fun label => ?_
  let look (f : Object → Object) (parts : JoinTarget × Option Fragment) : JoinTarget × Option Fragment :=
    (Id.run (parts.1.traverse fun o => pure (f o)), parts.2.map (·.mapObjects f))
  have parts : Eventually number s'' t'' fun f g => Likeness.by look f g (x, y) (x', y') :=
    (target.later hs' ht').mp (condition.imp fun f g on target => Prod.ext target on)
  exact alike_ends (fun parts => .clause (.join ⟨kind, parts.1, label, parts.2⟩)) (fun _ => rfl)
    (fun f parts => congrArg Change.clause (Clause.mapObjects_join f kind parts.1 label parts.2)) parts

theorem cteBody_alike {body : Value} (h : body.IsSteady setting number s t) :
    Action.Alike setting number s t (.by fun f (x : CteBody) => Id.run (x.traverse fun o => pure (f o)))
      (cteBody body) (cteBody body) := by
  have kept := h.kept
  have query := h.query
  unfold cteBody
  split
  · exact .pure (.of_forall fun f g => by
      rw [Likeness.by, CteBody.run_traverse_raw, CteBody.run_traverse_raw, Fragment.mapObjects_mk]
      rfl)
  · exact .pure (kept.imp fun f g like => by
      rw [Value.mapObjects_fragment, Value.mapObjects_fragment] at like
      rw [Likeness.by, CteBody.run_traverse_raw, CteBody.run_traverse_raw, Value.fragment.inj like])
  · exact .map query fun f g q q' like => by
      rw [Likeness.by, CteBody.traverse, CteBody.traverse]
      exact congrArg CteBody.query like

theorem cteColumns_alike (columns : Option Value) :
    Action.Alike setting number s t .same (cteColumns columns) (cteColumns columns) := by
  unfold cteColumns
  split
  · exact .pure (.of_forall fun _ _ => rfl)
  · split
    · exact .read fun names _ => .pure (.of_forall fun _ _ => rfl)
    · exact .pure (.of_forall fun _ _ => rfl)

theorem cte_alike (hs : setting.Adds) (isRecursive : Bool) (name : Value) {body : Value}
    (h : body.IsSteady setting number s t) (columns : Option Value) :
    Alike setting number s t .ctes (cte isRecursive name body columns) := by
  refine alike_change <| .bind (fun _ => cteBody_adds hs body) (cteBody_alike h) fun _ _ _ _ _ _ like => ?_
  refine .bindSame (fun _ => cteColumns_adds columns) (cteColumns_alike columns) fun _ _ checked hs ht =>
    alike_reading_two fun name columns => ?_
  exact alike_ends (fun body => .clause (.cte ⟨name, columns, body, isRecursive⟩)) (fun _ => rfl)
    (fun f body => congrArg Change.clause (Clause.mapObjects_cte f name columns body isRecursive))
    (like.later hs ht)

theorem filter_alike (hs : setting.Adds) (call : String) (x : Filter) {arguments : List Value}
    (h : ∀ v ∈ arguments, v.IsSteadyArgument setting number s t) :
    Alike setting number s t .conditions (filter call x arguments) :=
  alike_change <| .bind (fun _ => x.condition_adds hs call arguments) (x.condition_alike hs call h)
    fun _ _ _ _ _ _ like => alike_ends (fun c => .clause (.condition c)) (fun _ => rfl) (fun _ _ => rfl) like

theorem having_alike (hs : setting.Adds) (call : String) (x : Filter) {arguments : List Value}
    (h : ∀ v ∈ arguments, v.IsSteadyArgument setting number s t) :
    Alike setting number s t .having (having call x arguments) :=
  alike_change <| .bind (fun _ => x.condition_adds hs call arguments) (x.condition_alike hs call h)
    fun _ _ _ _ _ _ like => alike_ends (fun c => .clause (.having c)) (fun _ => rfl) (fun _ _ => rfl) like

theorem groupBy_alike {columns : List Value} (h : ∀ v ∈ columns, v.IsSteadyArgument setting number s t) :
    Alike setting number s t .grouping (groupBy columns) :=
  List.forall_mem_map.2 fun column hc => .bindSame (fun _ => .write column) (h column hc).text
    fun _ _ written _ _ => alike_same (.clause (.grouping (.name written))) fun f => congrArg Change.clause (by
      rw [Clause.mapObjects, Expression.traverse]
      rfl)

theorem groupByRaw_alike (hsql : sql.IsSteady setting number s t)
    (h : GivenSteady setting number s t given) :
    Alike setting number s t .grouping (groupByRaw sql given) :=
  alike_change <| .bind (fun _ => Adds.fragment sql given) (.fragment hsql h) fun _ _ _ _ _ _ like =>
    alike_ends (fun x => .clause (.grouping (.raw x))) (fun _ => rfl)
      (fun f x => congrArg Change.clause (Clause.mapObjects_grouping f x)) like

theorem orderBy_alike {column : Value} (h : column.IsSteady setting number s t) (given : Option Value) :
    Alike setting number s t .ordering (orderBy column given) :=
  alike_change <| .read fun direction _ => .read fun item hi => by
    obtain ⟨make, direction, made, -, rfl⟩ := Checked.of_seq_eq_valid (Checked.of_orReject_eq_ok hi)
    obtain ⟨e, found, rfl⟩ := Checked.of_map_eq_valid made
    exact alike_ends (fun e => .clause (.ordering ⟨e, direction⟩)) (fun _ => rfl)
      (fun f e => congrArg Change.clause (Clause.mapObjects_order f e direction))
      (h.expression e (Checked.of_under_eq_valid found))

theorem orderByRaw_alike (hsql : sql.IsSteady setting number s t)
    (h : GivenSteady setting number s t given) :
    Alike setting number s t .ordering (orderByRaw sql given) :=
  alike_change <| .bind (fun _ => Adds.fragment sql given) (.fragment hsql h) fun _ _ _ _ _ _ like =>
    alike_ends (fun x => .clause (.ordering ⟨.raw x, none⟩)) (fun _ => rfl)
      (fun f x => congrArg Change.clause (Clause.mapObjects_ordering f x none)) like

theorem limit_alike {rows : Value} (h : rows.IsSteady setting number s t) :
    Alike setting number s t .limit (limit rows) :=
  alike_change <| alike_ends Change.limit (fun _ => rfl) (fun _ _ => rfl) h.kept

theorem offset_alike {rows : Value} (h : rows.IsSteady setting number s t) :
    Alike setting number s t .offset (offset rows) :=
  alike_change <| alike_ends Change.offset (fun _ => rfl) (fun _ _ => rfl) h.kept

theorem combine_alike (hs : setting.Adds) (operator : SetOperator) {query : Value}
    (h : query.IsSteady setting number s t) :
    Alike setting number s t .setOperations (combine operator query) :=
  alike_change <| .bind (fun _ => Adds.query hs query) h.query fun _ _ _ _ _ _ like =>
    alike_ends (fun q => .clause (.setOperation ⟨operator, q⟩)) (fun _ => rfl)
      (fun f q => congrArg Change.clause (Clause.mapObjects_setOperation f operator q)) like

end Edit

/-- A call with steady arguments makes changes that are alike. -/
theorem Method.edit_alike (hs : setting.Adds) (name : String) (m : Method) {arguments : List Value}
    (h : ∀ v ∈ arguments, v.IsSteadyArgument setting number s t) :
    Edit.Alike setting number s t m.kind (m.edit name arguments) := by
  have steady {v : Value} (hv : v ∈ arguments) : v.IsSteady setting number s t := (h v hv).toIsSteady
  unfold Method.edit
  split
  · exact Edit.cte_alike hs _ _ (steady (by simp)) _
  · exact Edit.cte_alike hs _ _ (steady (by simp)) _
  · exact Edit.select_alike h
  · exact Edit.selectRaw_alike (steady (by simp)) .none
  · exact Edit.selectRaw_alike (steady (by simp)) (.some (h _ (by simp)))
  · exact Edit.alike_change (Edit.alike_same .distinct fun _ => rfl)
  · exact Edit.aggregate_alike _ (Value.settled_scalar _).isSteady _
  · exact Edit.aggregate_alike _ (steady (by simp)) _
  · exact Edit.aggregate_alike _ (steady (by simp)) _
  · exact Edit.table_alike _ _
  · exact Edit.table_alike _ _
  · exact Edit.subquery_alike hs (steady (by simp)) _
  · exact Edit.join_alike hs _ (steady (by simp)) .none _
  · exact Edit.join_alike hs _ (steady (by simp)) .none _
  · exact Edit.alike_refused _ _
  · exact Edit.join_alike hs _ (steady (by simp)) .none _
  · exact Edit.join_alike hs _ (steady (by simp)) (.some (h _ (by simp))) _
  · exact Edit.join_alike hs _ (steady (by simp)) (.some (h _ (by simp))) _
  · exact Edit.filter_alike hs _ _ h
  · exact Edit.groupBy_alike h
  · exact Edit.groupByRaw_alike (steady (by simp)) .none
  · exact Edit.groupByRaw_alike (steady (by simp)) (.some (h _ (by simp)))
  · exact Edit.having_alike hs _ _ h
  · exact Edit.orderBy_alike (steady (by simp)) _
  · exact Edit.orderBy_alike (steady (by simp)) _
  · exact Edit.orderByRaw_alike (steady (by simp)) .none
  · exact Edit.orderByRaw_alike (steady (by simp)) (.some (h _ (by simp)))
  · exact Edit.limit_alike (steady (by simp))
  · exact Edit.offset_alike (steady (by simp))
  · exact Edit.combine_alike hs _ (steady (by simp))
  · exact Edit.alike_refused _ _

end SqlComposition
