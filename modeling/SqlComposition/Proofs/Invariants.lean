import SqlComposition.Evaluation
import SqlComposition.Proofs.Clauses
import SqlComposition.Proofs.Keeping

/-!
What calls of builders keep. Whatever its arguments are, a call comes down to a few moves: it logs lines,
adds objects, makes marks, copies what can be reached and changes its own builder. A property that is kept
by these moves is kept when terms are evaluated and functions are called. The changes that a call works out
on the way are all of the one kind that its method is for.
-/

namespace SqlComposition
open SqlComposition.Action

/-! ## Moves -/

/-- What a call does to the objects at a time. A builder may be changed if its number is open; no executor
is added, other than copies of those there are. -/
inductive Store.Move (isOpen : Nat → Prop) (s : Store) : Store → Prop where
  | add {c : Content} : (∀ e, c ≠ .executor e) → Move isOpen s (s.add c)
  | mark : Move isOpen s { s with marks := s.marks + 1 }
  | copy (met : List Nat) (copies : List Builder) :
      Move isOpen s (s.withCopies met (copies.map .builder))
  | change {number : Nat} (b : Builder) : isOpen number → Move isOpen s (s.set number (.builder b))

/-- A property that is kept by lines that are logged and by moves of the store, and by which whatever is
added next is open. -/
structure Stage.IsInvariant (p : Stage → Prop) (isOpen : Nat → Prop) : Prop where
  log : ∀ stage lines, p stage → p { stage with log := stage.log ++ lines }
  move : ∀ stage s, p stage → stage.store.Move isOpen s → p { stage with store := s }
  fresh : ∀ stage, p stage → isOpen stage.store.contents.length

/-- A property is kept while functions are called. -/
def Setting.Carries (setting : Setting) (p : Stage → Prop) : Prop :=
  ∀ f : Function, Action.Carries setting p (fun _ => True) fun _ => setting.call f

variable {setting : Setting} {p : Stage → Prop} {isOpen : Nat → Prop}

section Moves

variable (hp : Stage.IsInvariant p isOpen)
include hp

namespace Action.Carries

theorem moved {f : Store → Store} (hf : ∀ s : Store, s.Move isOpen (f s)) :
    Carries setting p (fun _ => True) (update f) :=
  modify fun stage h => hp.move stage _ h (hf stage.store)

theorem logged (count : Nat) : Carries setting p (fun _ => True) (logSourceless count) :=
  modify fun stage h => hp.log stage _ h

theorem write (v : Value) : Carries setting p (fun _ => True) (Action.write v) :=
  bind (g := fun _ => True) (bind store fun _ _ => pure trivial) fun _ _ =>
    bind (logged hp _) fun _ _ => anyOf _

theorem add {c : Content} (hc : ∀ e, c ≠ .executor e) : Carries setting p isOpen (Action.add c) := by
  refine bind store ?_
  rintro _ ⟨stage, h, rfl⟩
  exact bind (moved hp fun _ => .add hc) fun _ _ => pure (hp.fresh stage h)

theorem make (kind : ObjectKind) {c : Content} (hc : ∀ e, c ≠ .executor e) :
    Carries setting p (fun _ => True) (Action.make kind c) :=
  bind (add hp hc) fun _ _ => pure trivial

theorem mark : Carries setting p (fun _ => True) Action.mark :=
  bind store fun _ _ => bind (moved hp fun _ => .mark) fun _ _ => pure trivial

/-- Nothing happens between the copying and the adding of the copies, so this is one move. -/
theorem snapshot (number : Nat) : Carries setting p (fun _ => True) (Action.snapshot number) :=
  bind (known fun _ _ _ _ => trivial) fun _ _ =>
    ⟨fun stage h => ⟨hp.move stage _ h (.copy _ []), trivial⟩⟩

theorem clone (number : Nat) : Carries setting p (fun _ => True) (Action.clone number) :=
  bind (known (g := fun _ => True) fun _ _ _ _ => trivial) fun b _ => bind store fun _ _ =>
    bind (moved hp fun s => .copy _ [{ b with query := (s.renumberQuery [number] b.query).1 }])
      fun _ _ => pure trivial

theorem newBuilder (dialect : Value) (q : Query) : Carries setting p isOpen (Action.newBuilder dialect q) :=
  add hp nofun

theorem chooseDialect (v : Value) : Carries setting p (fun _ => True) (Action.chooseDialect v) := by
  have create (name : String) : Carries setting p (fun _ => True)
      (do Action.makeDialect (← Action.ofExcept ((← MonadReader.read).registry.create name))) :=
    bind read fun _ _ => bind (anyOf _) fun d _ => make hp _ nofun
  unfold Action.chooseDialect
  split
  · exact create _
  · exact create _
  · exact pure trivial

theorem query (hs : setting.Carries p) (v : Value) :
    Carries setting p (fun _ => True) (Action.query v) := by
  unfold Action.query
  split
  · exact snapshot hp _
  · refine bind (known (g := fun _ => True) fun _ _ _ _ => trivial) fun f _ => bind read ?_
    rintro _ rfl
    exact bind (hs f) fun number _ => snapshot hp number
  · exact throw _

theorem operand (v : Value) : Carries setting p (fun _ => True) (Action.operand v) := by
  unfold Action.operand
  split
  · exact map (snapshot hp _) fun _ _ => trivial
  · exact pure trivial

theorem operands (items : List Value) :
    Carries setting p (fun _ => True) (items.mapM Action.operand) :=
  weaken (mapM (r := fun _ => True) fun item _ => operand hp item) fun _ _ => trivial

theorem bindings (given : Option Value) :
    Carries setting p (fun _ => True) (Action.bindings given) := by
  cases given with
  | none => exact pure trivial
  | some v =>
    rw [Action.bindings]
    split
    · exact bind (anyOf _) fun items _ => operands hp items
    · exact pure trivial

theorem fragment (sql : Value) (given : Option Value) :
    Carries setting p (fun _ => True) (Action.fragment sql given) := by
  unfold Action.fragment
  split
  · exact pure trivial
  · exact bind (bindings hp given) fun _ _ => bind (anyOf _) fun _ _ => pure trivial

theorem members (hs : setting.Carries p) (v : Value) :
    Carries setting p (fun _ => True) (Action.members v) := by
  unfold Action.members
  split
  · exact bind (query hp hs _) fun _ _ => pure trivial
  · exact bind (query hp hs _) fun _ _ => pure trivial
  · exact pure trivial
  · exact pure trivial
  · split
    · exact pure trivial
    · exact bind (operands hp _) fun _ _ => pure trivial

end Action.Carries

end Moves

/-! ## Changes that are worked out -/

namespace Edit

/-- All changes of an edit are of one kind, and the property is kept while they are worked out. -/
def Carries (setting : Setting) (p : Stage → Prop) (kind : ClauseKind) (edit : Edit) : Prop :=
  ∀ work ∈ edit, Action.Carries setting p (Change.Makes kind) work

variable {kind : ClauseKind}

theorem carries_change {work : Action (Query → Query)}
    (h : Action.Carries setting p (Change.Makes kind) work) : Carries setting p kind (change work) :=
  List.forall_mem_singleton.2 h

theorem carries_refused (failure : Failure) : Carries setting p kind (.refused failure) :=
  List.forall_mem_singleton.2 (.throw failure)

/-- The work ends in the change that it has worked out. -/
theorem ends {c : Change} {f : Query → Query} (h : f = c.apply) :
    Action.Carries setting p (Change.Makes c.kind) (pure f) :=
  .pure ⟨c, rfl, h⟩

theorem reading_carries {α : Type} (record : String) (checked : Checked α) :
    Action.Carries setting p (fun _ => True) (reading record checked) :=
  .anyOf _

theorem select_carries (columns : List Value) : Carries setting p .selection (select columns) :=
  List.forall_mem_map.2 fun _ _ => .bind (reading_carries _ _) fun item _ =>
    ends (c := .clause (.selectItem item)) rfl

theorem table_carries (name : Value) (given : Option Value) :
    Carries setting p .source (table name given) :=
  carries_change <| .bind (reading_carries _ _) fun s _ => ends (c := .clause (.source s)) rfl

theorem orderBy_carries (column : Value) (given : Option Value) :
    Carries setting p .ordering (orderBy column given) :=
  carries_change <| .bind (.anyOf _) fun _ _ => .bind (reading_carries _ _) fun item _ =>
    ends (c := .clause (.ordering item)) rfl

theorem cteColumns_carries (columns : Option Value) :
    Action.Carries setting p (fun _ => True) (cteColumns columns) := by
  unfold cteColumns
  split
  · exact .pure trivial
  · split
    · exact .bind (.anyOf _) fun _ _ => .pure trivial
    · exact .pure trivial

end Edit

section Calls

variable (hp : Stage.IsInvariant p isOpen) (hs : setting.Carries p)
include hp

namespace Edit

theorem selectRaw_carries (sql : Value) (given : Option Value) :
    Carries setting p .selection (selectRaw sql given) :=
  carries_change <| .bind (.fragment hp _ _) fun f _ =>
    ends (c := .clause (.selectItem ⟨.raw f, none⟩)) rfl

theorem aggregate_carries (function : String) (column : Value) (given : Option Value) :
    Carries setting p .selection (aggregate function column given) :=
  carries_change <| .bind (.write hp _) fun _ _ => .bind (reading_carries _ _) fun item _ =>
    ends (c := .clause (.selectItem item)) rfl

theorem groupBy_carries (columns : List Value) : Carries setting p .grouping (groupBy columns) :=
  List.forall_mem_map.2 fun _ _ => .bind (.write hp _) fun text _ =>
    ends (c := .clause (.grouping (.name text))) rfl

theorem groupByRaw_carries (sql : Value) (given : Option Value) :
    Carries setting p .grouping (groupByRaw sql given) :=
  carries_change <| .bind (.fragment hp _ _) fun f _ => ends (c := .clause (.grouping (.raw f))) rfl

theorem orderByRaw_carries (sql : Value) (given : Option Value) :
    Carries setting p .ordering (orderByRaw sql given) :=
  carries_change <| .bind (.fragment hp _ _) fun f _ =>
    ends (c := .clause (.ordering ⟨.raw f, none⟩)) rfl

theorem joinCondition_carries (on : Option Value) :
    Action.Carries setting p (fun _ => True) (joinCondition on) := by
  unfold joinCondition
  split
  · exact .pure trivial
  · exact .pure trivial
  · exact .map (.fragment hp _ _) fun _ _ => trivial

end Edit

/-- An open builder may be changed. -/
theorem Edit.apply_carries {number : Nat} (hn : isOpen number) {kind : ClauseKind} {edit : Edit}
    (h : edit.Carries setting p kind) : Action.Carries setting p (fun _ => True) (edit.apply number) :=
  .forM fun work hw => .bind (h work hw) fun _ _ =>
    .bind (.known (g := fun _ => True) fun _ _ _ _ => trivial) fun _ _ =>
      .moved hp fun _ => .change _ hn

theorem Reading.call_carries (number : Nat) (name : String) (arguments : List Value) :
    Carries setting p (fun _ => True) (Reading.call number name arguments) := by
  have boundForm : Carries setting p (fun _ => True) (Reading.boundForm number) :=
    .bind (.shownBuilder number) fun _ _ => .bind (.logged hp _) fun _ _ => .anyOf _
  have perform (r : Reading) : Carries setting p (fun _ => True) (r.perform number) := by
    cases r with
    | text => exact .map (.write hp _) fun _ _ => trivial
    | bound => exact .map boundForm fun _ _ => trivial
    | values => exact .bind boundForm fun _ _ => .pure trivial
    | query => exact .map (.snapshot hp number) fun _ _ => trivial
    | copy => exact .map (.clone hp number) fun _ _ => trivial
  unfold Reading.call
  split
  · split
    · exact perform _
    · exact .throw _
  · split
    · exact .bind (.known (g := fun _ => True) fun _ _ _ _ => trivial) fun _ _ => .throw _
    · exact .throw _

include hs

/-! ## Conditions -/

namespace Filter

theorem routed_carries (operator : String) (column value : Value) :
    Carries setting p (fun _ => True) (routed operator column value) := by
  unfold routed
  split
  · exact .bind (.members hp hs _) fun _ _ => .bind (.anyOf _) fun _ _ => .pure trivial
  · exact .bind (.anyOf _) fun _ _ => .pure trivial
  · exact .bind (.operand hp _) fun _ _ => .bind (.operand hp _) fun _ _ => .bind (.anyOf _) fun _ _ =>
      .pure trivial
  · exact .bind (.operand hp _) fun _ _ => .bind (.anyOf _) fun _ _ => .pure trivial

theorem compare_carries (column operator value : Value) :
    Carries setting p (fun _ => True) (compare column operator value) := by
  rw [compare]
  split
  · exact .bind (.write hp _) fun _ _ => routed_carries hp hs _ _ _
  · exact .bind (g := fun _ => True) (.pure trivial) fun _ _ => routed_carries hp hs _ _ _

end Filter

theorem Test.predicate_carries (call : String) (test : Test) (arguments : List Value) :
    Carries setting p (fun _ => True) (test.predicate call arguments) := by
  unfold Test.predicate
  split
  · exact Filter.routed_carries hp hs _ _ _
  · exact Filter.compare_carries hp hs _ _ _
  · exact .bind (.members hp hs _) fun _ _ => .bind (.anyOf _) fun _ _ => .pure trivial
  · exact .bind (.anyOf _) fun _ _ => .pure trivial
  · exact .bind (.operand hp _) fun _ _ => .bind (.operand hp _) fun _ _ => .bind (.anyOf _) fun _ _ =>
      .pure trivial
  · exact .bind (.query hp hs _) fun _ _ => .pure trivial
  · exact .bind (.fragment hp _ _) fun _ _ => .pure trivial
  · exact .bind (.fragment hp _ _) fun _ _ => .pure trivial
  · exact .throw _

theorem Filter.condition_carries (call : String) (f : Filter) (arguments : List Value) :
    Carries setting p (fun _ => True) (f.condition call arguments) :=
  .bind (f.test.predicate_carries hp hs call arguments) fun _ _ => .pure trivial

/-! ## The calls of a builder -/

namespace Edit

theorem subquery_carries (query given : Value) : Carries setting p .source (subquery query given) :=
  carries_change <| .bind (.query hp hs query) fun _ _ => .bind (reading_carries _ _) fun s _ =>
    ends (c := .clause (.source s)) rfl

theorem joinTarget_carries (target : Value) :
    Action.Carries setting p (fun _ => True) (joinTarget target) := by
  unfold joinTarget
  split
  · exact .pure trivial
  · exact .map (.query hp hs _) fun _ _ => trivial

theorem join_carries (kind : JoinKind) (target : Value) (on given : Option Value) :
    Carries setting p .joins (join kind target on given) :=
  carries_change <| .bind (joinTarget_carries hp hs target) fun _ _ =>
    .bind (joinCondition_carries hp on) fun _ _ => .bind (reading_carries _ _) fun j _ =>
      ends (c := .clause (.join j)) rfl

theorem cteBody_carries (body : Value) : Action.Carries setting p (fun _ => True) (cteBody body) := by
  unfold cteBody
  split
  · exact .pure trivial
  · exact .pure trivial
  · exact .map (.query hp hs _) fun _ _ => trivial

theorem cte_carries (isRecursive : Bool) (name body : Value) (columns : Option Value) :
    Carries setting p .ctes (cte isRecursive name body columns) :=
  carries_change <| .bind (cteBody_carries hp hs body) fun _ _ =>
    .bind (cteColumns_carries columns) fun _ _ => .bind (reading_carries _ _) fun c _ =>
      ends (c := .clause (.cte c)) rfl

theorem filter_carries (call : String) (f : Filter) (arguments : List Value) :
    Carries setting p .conditions (filter call f arguments) :=
  carries_change <| .bind (f.condition_carries hp hs call arguments) fun c _ =>
    ends (c := .clause (.condition c)) rfl

theorem having_carries (call : String) (f : Filter) (arguments : List Value) :
    Carries setting p .having (having call f arguments) :=
  carries_change <| .bind (f.condition_carries hp hs call arguments) fun c _ =>
    ends (c := .clause (.having c)) rfl

theorem combine_carries (operator : SetOperator) (query : Value) :
    Carries setting p .setOperations (combine operator query) :=
  carries_change <| .bind (.query hp hs query) fun q _ =>
    ends (c := .clause (.setOperation ⟨operator, q⟩)) rfl

end Edit

theorem Method.edit_carries (name : String) (m : Method) (arguments : List Value) :
    Edit.Carries setting p m.kind (m.edit name arguments) := by
  unfold Method.edit
  split
  · exact Edit.cte_carries hp hs _ _ _ _
  · exact Edit.cte_carries hp hs _ _ _ _
  · exact Edit.select_carries _
  · exact Edit.selectRaw_carries hp _ _
  · exact Edit.selectRaw_carries hp _ _
  · exact Edit.carries_change (Edit.ends (c := .distinct) rfl)
  · exact Edit.aggregate_carries hp _ _ _
  · exact Edit.aggregate_carries hp _ _ _
  · exact Edit.aggregate_carries hp _ _ _
  · exact Edit.table_carries _ _
  · exact Edit.table_carries _ _
  · exact Edit.subquery_carries hp hs _ _
  · exact Edit.join_carries hp hs _ _ _ _
  · exact Edit.join_carries hp hs _ _ _ _
  · exact Edit.carries_refused _
  · exact Edit.join_carries hp hs _ _ _ _
  · exact Edit.join_carries hp hs _ _ _ _
  · exact Edit.join_carries hp hs _ _ _ _
  · exact Edit.filter_carries hp hs _ _ _
  · exact Edit.groupBy_carries hp _
  · exact Edit.groupByRaw_carries hp _ _
  · exact Edit.groupByRaw_carries hp _ _
  · exact Edit.having_carries hp hs _ _ _
  · exact Edit.orderBy_carries _ _
  · exact Edit.orderBy_carries _ _
  · exact Edit.orderByRaw_carries hp _ _
  · exact Edit.orderByRaw_carries hp _ _
  · exact Edit.carries_change (Edit.ends (c := .limit _) rfl)
  · exact Edit.carries_change (Edit.ends (c := .offset _) rfl)
  · exact Edit.combine_carries hp hs _ _
  · exact Edit.carries_refused _

theorem Action.callBuilder_carries {number : Nat} (hn : isOpen number) (name : String)
    (arguments : List Value) :
    Carries setting p (fun _ => True) (Action.callBuilder number name arguments) := by
  unfold Action.callBuilder
  split
  · exact Edit.apply_carries hp hn (Method.edit_carries hp hs name _ arguments)
  · exact .discard (Reading.call_carries hp number name arguments)

end Calls

/-! ## Terms and functions -/

mutual

theorem Term.eval_carries (hp : Stage.IsInvariant p isOpen) (hs : setting.Carries p) :
    (t : Term) → Carries setting p (fun _ => True) t.eval
  | .scalar s => by
    rw [Term.eval]
    split
    · exact .bind (.mark hp) fun _ _ => .pure trivial
    · exact .pure trivial
  | .unreadable failure => by
    rw [Term.eval]
    exact .throw failure
  | .list items => by
    rw [Term.eval]
    exact .map (Term.evalAll_carries hp hs items) fun _ _ => trivial
  | .tuple items => by
    rw [Term.eval]
    exact .map (Term.evalAll_carries hp hs items) fun _ _ => trivial
  | .mapping entries => by
    rw [Term.eval]
    exact .map (Term.evalEntries_carries hp hs [] entries) fun _ _ => trivial
  | .fragment sql bindings => by
    rw [Term.eval]
    exact .bind (sql.eval_carries hp hs) fun _ _ =>
      .bind (Term.evalOption_carries hp hs bindings) fun _ _ => .bind (.fragment hp _ _) fun _ _ =>
        .pure trivial
  | .builder dialect calls => by
    rw [Term.eval]
    exact .bind (Term.evalOption_carries hp hs dialect) fun _ _ =>
      .bind (.chooseDialect hp _) fun chosen _ => .bind (.newBuilder hp chosen _) fun _ hn =>
        .bind (Call.runAll_carries hp hs hn calls) fun _ _ => .pure trivial
  | .query calls => by
    rw [Term.eval]
    exact .bind (.chooseDialect hp _) fun chosen _ => .bind (.newBuilder hp chosen _) fun number hn =>
      .bind (Call.runAll_carries hp hs hn calls) fun _ _ => .bind (.snapshot hp number) fun _ _ =>
        .pure trivial
  | .function calls returned => by
    rw [Term.eval]
    exact .make hp _ nofun
  | .dialect name template => by
    rw [Term.eval]
    exact .make hp _ nofun
  | .variable name => by
    rw [Term.eval]
    exact .bind .read fun _ _ => .anyOf _

theorem Term.evalOption_carries (hp : Stage.IsInvariant p isOpen) (hs : setting.Carries p) :
    (t : Option Term) → Carries setting p (fun _ => True) (Term.evalOption t)
  | none => by
    rw [Term.evalOption]
    exact .pure trivial
  | some t => by
    rw [Term.evalOption]
    exact .map (t.eval_carries hp hs) fun _ _ => trivial

theorem Term.evalAll_carries (hp : Stage.IsInvariant p isOpen) (hs : setting.Carries p) :
    (terms : List Term) → Carries setting p (fun _ => True) (Term.evalAll terms)
  | [] => by
    rw [Term.evalAll]
    exact .pure trivial
  | t :: rest => by
    rw [Term.evalAll]
    exact .bind (t.eval_carries hp hs) fun _ _ => .bind (Term.evalAll_carries hp hs rest) fun _ _ =>
      .pure trivial

theorem Term.evalEntries_carries (hp : Stage.IsInvariant p isOpen) (hs : setting.Carries p)
    (made : List (Value × Value)) :
    (entries : List (Term × Term)) → Carries setting p (fun _ => True) (Term.evalEntries made entries)
  | [] => by
    rw [Term.evalEntries]
    exact .pure trivial
  | (key, content) :: rest => by
    rw [Term.evalEntries]
    exact .bind (key.eval_carries hp hs) fun _ _ => .bind (content.eval_carries hp hs) fun _ _ =>
      .bind (.anyOf _) fun more _ => Term.evalEntries_carries hp hs more rest

theorem Call.run_carries (hp : Stage.IsInvariant p isOpen) (hs : setting.Carries p)
    {number : Nat} (hn : isOpen number) :
    (c : Call) → Carries setting p (fun _ => True) (c.run number)
  | .mk name arguments => by
    rw [Call.run]
    refine .bind (g := fun _ => True) ?_ fun _ _ => .bind (Term.evalAll_carries hp hs arguments)
      fun values _ => Action.callBuilder_carries hp hs hn name values
    unfold Action.checkName
    split
    · exact .pure trivial
    · exact .throw _

theorem Call.runAll_carries (hp : Stage.IsInvariant p isOpen) (hs : setting.Carries p)
    {number : Nat} (hn : isOpen number) :
    (calls : List Call) → Carries setting p (fun _ => True) (Call.runAll number calls)
  | [] => by
    rw [Call.runAll]
    exact .pure trivial
  | c :: rest => by
    rw [Call.runAll]
    exact .bind (c.run_carries hp hs hn) fun _ _ => Call.runAll_carries hp hs hn rest

end

theorem Function.run_carries (hp : Stage.IsInvariant p isOpen) (hs : setting.Carries p) (f : Function) :
    Carries setting p (fun _ => True) f.run := by
  refine .bind (.chooseDialect hp _) fun chosen _ => .bind (.newBuilder hp chosen _) fun fresh hn =>
    .bind (Call.runAll_carries hp hs hn f.calls) fun _ _ =>
      .bind (Term.evalOption_carries hp hs f.returned) fun v _ => ?_
  split <;> exact .pure trivial

/-- By induction on how deep functions may call functions. -/
theorem Scope.settingWithin_carries (hp : Stage.IsInvariant p isOpen) (scope : Scope) (depth : Nat) :
    (scope.settingWithin depth).Carries p := by
  induction depth with
  | zero => exact fun _ => .throw .endless
  | succ depth ih => exact fun f => ⟨(Function.run_carries hp ih f).outcome⟩

end SqlComposition
