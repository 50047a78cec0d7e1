import SqlComposition.Proofs.BoundValues
import SqlComposition.Proofs.Wholeness

/-!
Calls of builders leave stores whole, and so do terms and functions, which come down to such calls. All that a
call has put into its query is there, and all that is read of a builder is there.
-/

namespace SqlComposition
open HasObjects SqlComposition.Action

variable {setting : Setting} {count : Nat} {v : Value} {given : Option Value}

/-! ## Changes of queries -/

/-- All that a change puts into a query is there. -/
def Change.IsPresent (count : Nat) (c : Change) : Prop :=
  ∀ f g : Object → Object, (∀ o, o.number < count → f o = g o) → c.mapObjects f = c.mapObjects g

/-- A function on queries that makes such a change. -/
def Change.Supplies (count : Nat) (f : Query → Query) : Prop :=
  ∃ c : Change, c.IsPresent count ∧ f = c.apply

theorem Change.Supplies.apply {f : Query → Query} (h : Change.Supplies count f) {more : Nat}
    (le : count ≤ more) {q : Query} (hq : HasObjects.IsPresent more q) : HasObjects.IsPresent more (f q) := by
  obtain ⟨c, present, rfl⟩ := h
  intro f g same
  have here := present f g fun o ho => same o (ho.trans_le le)
  exact (c.mapObjects_apply f q).trans ((congrArg₂ Change.apply here (hq f g same)).trans
    (c.mapObjects_apply g q).symm)

namespace Edit

/-- While the changes of an edit are worked out, stores stay whole, and all that the changes put into a query
is there. -/
def Provides (setting : Setting) (count : Nat) (edit : Edit) : Prop :=
  ∀ work ∈ edit, Action.Provides setting count Change.Supplies work

theorem provides_change {work : Action (Query → Query)}
    (h : Action.Provides setting count Change.Supplies work) : Provides setting count (change work) :=
  List.forall_mem_singleton.2 h

theorem provides_refused (failure : Failure) : Provides setting count (.refused failure) :=
  List.forall_mem_singleton.2 (.throw failure)

/-- The work ends in the change that it has worked out. -/
theorem ends_provides {α : Type} [HasObjects α] (make : α → Change) {a : α} (h : IsPresent count a)
    (hm : ∀ f a, (make a).mapObjects f = make (replace f a)) {change : Query → Query}
    (same : change = (make a).apply) : Action.Provides setting count Change.Supplies (pure change) :=
  .pure fun _ le => ⟨make a, fun f g agree => by rw [hm, hm, h.mono le f g agree], same⟩

/-- What is read of an argument that is there is there. -/
theorem reading_provides {α : Type} {g : Nat → α → Prop} {record : String} {checked : Checked α}
    (h : ∀ a more, count ≤ more → checked = .valid a → g more a) :
    Action.Provides setting count g (reading record checked) :=
  .ofExcept fun a more le read => h a more le (Checked.of_orReject_eq_ok read)

variable {sql : Value}

theorem selectItem_provides {expression : Checked Expression}
    (h : ∀ e, expression = .valid e → IsPresent count e) (given : Option Value) :
    Action.Provides setting count IsPresent (selectItem expression given) :=
  reading_provides fun item more le read => by
    obtain ⟨make, label, made, -, rfl⟩ := Checked.of_seq_eq_valid read
    obtain ⟨e, found, rfl⟩ := Checked.of_map_eq_valid made
    exact SelectItem.isPresent_mk ((h e (Checked.of_under_eq_valid found)).mono le)

theorem addSelection_provides {item : SelectItem} (h : IsPresent count item) :
    Action.Provides setting count Change.Supplies (pure (addSelection item)) :=
  ends_provides (fun item => .clause (.selectItem item)) h (fun _ _ => rfl) rfl

theorem select_provides {columns : List Value} (h : ∀ v ∈ columns, IsPresent count v) :
    Provides setting count (select columns) :=
  List.forall_mem_map.2 fun column hc =>
    .bind (selectItem_provides (fun _ read => Schema.isPresent_expression (h column hc) read) none)
      fun _ _ _ there => addSelection_provides there

theorem selectRaw_provides (hsql : IsPresent count sql) (h : GivenPresent count given) :
    Provides setting count (selectRaw sql given) :=
  provides_change <| .bind (.fragment hsql h) fun _ _ _ there =>
    addSelection_provides (SelectItem.isPresent_mk (Expression.isPresent_raw there))

theorem aggregate_provides (function : String) (column : Value) (given : Option Value) :
    Provides setting count (aggregate function column given) :=
  provides_change <| .bind (.write column) fun _ _ _ _ =>
    .bind (selectItem_provides (fun _ same => Checked.valid.inj same ▸ Expression.isPresent_name _) given)
      fun _ _ _ there => addSelection_provides there

theorem setSource_provides {s : Source} (h : IsPresent count s) :
    Action.Provides setting count Change.Supplies (pure (setSource s)) :=
  ends_provides (fun s => .clause (.source s)) h (fun _ _ => rfl) rfl

theorem table_provides (name : Value) (given : Option Value) : Provides setting count (table name given) := by
  refine provides_change <|
    .bind (reading_provides (g := IsPresent) fun s more le read => ?_) fun _ _ _ there =>
      setSource_provides there
  obtain ⟨make, label, made, -, rfl⟩ := Checked.of_seq_eq_valid read
  obtain ⟨table, -, rfl⟩ := Checked.of_map_eq_valid made
  exact Source.isPresent_table table label

theorem subquery_provides (hs : setting.Provides count) (query label : Value) :
    Provides setting count (subquery query label) := by
  refine provides_change <| .bind (.query hs query) fun q more le there =>
    .bind (reading_provides (g := IsPresent) fun s last le read => ?_) fun _ _ _ there =>
      setSource_provides there
  obtain ⟨label, -, rfl⟩ := Checked.of_map_eq_valid read
  exact Source.isPresent_query (there.mono le)

theorem joinTarget_provides (hs : setting.Provides count) (target : Value) :
    Action.Provides setting count IsPresent (joinTarget target) := by
  unfold joinTarget
  split
  · exact .pure fun _ _ => JoinTarget.isPresent_table _
  · exact .map (.query hs _) fun _ _ there => JoinTarget.isPresent_query there

theorem joinCondition_provides {on : Option Value} (h : GivenPresent count on) :
    Action.Provides setting count IsPresent (joinCondition on) := by
  unfold joinCondition
  split
  · exact .pure fun _ _ _ _ _ => rfl
  · exact .pure fun _ _ _ _ _ => rfl
  · exact .map (.fragment (h _ rfl) nofun) fun x _ there => there.made fun _ _ => rfl

theorem join_provides (hs : setting.Provides count) (kind : JoinKind) (target : Value) {on : Option Value}
    (ho : GivenPresent count on) (given : Option Value) :
    Provides setting count (join kind target on given) := by
  refine provides_change <| .bind (joinTarget_provides hs target) fun t n le ht =>
    .bind (joinCondition_provides fun v hv => (ho v hv).mono le) fun on m le' ho =>
      .bind (reading_provides (g := IsPresent) fun j last le'' read => ?_) fun j _ _ there =>
        ends_provides (fun j => .clause (.join j)) there (fun _ _ => rfl) rfl
  obtain ⟨label, -, rfl⟩ := Checked.of_map_eq_valid read
  exact Join.isPresent_mk (ht.mono (le'.trans le'')) (ho.mono le'')

theorem cteBody_provides (hs : setting.Provides count) {body : Value} (h : IsPresent count body) :
    Action.Provides setting count IsPresent (cteBody body) := by
  unfold cteBody
  split
  · exact .pure fun _ _ _ _ _ => rfl
  · exact .pure fun _ le => CteBody.isPresent_raw ((Value.isPresent_fragment.1 h).mono le)
  · exact .map (.query hs _) fun _ _ there => CteBody.isPresent_query there

theorem cteColumns_provides (columns : Option Value) :
    Action.Provides setting count (fun _ _ => True) (cteColumns columns) := by
  unfold cteColumns
  split
  · exact .pure fun _ _ => trivial
  · split
    · exact .bind (.anyOf _) fun _ _ _ _ => .pure fun _ _ => trivial
    · exact .pure fun _ _ => trivial

theorem cte_provides (hs : setting.Provides count) (isRecursive : Bool) (name : Value) {body : Value}
    (h : IsPresent count body) (columns : Option Value) :
    Provides setting count (cte isRecursive name body columns) := by
  refine provides_change <| .bind (cteBody_provides hs h) fun b n le hb =>
    .bind (cteColumns_provides columns) fun cs m le' _ =>
      .bind (reading_provides (g := IsPresent) fun c last le'' read => ?_) fun c _ _ there =>
        ends_provides (fun c => .clause (.cte c)) there (fun _ _ => rfl) rfl
  obtain ⟨make, columns, made, -, rfl⟩ := Checked.of_seq_eq_valid read
  obtain ⟨name, -, rfl⟩ := Checked.of_map_eq_valid made
  exact Cte.isPresent_mk (hb.mono (le'.trans le''))

variable {arguments : List Value}

theorem filter_provides (hs : setting.Provides count) (call : String) (f : Filter)
    (h : ∀ a ∈ arguments, IsPresent count a) : Provides setting count (filter call f arguments) :=
  provides_change <| .bind (f.condition_provides hs call h) fun _ _ _ there =>
    ends_provides (fun c => .clause (.condition c)) there (fun _ _ => rfl) rfl

theorem having_provides (hs : setting.Provides count) (call : String) (f : Filter)
    (h : ∀ a ∈ arguments, IsPresent count a) : Provides setting count (having call f arguments) :=
  provides_change <| .bind (f.condition_provides hs call h) fun _ _ _ there =>
    ends_provides (fun c => .clause (.having c)) there (fun _ _ => rfl) rfl

theorem addGrouping_provides {e : Expression} (h : IsPresent count e) :
    Action.Provides setting count Change.Supplies (pure (addGrouping e)) :=
  ends_provides (fun e => .clause (.grouping e)) h (fun _ _ => rfl) rfl

theorem groupBy_provides (columns : List Value) : Provides setting count (groupBy columns) :=
  List.forall_mem_map.2 fun _ _ => .bind (.write _) fun _ _ _ _ =>
    addGrouping_provides (Expression.isPresent_name _)

theorem groupByRaw_provides (hsql : IsPresent count sql) (h : GivenPresent count given) :
    Provides setting count (groupByRaw sql given) :=
  provides_change <| .bind (.fragment hsql h) fun _ _ _ there =>
    addGrouping_provides (Expression.isPresent_raw there)

theorem addOrdering_provides {item : OrderItem} (h : IsPresent count item) :
    Action.Provides setting count Change.Supplies (pure (addOrdering item)) :=
  ends_provides (fun item => .clause (.ordering item)) h (fun _ _ => rfl) rfl

theorem orderBy_provides {column : Value} (h : IsPresent count column) (given : Option Value) :
    Provides setting count (orderBy column given) := by
  refine provides_change <| .bind (.anyOf _) fun direction n le _ =>
    .bind (reading_provides (g := IsPresent) fun item m le' read => ?_) fun _ _ _ there =>
      addOrdering_provides there
  obtain ⟨make, direction, made, -, rfl⟩ := Checked.of_seq_eq_valid read
  obtain ⟨e, found, rfl⟩ := Checked.of_map_eq_valid made
  have there := Schema.isPresent_expression h (Checked.of_under_eq_valid found)
  exact OrderItem.isPresent_mk (there.mono (le.trans le'))

theorem orderByRaw_provides (hsql : IsPresent count sql) (h : GivenPresent count given) :
    Provides setting count (orderByRaw sql given) :=
  provides_change <| .bind (.fragment hsql h) fun _ _ _ there =>
    addOrdering_provides (OrderItem.isPresent_mk (Expression.isPresent_raw there))

theorem combine_provides (hs : setting.Provides count) (operator : SetOperator) (query : Value) :
    Provides setting count (combine operator query) :=
  provides_change <| .bind (.query hs query) fun _ _ _ there =>
    ends_provides (fun s => .clause (.setOperation s)) (SetOperation.isPresent_mk there) (fun _ _ => rfl) rfl

/-- The changes are made on a builder that is there. -/
theorem apply_provides {edit : Edit} (h : edit.Provides setting count) (number : Nat) :
    Action.Provides setting count (fun _ _ => True) (edit.apply number) :=
  .forM fun work hw => .bind (h work hw) fun _ _ _ supplied => .bind (.builder number) fun _ _ le there =>
    .set number ⟨there.2.1, supplied.apply le there.2.2⟩

end Edit

theorem Method.edit_provides (hs : setting.Provides count) (name : String) (m : Method)
    {arguments : List Value} (h : ∀ a ∈ arguments, IsPresent count a) :
    Edit.Provides setting count (m.edit name arguments) := by
  have none : GivenPresent count none := nofun
  have some {v : Value} (hv : v ∈ arguments) : GivenPresent count (some v) :=
    fun w same => Option.some.inj same ▸ h v hv
  unfold Method.edit
  split
  · exact Edit.cte_provides hs _ _ (h _ (by simp)) _
  · exact Edit.cte_provides hs _ _ (h _ (by simp)) _
  · exact Edit.select_provides h
  · exact Edit.selectRaw_provides (h _ (by simp)) none
  · exact Edit.selectRaw_provides (h _ (by simp)) (some (by simp))
  · exact Edit.provides_change (.pure fun _ _ => ⟨.distinct, fun _ _ _ => rfl, rfl⟩)
  · exact Edit.aggregate_provides _ _ _
  · exact Edit.aggregate_provides _ _ _
  · exact Edit.aggregate_provides _ _ _
  · exact Edit.table_provides _ _
  · exact Edit.table_provides _ _
  · exact Edit.subquery_provides hs _ _
  · exact Edit.join_provides hs _ _ none _
  · exact Edit.join_provides hs _ _ none _
  · exact Edit.provides_refused _
  · exact Edit.join_provides hs _ _ none _
  · exact Edit.join_provides hs _ _ (some (by simp)) _
  · exact Edit.join_provides hs _ _ (some (by simp)) _
  · exact Edit.filter_provides hs _ _ h
  · exact Edit.groupBy_provides _
  · exact Edit.groupByRaw_provides (h _ (by simp)) none
  · exact Edit.groupByRaw_provides (h _ (by simp)) (some (by simp))
  · exact Edit.having_provides hs _ _ h
  · exact Edit.orderBy_provides (h _ (by simp)) _
  · exact Edit.orderBy_provides (h _ (by simp)) _
  · exact Edit.orderByRaw_provides (h _ (by simp)) none
  · exact Edit.orderByRaw_provides (h _ (by simp)) (some (by simp))
  · exact Edit.provides_change (Edit.ends_provides .limit (h _ (by simp)) (fun _ _ => rfl) rfl)
  · exact Edit.provides_change (Edit.ends_provides .offset (h _ (by simp)) (fun _ _ => rfl) rfl)
  · exact Edit.combine_provides hs _ _
  · exact Edit.provides_refused _

/-! ## Readings -/

/-- Looking at a builder changes no number in it. -/
theorem Store.IsWhole.shown_builder {s : Store} (h : s.IsWhole) {number : Nat} {b : Builder}
    (shown : s.shown number = some (.builder b)) : IsPresent s.contents.length b.query := by
  rw [Store.shown, Store.shownWithin, if_neg (by simp)] at shown
  obtain ⟨c, found, same⟩ := Option.map_eq_some_iff.1 shown
  cases c with
  | builder before =>
    obtain rfl := Content.builder.inj same
    refine HasPlaces.isPresent_replace before.query.hasPlaces (h.content found).2 fun o below => ?_
    rw [Object.shownBy]
    split <;> exact below
  | statement _ | factory _ | table _ | executor _ | dialect _ | function _ => cases same

namespace Reading

theorem boundForm_provides (number : Nat) :
    Action.Provides setting count (fun more form => IsPresent more form.values) (boundForm number) := by
  have looked : Action.Provides setting count (fun more b => IsPresent more b.query)
      (Action.shownBuilder number) :=
    .known fun s b whole found => by
      split at found
      · obtain rfl := Option.some.inj found
        exact whole.shown_builder ‹_›
      · cases found
  exact .bind looked fun b _ _ there => .bind (.logged fun _ => rfl) fun _ _ le _ =>
    .ofExcept fun form _ le' made => Value.isPresent_all.2
      (DialectChoice.values_isPresent made (there.mono (le.trans le')))

theorem perform_provides (number : Nat) (r : Reading) :
    Action.Provides setting count IsPresent (r.perform number) := by
  cases r with
  | text => exact .map (.write _) fun _ _ _ => Value.isPresent_text _
  | bound => exact .map (boundForm_provides number) fun _ _ there => Value.isPresent_bound.2 there
  | values =>
    exact .bind (boundForm_provides number) fun _ _ _ there => .pure fun _ le =>
      Value.isPresent_list.2 (there.mono le)
  | query => exact .map (.snapshot number) fun _ _ there => Value.isPresent_query.2 there
  | copy => exact .map (.clone number) fun _ _ below => Value.isPresent_object.2 below

theorem call_provides (number : Nat) (name : String) (arguments : List Value) :
    Action.Provides setting count IsPresent (call number name arguments) := by
  unfold call
  split
  · split
    · exact perform_provides number _
    · exact .throw _
  · split
    · exact .bind (.anyKnown _ _) fun _ _ _ _ => .throw _
    · exact .throw _

end Reading

theorem Action.callBuilder_provides (hs : setting.Provides count) (number : Nat) (name : String)
    {arguments : List Value} (h : ∀ a ∈ arguments, IsPresent count a) :
    Provides setting count (fun _ _ => True) (Action.callBuilder number name arguments) := by
  unfold Action.callBuilder
  split
  · exact Edit.apply_provides (Method.edit_provides hs _ _ h) number
  · exact .discard (Reading.call_provides number name arguments)

/-! ## Terms and functions -/

mutual

theorem Term.eval_provides {count : Nat} (hs : setting.Provides count) :
    (t : Term) → Provides setting count IsPresent t.eval
  | .scalar s => by
    rw [Term.eval]
    split
    · exact .bind .mark fun _ _ _ _ => .pure fun _ _ => Value.isPresent_scalar _
    · exact .pure fun _ _ => Value.isPresent_scalar _
  | .unreadable failure => by
    rw [Term.eval]
    exact .throw failure
  | .list items => by
    rw [Term.eval]
    exact .map (Term.evalAll_provides hs items) fun _ _ there =>
      Value.isPresent_list.2 (Value.isPresent_all.2 there)
  | .tuple items => by
    rw [Term.eval]
    exact .map (Term.evalAll_provides hs items) fun _ _ there =>
      Value.isPresent_tuple.2 (Value.isPresent_all.2 there)
  | .mapping entries => by
    rw [Term.eval]
    exact .map (Term.evalEntries_provides hs (fun _ _ _ => rfl) entries) fun _ _ there =>
      Value.isPresent_mapping.2 there
  | .fragment sql bindings => by
    rw [Term.eval]
    exact .bind (sql.eval_provides hs) fun _ _ le hsql =>
      .bind (Term.evalOption_provides (hs.later le) bindings) fun given _ le' there =>
        .bind (.fragment (hsql.mono le') there) fun _ _ _ made => .pure fun _ le'' =>
          Value.isPresent_fragment.2 (made.mono le'')
  | .builder dialect calls => by
    rw [Term.eval]
    refine .bind (Term.evalOption_provides hs dialect) fun given _ le there =>
      .bind (.chooseDialect ?_) fun chosen _ le' hd => .bind (.newBuilder hd) fun number _ le'' below =>
        .bind (Call.runAll_provides (hs.later (le.trans (le'.trans le''))) number calls) fun _ _ lt _ =>
          .pure fun _ lt' => Value.isPresent_object.2 (below.trans_le (lt.trans lt'))
    cases given with
    | none => exact Value.isPresent_scalar _
    | some v => exact there v rfl
  | .query calls => by
    rw [Term.eval]
    exact .bind (.chooseDialect (Value.isPresent_scalar _)) fun chosen _ le hd =>
      .bind (.newBuilder hd) fun number _ le' _ =>
        .bind (Call.runAll_provides (hs.later (le.trans le')) number calls) fun _ _ _ _ =>
          .bind (.snapshot number) fun _ _ _ there => .pure fun _ le'' =>
            Value.isPresent_query.2 (there.mono le'')
  | .function calls returned => by
    rw [Term.eval]
    exact .make _ trivial
  | .dialect name template => by
    rw [Term.eval]
    exact .make _ trivial
  | .variable name => by
    rw [Term.eval]
    refine .bind .read ?_
    rintro _ _ le rfl
    exact .ofExcept fun v _ le' found => (hs.resolved name v found).mono (le.trans le')

theorem Term.evalOption_provides {count : Nat} (hs : setting.Provides count) :
    (t : Option Term) → Provides setting count GivenPresent (Term.evalOption t)
  | none => by
    rw [Term.evalOption]
    exact .pure fun _ _ => nofun
  | some t => by
    rw [Term.evalOption]
    exact .map (t.eval_provides hs) fun _ _ there w same => Option.some.inj same ▸ there

theorem Term.evalAll_provides {count : Nat} (hs : setting.Provides count) :
    (terms : List Term) →
      Provides setting count (fun more values => ∀ v ∈ values, IsPresent more v) (Term.evalAll terms)
  | [] => by
    rw [Term.evalAll]
    exact .pure fun _ _ => List.forall_mem_nil _
  | t :: rest => by
    rw [Term.evalAll]
    exact .bind (t.eval_provides hs) fun v _ le first =>
      .bind (Term.evalAll_provides (hs.later le) rest) fun others _ le' there => .pure fun _ le'' =>
        List.forall_mem_cons.2 ⟨first.mono (le'.trans le''), fun w hw => (there w hw).mono le''⟩

theorem Term.evalEntries_provides {count : Nat} (hs : setting.Provides count) {made : List (Value × Value)}
    (h : IsPresent count made) :
    (entries : List (Term × Term)) → Provides setting count IsPresent (Term.evalEntries made entries)
  | [] => by
    rw [Term.evalEntries]
    exact .pure fun _ le => h.mono le
  | (key, content) :: rest => by
    rw [Term.evalEntries]
    refine .bind (key.eval_provides hs) fun k _ le hk =>
      .bind (content.eval_provides (hs.later le)) fun c _ le' hc =>
        .bind (.ofExcept (g := IsPresent) fun more last le'' put => ?_) fun more _ le'' there =>
          Term.evalEntries_provides (hs.later (le.trans (le'.trans le''))) there rest
    exact Value.isPresent_insertEntry (h.mono (le.trans (le'.trans le''))) (hk.mono (le'.trans le''))
      (hc.mono le'') put

theorem Call.run_provides {count : Nat} (hs : setting.Provides count) (number : Nat) :
    (c : Call) → Provides setting count (fun _ _ => True) (c.run number)
  | .mk name arguments => by
    rw [Call.run]
    refine .bind (g := fun _ _ => True) ?_ fun _ _ le _ =>
      .bind (Term.evalAll_provides (hs.later le) arguments) fun values _ le' there =>
        Action.callBuilder_provides (hs.later (le.trans le')) number name there
    unfold Action.checkName
    split
    · exact .pure fun _ _ => trivial
    · exact .throw _

theorem Call.runAll_provides {count : Nat} (hs : setting.Provides count) (number : Nat) :
    (calls : List Call) → Provides setting count (fun _ _ => True) (Call.runAll number calls)
  | [] => by
    rw [Call.runAll]
    exact .pure fun _ _ => trivial
  | c :: rest => by
    rw [Call.runAll]
    exact .bind (c.run_provides hs number) fun _ _ le _ => Call.runAll_provides (hs.later le) number rest

end

theorem Function.run_provides (hs : setting.Provides count) (f : Function) :
    Provides setting count (fun _ _ => True) f.run := by
  refine .bind (.chooseDialect (Value.isPresent_scalar _)) fun chosen _ le hd =>
    .bind (.newBuilder hd) fun fresh _ le' _ =>
      .bind (Call.runAll_provides (hs.later (le.trans le')) fresh f.calls) fun _ _ le'' _ =>
        .bind (Term.evalOption_provides (hs.later (le.trans (le'.trans le''))) f.returned) fun v _ _ _ => ?_
  split <;> exact .pure fun _ _ => trivial

/-- By induction on how deep functions may call functions. -/
theorem Scope.settingWithin_provides {scope : Scope}
    (h : ∀ name v, scope.resolve name = .ok v → IsPresent count v) (depth : Nat) :
    (scope.settingWithin depth).Provides count := by
  induction depth with
  | zero => exact ⟨h, fun _ _ _ => .throw .endless⟩
  | succ depth ih => exact ⟨h, fun f more le => ⟨(Function.run_provides (ih.later le) f).outcome⟩⟩

end SqlComposition
