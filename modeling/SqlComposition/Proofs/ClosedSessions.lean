import SqlComposition.Proofs.Isolation
import SqlComposition.Proofs.WholeCalls

/-!
Sessions in which nothing is missing. A step of a session leaves a whole store, whatever it does and however
it fails, and what gets a name is there. So in every state that a session comes to, all that is held is there.
-/

namespace SqlComposition
open HasObjects SqlComposition.Action

variable {setting : Setting} {count : Nat} {v : Value} {arguments : List Value}

/-! ## Calls of statements -/

namespace Statement

/-- A function on statements that puts into them what is there. -/
def Supplies (count : Nat) (f : Statement → Statement) : Prop :=
  ∀ more, count ≤ more → ∀ x : Statement, (Content.statement x).IsPresent more →
    (Content.statement (f x)).IsPresent more

theorem isPresent_rowsOf (h : IsPresent count v) {rows : List Value} (read : rowsOf v = .ok rows) :
    IsPresent count rows := by
  unfold rowsOf at read
  split at read
  · obtain rfl := Except.ok.inj read
    exact Value.isPresent_all.2 (List.forall_mem_singleton.2 h)
  · cases found : v.items with
    | error failure =>
      rw [found] at read
      cases read
    | ok items =>
      rw [found] at read
      change (if items.isEmpty then _ else _) = _ at read
      split at read
      · cases read
      · obtain rfl := Except.ok.inj read
        exact Value.isPresent_all.2 (Value.isPresent_listed h found)

theorem setRows_supplies {rows : List Value} (h : IsPresent count rows) : Supplies count (setRows rows) :=
  fun _ le _ ⟨executor, table, _, others⟩ => ⟨executor, table, h.mono le, others⟩

theorem assign_supplies {e : Value × Value} (h : IsPresent count e.1 ∧ IsPresent count e.2) :
    Supplies count (assign e) :=
  fun _ le _ ⟨executor, table, rows, assignments, others⟩ =>
    ⟨executor, table, rows, Value.isPresent_putEntry assignments (h.1.mono le) (h.2.mono le), others⟩

theorem addCondition_supplies {c : Condition} (h : IsPresent count c) : Supplies count (addCondition c) :=
  fun _ le _ ⟨executor, table, rows, assignments, conditions, returning⟩ => by
    refine ⟨executor, table, rows, assignments, ?_, returning⟩
    rw [Condition.isPresent_all] at conditions ⊢
    exact List.forall_mem_append.2 ⟨conditions, List.forall_mem_singleton.2 (h.mono le)⟩

theorem addReturning_supplies {columns : List Value} (h : ∀ v ∈ columns, IsPresent count v) :
    Supplies count (addReturning columns) :=
  fun _ le _ ⟨executor, table, rows, assignments, conditions, returning⟩ => by
    refine ⟨executor, table, rows, assignments, conditions, ?_⟩
    rw [Value.isPresent_all] at returning ⊢
    exact List.forall_mem_append.2 ⟨returning, fun v hv => (h v hv).mono le⟩

theorem Method.edit_provides (hs : setting.Provides count) (name : String) (m : Method)
    (h : ∀ a ∈ arguments, IsPresent count a) :
    ∀ work ∈ m.edit name arguments, Provides setting count Supplies work := by
  have only {work : Action (Statement → Statement)} (h : Provides setting count Supplies work) :
      ∀ w ∈ [work], Provides setting count Supplies w :=
    List.forall_mem_singleton.2 h
  unfold Method.edit
  split
  · rename_i data
    refine only (.bind (.ofExcept (g := IsPresent) fun rows more le read => ?_) fun _ _ _ there =>
      .pure fun _ le => setRows_supplies (there.mono le))
    exact isPresent_rowsOf ((h data (by simp)).mono le) read
  · rename_i data
    refine List.forall_mem_map.2 fun entry he => .bind (.ofExcept
      (g := fun more e => IsPresent more e.1 ∧ IsPresent more e.2) fun e more le same => ?_)
        fun _ _ _ there => .pure fun _ le => assign_supplies ⟨there.1.mono le, there.2.mono le⟩
    exact Value.isPresent_entriesOf ((h data (by simp)).mono le) (same ▸ he)
  · exact only (.pure fun _ le => addReturning_supplies fun v hv => (h v hv).mono le)
  · exact only (.bind (Filter.condition_provides hs _ _ h) fun _ _ _ there => .pure fun _ le =>
      addCondition_supplies (there.mono le))
  · exact only (.throw _)
  · exact only (.throw _)

theorem Edit.apply_provides {edit : Edit} (h : ∀ work ∈ edit, Provides setting count Supplies work)
    (number : Nat) : Provides setting count (fun _ _ => True) (edit.apply number) :=
  .forM fun work hw => .bind (h work hw) fun _ _ _ supplied => .bind (.statement number) fun x m le there =>
    .set number (supplied m le x there)

end Statement

namespace Session

/-! ## Executions -/

theorem ask_provides (hs : setting.Provides count) (executor : Nat) (sql : String) :
    Provides setting count IsPresent (ask executor sql) := by
  refine .bind (.anyKnown _ _) fun e _ le _ => .bind (.changed fun stage whole _ => ?_) fun _ _ le' _ => ?_
  · refine ⟨whole.set executor trivial, ?_⟩
    rw [Store.set, List.length_set]
  · split
    · exact Term.eval_provides (hs.later (le.trans le')) _
    · exact .throw _

theorem executeWithin_provides (hs : setting.Provides count) (depth executor : Nat) (word sql : String) :
    Provides setting count IsPresent (executeWithin depth executor word sql) := by
  induction depth generalizing count executor word sql with
  | zero => exact .throw _
  | succ depth ih =>
    refine .bind (.logged fun _ => rfl) fun _ _ le _ =>
      .bind (ask_provides (hs.later le) executor sql) fun rows _ le' there => ?_
    split
    · refine .bind (.anyKnown _ _) fun e _ le'' _ => ?_
      split
      · exact .pure fun _ lt => there.mono (le''.trans lt)
      · exact .bind (.statement _) fun x _ lt _ => .bind (.write _) fun _ _ lt' _ =>
          ih (hs.later (le.trans (le'.trans (le''.trans (lt.trans lt'))))) _ _ _
    · exact .pure fun _ le'' => there.mono le''

theorem executeStatement_provides (hs : setting.Provides count) (kind : StatementKind) (number : Nat) :
    Provides setting count IsPresent (executeStatement kind number) :=
  .bind (.statement number) fun _ _ le _ => .bind (.write _) fun _ _ le' _ =>
    executeWithin_provides (hs.later (le.trans le')) _ _ _ _

theorem isPresent_firstRow {rows row : Value} (h : IsPresent count rows) (first : firstRow rows = .ok row) :
    IsPresent count row := by
  unfold firstRow at first
  split at first
  · obtain rfl := Except.ok.inj first
    exact Value.isPresent_scalar _
  · split at first
    · rename_i entries
      split at first
      · rename_i found
        obtain rfl := Except.ok.inj first
        obtain ⟨e, he, rfl⟩ := Option.map_eq_some_iff.1 found
        exact (Value.isPresent_entries.1 (Value.isPresent_mapping.1 h) e (List.mem_of_find?_eq_some he)).2
      · cases first
    · obtain rfl := Except.ok.inj first
      exact Value.isPresent_all.1 (Value.isPresent_list.1 h) _ List.mem_cons_self
    · obtain rfl := Except.ok.inj first
      exact Value.isPresent_all.1 (Value.isPresent_tuple.1 h) _ List.mem_cons_self
    · obtain rfl := Except.ok.inj first
      exact Value.isPresent_scalar _
    · obtain rfl := Except.ok.inj first
      exact Value.isPresent_scalar _
    · cases first

theorem fetch_provides (hs : setting.Provides count) (executor : Nat) (query : Value) :
    Provides setting count IsPresent (fetch executor query) := by
  unfold fetch
  split
  · exact .bind (.write _) fun _ _ le _ => executeWithin_provides (hs.later le) _ _ _ _
  · exact .bind (.write _) fun _ _ le _ => executeWithin_provides (hs.later le) _ _ _ _
  · exact .throw _

theorem first_provides (hs : setting.Provides count) (executor : Nat) (query : Value) :
    Provides setting count IsPresent (first executor query) := by
  unfold first
  split
  · refine .bind (.clone _) fun copy _ le _ =>
      .bind (Edit.apply_provides ?_ copy) fun _ _ le' _ =>
        .bind (.write _) fun _ _ le'' _ =>
          .bind (executeWithin_provides (hs.later (le.trans (le'.trans le''))) _ _ _ _) fun rows _ _ there =>
            .ofExcept fun row _ lt taken => isPresent_firstRow (there.mono lt) taken
    exact Edit.provides_change (Edit.ends_provides .limit (Value.isPresent_scalar _) (fun _ _ => rfl) rfl)
  · exact .throw _

/-! ## Calls of objects -/

theorem callBuilder_provides (hs : setting.Provides count) {number : Nat} (below : number < count)
    (method : String) (h : ∀ a ∈ arguments, IsPresent count a) :
    Provides setting count IsPresent (callBuilder number method arguments) := by
  unfold callBuilder
  split
  · exact .bind (Edit.apply_provides (SqlComposition.Method.edit_provides hs _ _ h) _) fun _ _ le _ =>
      .pure fun _ le' => Value.isPresent_object.2 (below.trans_le (le.trans le'))
  · exact Reading.call_provides _ _ _

theorem callStatement_provides (hs : setting.Provides count) (kind : StatementKind) {number : Nat}
    (below : number < count) (method : String) (h : ∀ a ∈ arguments, IsPresent count a) :
    Provides setting count IsPresent (callStatement kind number method arguments) := by
  unfold callStatement
  split
  · exact .bind (Statement.Edit.apply_provides (Statement.Method.edit_provides hs _ _ h) _) fun _ _ le _ =>
      .pure fun _ le' => Value.isPresent_object.2 (below.trans_le (le.trans le'))
  · rename_i u _ _
    split
    · exact .throw _
    · cases u with
      | text => exact .map (.write _) fun _ _ _ => Value.isPresent_text _
      | execution => exact executeStatement_provides hs kind number
  · exact .throw _

theorem callDialect_provides (d : Dialect) (method : String) (arguments : List Value) :
    Provides setting count IsPresent (callDialect d method arguments) := by
  unfold callDialect
  split
  · split
    · exact .pure fun _ _ => Value.isPresent_text _
    · exact .bind (.write _) fun _ _ _ _ => .pure fun _ _ => Value.isPresent_text _
  · exact .throw _
  · exact .throw _
  · exact .throw _

theorem made_provides {dialect : Value} (hd : IsPresent count dialect) {edit : Edit}
    (h : edit.Provides setting count) : Provides setting count IsPresent (made dialect edit) := by
  refine .bind (.newBuilder hd) fun number _ le below =>
    .bind (Edit.apply_provides (fun work hw => (h work hw).later le) number) fun _ _ le' _ =>
      .pure fun _ le'' => Value.isPresent_object.2 (below.trans_le (le'.trans le''))

theorem makeStatement_provides {x : Statement} (h : (Content.statement x).IsPresent count) :
    Provides setting count IsPresent (makeStatement x) :=
  .make _ h

theorem statementOf_isPresent {f : Factory} (hf : f.executor < count) (kind : StatementKind) {table : Value}
    (ht : IsPresent count table) : (Content.statement (statementOf f kind table)).IsPresent count :=
  ⟨hf, ht, fun _ _ _ => rfl, fun _ _ _ => rfl, fun _ _ _ => rfl, fun _ _ _ => rfl⟩

theorem performFactory_provides (hs : setting.Provides count) (name : String) {number : Nat}
    (below : number < count) {f : Factory} (hf : (Content.factory f).IsPresent count) (m : FactoryMethod)
    (h : ∀ a ∈ arguments, IsPresent count a) :
    Provides setting count IsPresent (performFactory name number f m arguments) := by
  unfold performFactory
  split
  · exact made_provides hf.2 (List.forall_mem_nil _)
  · exact made_provides hf.2 (Edit.select_provides h)
  · exact made_provides hf.2 (Edit.table_provides _ _)
  · exact made_provides hf.2 (Edit.table_provides _ _)
  · exact .make _ ⟨below, h _ (by simp)⟩
  · exact makeStatement_provides (statementOf_isPresent hf.1 _ (h _ (by simp)))
  · exact fetch_provides hs _ _
  · exact first_provides hs _ _
  · exact .throw _

theorem callFactory_provides (hs : setting.Provides count) {number : Nat} (below : number < count)
    (method : String) (h : ∀ a ∈ arguments, IsPresent count a) :
    Provides setting count IsPresent (callFactory number method arguments) := by
  unfold callFactory
  split
  · exact .throw _
  · exact .bind (.factory number) fun f _ le hf =>
      performFactory_provides (hs.later le) _ (below.trans_le le) hf _ fun a ha => (h a ha).mono le

theorem filtered_provides (hs : setting.Provides count) (table : Value) {condition : List Value}
    (h : ∀ a ∈ condition, IsPresent count a) : Edit.Provides setting count (filtered table condition) :=
  List.forall_mem_append.2 ⟨Edit.table_provides _ _, Edit.filter_provides hs _ _ h⟩

theorem performTable_provides (hs : setting.Provides count) (name : String) {f : Factory}
    (hf : (Content.factory f).IsPresent count) {table : Value} (ht : IsPresent count table) (m : TableMethod)
    (h : ∀ a ∈ arguments, IsPresent count a) :
    Provides setting count IsPresent (performTable name f table m arguments) := by
  unfold performTable
  split
  · exact made_provides hf.2 (List.forall_mem_append.2 ⟨Edit.select_provides h, Edit.table_provides _ _⟩)
  · exact made_provides hf.2 (filtered_provides hs _ h)
  · exact made_provides hf.2 (filtered_provides hs _ h)
  · rename_i data
    refine .bind (.ofExcept (g := IsPresent) fun rows more le read => ?_) fun rows _ le there =>
      makeStatement_provides ?_
    · exact Statement.isPresent_rowsOf ((h data (by simp)).mono le) read
    · exact Statement.setRows_supplies there _ le_rfl _ ((statementOf_isPresent hf.1 _ ht).mono le)
  · refine .bind (.add (statementOf_isPresent hf.1 _ ht)) fun number _ le below =>
      .bind (Statement.Edit.apply_provides (Statement.Method.edit_provides (hs.later le) _ _ fun a ha =>
        (h a ha).mono le) number) fun _ _ le' _ =>
          .pure fun _ le'' => Value.isPresent_object.2 (below.trans_le (le'.trans le''))
  · exact makeStatement_provides (statementOf_isPresent hf.1 _ ht)
  · exact .throw _

theorem callTable_provides (hs : setting.Provides count) (number : Nat) (method : String)
    (h : ∀ a ∈ arguments, IsPresent count a) :
    Provides setting count IsPresent (callTable number method arguments) := by
  unfold callTable
  split
  · exact .throw _
  · exact .bind (.table number) fun t _ le ht => .bind (.factory t.factory) fun f _ le' hf =>
      performTable_provides (hs.later (le.trans le')) _ hf (ht.2.mono le') _ fun a ha =>
        (h a ha).mono (le.trans le')

theorem callMethod_provides (hs : setting.Provides count) {receiver : Value} (hr : IsPresent count receiver)
    (method : String) (h : ∀ a ∈ arguments, IsPresent count a) :
    Provides setting count IsPresent (callMethod receiver method arguments) := by
  unfold callMethod
  split
  · exact callBuilder_provides hs (Value.isPresent_object.1 hr) _ h
  · exact callStatement_provides hs _ (Value.isPresent_object.1 hr) _ h
  · exact callFactory_provides hs (Value.isPresent_object.1 hr) _ h
  · exact callTable_provides hs _ _ h
  · exact callDialect_provides _ _ _
  · exact .throw _

/-! ## Steps -/

theorem makeFactory_provides (executor : Executor) {dialect : Value} (h : IsPresent count dialect) :
    Provides setting count IsPresent (makeFactory executor dialect) :=
  .bind (.chooseDialect h) fun _ _ _ hd => .bind (.add trivial) fun _ _ le below =>
    .make _ ⟨below, hd.mono le⟩

theorem makeBuilder_provides {dialect : Value} (hd : IsPresent count dialect) {edit : Edit}
    (h : edit.Provides setting count) : Provides setting count IsPresent (makeBuilder dialect edit) :=
  .bind (.chooseDialect hd) fun _ _ le hd => made_provides hd fun work hw => (h work hw).later le

theorem construct_provides (name : String) (executor : Executor) (c : Construction)
    (h : ∀ a ∈ arguments, IsPresent count a) :
    Provides setting count IsPresent (construct name executor c arguments) := by
  have null : IsPresent count Value.null := Value.isPresent_scalar _
  unfold construct
  split
  · exact makeBuilder_provides null (List.forall_mem_nil _)
  · exact makeBuilder_provides (h _ (by simp)) (List.forall_mem_nil _)
  · exact makeBuilder_provides null (Edit.select_provides h)
  · exact makeBuilder_provides null (Edit.table_provides _ _)
  · exact makeBuilder_provides null (Edit.table_provides _ _)
  · exact .map (.fragment (h _ (by simp)) fun _ same => by cases same) fun _ _ there =>
      Value.isPresent_fragment.2 there
  · refine .map (.fragment (h _ (by simp)) fun v same => ?_) fun _ _ there => Value.isPresent_fragment.2 there
    exact Option.some.inj same ▸ h _ (by simp)
  · exact makeFactory_provides executor null
  · exact makeFactory_provides executor (h _ (by simp))
  · exact .throw _

theorem awaited_provides (hs : setting.Provides count) (v : Value) :
    Provides setting count IsPresent (awaited v) := by
  unfold awaited
  split
  · exact executeStatement_provides hs _ _
  · exact .throw _

theorem propertyOf_provides (v : Value) (name : String) :
    Provides setting count IsPresent (propertyOf v name) := by
  unfold propertyOf
  split
  · exact .bind (.builder _) fun _ _ _ there => .pure fun _ le => there.2.1.mono le
  · exact .pure fun _ _ => Value.isPresent_text _
  · exact .pure fun _ _ => Value.isPresent_scalar _
  · exact .throw _

theorem lookup_provides (hs : setting.Provides count) (name : String) :
    Provides setting count IsPresent (lookup name) := by
  refine .bind .read ?_
  rintro _ _ le rfl
  exact .ofExcept fun v _ le' found => (hs.resolved name v found).mono (le.trans le')

/-- What a task comes to, where it is not the receiver itself, is there. -/
def Outcome.IsPresent (count : Nat) (outcome : Outcome) : Prop :=
  ∀ v, outcome = value v → HasObjects.IsPresent count v

theorem Outcome.isPresent_value (h : HasObjects.IsPresent count v) : (value v).IsPresent count :=
  fun _ same => Outcome.value.inj same ▸ h

theorem Outcome.isPresent_ofValue (receiver : Value) (h : HasObjects.IsPresent count v) :
    (ofValue receiver v).IsPresent count := by
  unfold ofValue
  split
  · split
    · exact nofun
    · exact isPresent_value h
  · split
    · exact nofun
    · exact isPresent_value h
  · exact isPresent_value h

theorem Task.run_provides (hs : setting.Provides count) (t : Task) :
    Provides setting count (fun more outcome => Outcome.IsPresent more outcome) t.run := by
  cases t with
  | make construction terms executor =>
    rw [Task.run]
    split
    · exact .bind (Term.evalAll_provides hs terms) fun values _ _ there =>
        .bind (construct_provides _ executor _ there) fun _ _ _ made => .pure fun _ le =>
          Outcome.isPresent_value (made.mono le)
    · exact .throw _
  | evaluate t => exact .map (t.eval_provides hs) fun _ _ there => Outcome.isPresent_value there
  | call receiver method terms =>
    exact .bind (lookup_provides hs receiver) fun v _ le hv =>
      .bind (Term.evalAll_provides (hs.later le) terms) fun values _ le' there =>
        .bind (callMethod_provides (hs.later (le.trans le')) (hv.mono le') method there) fun _ _ _ made =>
          .pure fun _ le'' => Outcome.isPresent_ofValue v (made.mono le'')
  | await receiver =>
    exact .bind (lookup_provides hs receiver) fun v _ le _ =>
      .bind (awaited_provides (hs.later le) v) fun _ _ _ made => .pure fun _ le' =>
        Outcome.isPresent_ofValue v (made.mono le')
  | text receiver =>
    exact .bind (lookup_provides hs receiver) fun v _ _ _ => .bind (.write v) fun _ _ _ _ => .pure fun _ _ =>
      Outcome.isPresent_ofValue v (Value.isPresent_text _)
  | property receiver name =>
    exact .bind (lookup_provides hs receiver) fun v _ _ _ =>
      .bind (propertyOf_provides v name) fun _ _ _ there => .pure fun _ le =>
        Outcome.isPresent_value (there.mono le)

/-! ## Sessions -/

/-- All that is held is there, and so is all that has a name. -/
structure World.IsWhole (w : World) : Prop where
  store : w.store.IsWhole
  names : ∀ e ∈ w.names, IsPresent w.store.contents.length e.2

theorem World.IsWhole.resolved {w : World} (h : w.IsWhole) {name : String} {v : Value}
    (found : w.resolve name = .ok v) : IsPresent w.store.contents.length v := by
  unfold World.resolve at found
  split at found
  · rename_i named
    obtain rfl := Except.ok.inj found
    obtain ⟨first, rest, split, -⟩ := List.lookup_eq_some_iff.1 named
    exact h.names _ (split ▸ List.mem_append_right first List.mem_cons_self)
  · cases found

theorem World.IsWhole.provides {w : World} (h : w.IsWhole) :
    w.scope.setting.Provides w.store.contents.length :=
  Scope.settingWithin_provides (fun _ _ => h.resolved) _

/-- A step leaves a whole store, and what it gives a name is there. -/
theorem perform_isWhole {w : World} (h : w.IsWhole) (s : Step) : (perform w s).1.IsWhole := by
  have provided := (s.task.run_provides h.provides).outcome { store := w.store } h.store le_rfl
  have receiver (v : Value) (hv : (s.task.receiver?.bind fun name => (w.resolve name).toOption) = some v) :
      IsPresent w.store.contents.length v := by
    obtain ⟨name, -, found⟩ := Option.bind_eq_some_iff.1 hv
    cases resolved : w.resolve name with
    | ok u =>
      rw [resolved] at found
      exact Option.some.inj found ▸ h.resolved resolved
    | error failure =>
      rw [resolved] at found
      cases found
  rw [perform]
  cases ran : s.task.run w.scope.setting { store := w.store } with
  | error failure stage =>
    rw [ran] at provided
    exact ⟨provided.1, fun e he => (h.names e he).mono provided.2⟩
  | ok outcome stage =>
    rw [ran] at provided
    obtain ⟨⟨whole, longer⟩, given⟩ := provided
    have kept : World.IsWhole { w with store := stage.store } :=
      ⟨whole, fun e he => (h.names e he).mono longer⟩
    simp only [bindResult]
    split
    · rename_i name v _ named
      refine ⟨whole, List.forall_mem_cons.2 ⟨?_, kept.names⟩⟩
      cases outcome with
      | self => exact (receiver v named).mono longer
      | value u => exact Option.some.inj named ▸ given u rfl
    · exact kept

theorem after_isWhole {w : World} (h : w.IsWhole) (steps : List Step) : (w.after steps).IsWhole := by
  induction steps generalizing w with
  | nil => exact h
  | cons s rest ih => exact ih (perform_isWhole h s)

end Session

/-- The objects of a session after some steps of it, and after the arguments of a further call are worked out
if there are any. -/
def Store.InSession (s : Store) : Prop :=
  ∃ (registry : Registry) (steps : List Session.Step) (w : Session.World) (terms : List Term)
    (arguments : List Value) (stage : Stage), w = Session.World.after { registry } steps ∧
      Term.evalAll terms w.scope.setting { store := w.store } = .ok arguments stage ∧ s = stage.store

/-- In every session, all that is held is there. -/
theorem Store.InSession.isClosed {s : Store} (h : s.InSession) : s.IsClosed := by
  obtain ⟨registry, steps, w, terms, arguments, stage, rfl, worked, rfl⟩ := h
  have start : Session.World.IsWhole { registry } := ⟨List.forall_mem_nil _, List.forall_mem_nil _⟩
  have whole := Session.after_isWhole start steps
  have provided := (Term.evalAll_provides whole.provides terms).outcome { store := _ } whole.store le_rfl
  rw [worked] at provided
  exact provided.1.1.isClosed

end SqlComposition
