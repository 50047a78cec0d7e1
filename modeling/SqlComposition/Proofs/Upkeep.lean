import SqlComposition.Proofs.Invariants
import SqlComposition.Session.Step

/-!
What runs nothing. Only an execution hands text to an executor; everything else, whatever it does to the
objects and however it fails, leaves the texts that were run as they are. Executors that it makes or copies
answer with lists of rows or with errors, if those that there are do.
-/

namespace SqlComposition

/-! ## Executors that answer with rows -/

/-- A list of rows, or an error. -/
inductive Reply.IsRows : Reply → Prop where
  | rows (items : List Term) : IsRows (.rows (.list items))
  | raised (message : String) : IsRows (.raised message)

def Executor.HasRows (e : Executor) : Prop :=
  ∀ reply ∈ e.script, reply.IsRows

theorem Executor.HasRows.reply {e : Executor} (h : e.HasRows) :
    e.reply.1.IsRows ∧ e.reply.2.HasRows := by
  obtain ⟨later, script⟩ := e
  match script with
  | [] => exact ⟨.rows [], List.forall_mem_nil _⟩
  | [last] => exact ⟨h last (List.mem_singleton_self last), h⟩
  | first :: second :: rest =>
    exact ⟨h first List.mem_cons_self, fun reply hr => h reply (List.mem_cons_of_mem first hr)⟩

def Content.HasRows : Content → Prop
  | executor e => e.HasRows
  | builder _ | statement _ | factory _ | table _ | dialect _ | function _ => True

/-- All executors answer with lists of rows or with errors. -/
def Store.HasRows (s : Store) : Prop :=
  ∀ c ∈ s.contents, c.HasRows

namespace Store.HasRows

variable {s : Store}

theorem add (h : s.HasRows) {c : Content} (hc : c.HasRows) : (s.add c).HasRows :=
  List.forall_mem_append.2 ⟨h, List.forall_mem_singleton.2 hc⟩

theorem set (h : s.HasRows) (number : Nat) {c : Content} (hc : c.HasRows) : (s.set number c).HasRows :=
  fun d hd => (List.mem_or_eq_of_mem_set hd).elim (h d) fun same => same ▸ hc

/-- What is copied keeps its kind, and the copy of an executor answers like it. -/
theorem renumber {c : Content} (h : c.HasRows) (f : Nat → StateM (List Nat) Nat) (met : List Nat) :
    ((c.renumber f).run met).1.HasRows := by
  cases c with
  | executor _ => exact h
  | builder _ | statement _ | factory _ | table _ | dialect _ | function _ => trivial

theorem copyContents (h : s.HasRows) {steps : Nat} {met : List Nat} {copies : List Content}
    (hc : ∀ c ∈ copies, c.HasRows) : ∀ c ∈ s.copyContents steps met copies, c.HasRows := by
  induction steps generalizing met copies with
  | zero => exact hc
  | succ steps ih =>
    rw [Store.copyContents]
    split
    · exact hc
    · rename_i c found
      obtain ⟨number, -, found⟩ := Option.bind_eq_some_iff.1 found
      have copied := renumber (h c (List.mem_of_getElem? found)) (numberOfCopy s.contents.length) met
      exact ih (List.forall_mem_append.2 ⟨hc, List.forall_mem_singleton.2 copied⟩)

theorem withCopies (h : s.HasRows) (met : List Nat) {copies : List Content}
    (hc : ∀ c ∈ copies, c.HasRows) : (s.withCopies met copies).HasRows :=
  List.forall_mem_append.2 ⟨h, copyContents h hc⟩

/-- A move adds no executor but copies, and these answer like the ones they are copies of. -/
theorem move {isOpen : Nat → Prop} {t : Store} (h : s.HasRows) (m : s.Move isOpen t) : t.HasRows := by
  cases m with
  | @add c hc =>
    refine h.add ?_
    cases c with
    | executor e => exact absurd rfl (hc e)
    | builder _ | statement _ | factory _ | table _ | dialect _ | function _ => trivial
  | mark => exact h
  | copy met copies => exact h.withCopies met (List.forall_mem_map.2 fun _ _ => trivial)
  | change b _ => exact h.set _ trivial

end Store.HasRows

/-! ## Work that runs nothing -/

/-- The state that some work leaves, also when it fails. -/
def Stage.left {α : Type} : EStateM.Result Failure Stage α → Stage
  | .ok _ stage => stage
  | .error _ stage => stage

/-- Nothing was run since, and all executors still answer with rows. -/
structure Stage.Upkept (before after : Stage) : Prop where
  executed : after.executed = before.executed
  rows : after.store.HasRows

theorem Stage.Upkept.of_same {before other after : Stage} (h : other.Upkept after)
    (same : other.executed = before.executed) : before.Upkept after :=
  ⟨h.executed.trans same, h.rows⟩

theorem Stage.Upkept.isInvariant {before : Stage} : Stage.IsInvariant before.Upkept fun _ => True where
  log _ _ h := ⟨h.executed, h.rows⟩
  move _ _ h m := ⟨h.executed, h.rows.move m⟩
  fresh _ _ := trivial

/-- Work that runs nothing, whatever it comes to. -/
def Action.Upholds {α : Type} (setting : Setting) (work : Action α) : Prop :=
  ∀ stage : Stage, stage.store.HasRows → stage.Upkept (Stage.left (work setting stage))

/-- No call of a function runs anything. -/
def Setting.Upholds (setting : Setting) : Prop :=
  ∀ f : Function, Action.Upholds setting fun _ => setting.call f

variable {α β : Type} {setting : Setting}

/-- From where the first of two actions leaves off, the second goes on. -/
theorem Stage.Upkept.bind {work : Action α} {next : α → Action β} {stage : Stage}
    (first : stage.Upkept (Stage.left (work setting stage)))
    (hn : ∀ a after, work setting stage = .ok a after → after.store.HasRows →
      after.Upkept (Stage.left (next a setting after))) :
    stage.Upkept (Stage.left ((work >>= next) setting stage)) := by
  change stage.Upkept (Stage.left ((EStateM.bind (work setting) fun a => next a setting) stage))
  rw [EStateM.bind]
  cases done : work setting stage with
  | ok a after =>
    rw [done] at first
    obtain ⟨executed, rows⟩ := hn a after done first.rows
    exact ⟨executed.trans first.executed, rows⟩
  | error failure after =>
    rw [done] at first
    exact first

namespace Action.Upholds

theorem of_carries {g : α → Prop} {work : Action α}
    (h : ∀ before : Stage, Carries setting before.Upkept g work) : Upholds setting work := by
  intro stage hr
  have kept := (h stage).outcome stage ⟨rfl, hr⟩
  cases done : work setting stage with
  | ok a after =>
    rw [done] at kept
    exact kept.1
  | error failure after =>
    rw [done] at kept
    exact kept

theorem carries {work : Action α} (h : Upholds setting work) {before : Stage} :
    Carries setting before.Upkept (fun _ => True) work := by
  refine ⟨fun stage upkept => ?_⟩
  have kept := (h stage upkept.rows).of_same upkept.executed
  cases done : work setting stage with
  | ok a after =>
    rw [done] at kept
    exact ⟨kept, trivial⟩
  | error failure after =>
    rw [done] at kept
    exact kept

theorem pure (a : α) : Upholds setting (Pure.pure a) :=
  fun _ h => ⟨rfl, h⟩

theorem throw (failure : Failure) : Upholds setting (MonadExcept.throw failure : Action α) :=
  fun _ h => ⟨rfl, h⟩

theorem bind {work : Action α} {next : α → Action β} (h : Upholds setting work)
    (hn : ∀ a, Upholds setting (next a)) : Upholds setting (work >>= next) :=
  fun stage hr => .bind (h stage hr) fun a after _ rows => hn a after rows

theorem map {work : Action α} (f : α → β) (h : Upholds setting work) : Upholds setting (f <$> work) :=
  bind h fun a => pure (f a)

theorem forM {items : List α} {work : α → Action Unit} (h : ∀ a ∈ items, Upholds setting (work a)) :
    Upholds setting (items.forM work) :=
  of_carries fun _ => .forM fun a ha => (h a ha).carries

theorem ofExcept (result : Except Failure α) : Upholds setting (Action.ofExcept result) :=
  of_carries fun _ => .anyOf result

theorem read : Upholds setting (MonadReader.read : Action Setting) :=
  of_carries fun _ => .read

theorem update {f : Store → Store} (hf : ∀ s : Store, s.HasRows → (f s).HasRows) :
    Upholds setting (Action.update f) :=
  fun stage h => ⟨rfl, hf stage.store h⟩

theorem known (find : Store → Nat → Option α) (number : Nat) :
    Upholds setting (Action.known find number) :=
  of_carries (g := fun _ => True) fun _ => .known fun _ _ _ _ => trivial

theorem write (v : Value) : Upholds setting (Action.write v) :=
  of_carries fun _ => .write Stage.Upkept.isInvariant v

theorem add {c : Content} (hc : c.HasRows) : Upholds setting (Action.add c) :=
  of_carries (g := fun _ => True) fun _ => .bind .store fun _ _ =>
    .bind (update fun _ h => h.add hc).carries fun _ _ => .pure trivial

theorem make (kind : ObjectKind) {c : Content} (hc : c.HasRows) : Upholds setting (Action.make kind c) :=
  bind (add hc) fun _ => pure _

theorem newBuilder (dialect : Value) (q : Query) : Upholds setting (Action.newBuilder dialect q) :=
  add trivial

theorem chooseDialect (v : Value) : Upholds setting (Action.chooseDialect v) :=
  of_carries fun _ => .chooseDialect Stage.Upkept.isInvariant v

theorem fragment (sql : Value) (given : Option Value) : Upholds setting (Action.fragment sql given) :=
  of_carries fun _ => .fragment Stage.Upkept.isInvariant sql given

end Action.Upholds

open SqlComposition.Action

theorem Setting.Upholds.carries (hs : setting.Upholds) {before : Stage} : setting.Carries before.Upkept :=
  fun f => (hs f).carries

/-! ## The calls of a builder -/

theorem Filter.condition_upholds (hs : setting.Upholds) (call : String) (f : Filter)
    (arguments : List Value) : Upholds setting (f.condition call arguments) :=
  .of_carries fun _ => f.condition_carries Stage.Upkept.isInvariant hs.carries call arguments

namespace Edit

/-- Working out the changes of an edit runs nothing. -/
def Upholds (setting : Setting) (edit : Edit) : Prop :=
  ∀ work ∈ edit, Action.Upholds setting work

theorem upholds_of_carries {edit : Edit} {kind : ClauseKind}
    (h : ∀ before : Stage, edit.Carries setting before.Upkept kind) : edit.Upholds setting :=
  fun work hw => .of_carries fun before => h before work hw

theorem select_upholds (columns : List Value) : Upholds setting (select columns) :=
  upholds_of_carries fun _ => select_carries columns

theorem table_upholds (name : Value) (given : Option Value) : Upholds setting (table name given) :=
  upholds_of_carries fun _ => table_carries name given

theorem filter_upholds (hs : setting.Upholds) (call : String) (f : Filter) (arguments : List Value) :
    Upholds setting (filter call f arguments) :=
  upholds_of_carries fun _ => filter_carries Stage.Upkept.isInvariant hs.carries call f arguments

theorem apply_upholds {edit : Edit} (h : edit.Upholds setting) (number : Nat) :
    Action.Upholds setting (edit.apply number) :=
  .forM fun work hw => .bind (h work hw) fun _ => .bind (.known _ _) fun _ =>
    .update fun _ hr => hr.set number trivial

end Edit

theorem Method.edit_upholds (hs : setting.Upholds) (name : String) (m : Method) (arguments : List Value) :
    Edit.Upholds setting (m.edit name arguments) :=
  Edit.upholds_of_carries fun _ => m.edit_carries Stage.Upkept.isInvariant hs.carries name arguments

theorem Reading.call_upholds (number : Nat) (name : String) (arguments : List Value) :
    Upholds setting (Reading.call number name arguments) :=
  .of_carries fun _ => Reading.call_carries Stage.Upkept.isInvariant number name arguments

/-! ## Terms and functions -/

theorem Term.eval_upholds (hs : setting.Upholds) (t : Term) : Upholds setting t.eval :=
  .of_carries fun _ => t.eval_carries Stage.Upkept.isInvariant hs.carries

theorem Term.evalAll_upholds (hs : setting.Upholds) (terms : List Term) :
    Upholds setting (Term.evalAll terms) :=
  .of_carries fun _ => Term.evalAll_carries Stage.Upkept.isInvariant hs.carries terms

theorem Scope.settingWithin_upholds (scope : Scope) (depth : Nat) :
    (scope.settingWithin depth).Upholds :=
  fun f => .of_carries fun _ => scope.settingWithin_carries Stage.Upkept.isInvariant depth f

/-! ## The calls of a session -/

theorem Statement.Method.edit_upholds (hs : setting.Upholds) (name : String) (m : Statement.Method)
    (arguments : List Value) : ∀ work ∈ m.edit name arguments, Action.Upholds setting work := by
  have only {work : Action (Statement → Statement)} (h : Action.Upholds setting work) :
      ∀ w ∈ [work], Action.Upholds setting w :=
    List.forall_mem_singleton.2 h
  unfold Statement.Method.edit
  split
  · exact only (.bind (.ofExcept _) fun _ => .pure _)
  · exact List.forall_mem_map.2 fun _ _ => .bind (.ofExcept _) fun _ => .pure _
  · exact only (.pure _)
  · exact only (.bind (Filter.condition_upholds hs _ _ _) fun _ => .pure _)
  · exact only (.throw _)
  · exact only (.throw _)

theorem Statement.Edit.apply_upholds {edit : Statement.Edit}
    (h : ∀ work ∈ edit, Action.Upholds setting work) (number : Nat) :
    Action.Upholds setting (edit.apply number) :=
  .forM fun work hw => .bind (h work hw) fun _ => .bind (.known _ _) fun _ =>
    .update fun _ hr => hr.set number trivial

namespace Session

theorem callBuilder_upholds (hs : setting.Upholds) (number : Nat) (method : String)
    (arguments : List Value) : Upholds setting (callBuilder number method arguments) := by
  unfold callBuilder
  split
  · exact .bind (Edit.apply_upholds (Method.edit_upholds hs _ _ _) _) fun _ => .pure _
  · exact Reading.call_upholds _ _ _

theorem callDialect_upholds (d : Dialect) (method : String) (arguments : List Value) :
    Upholds setting (callDialect d method arguments) := by
  unfold callDialect
  split
  · split
    · exact .pure _
    · exact .bind (.write _) fun _ => .pure _
  · exact .throw _
  · exact .throw _
  · exact .throw _

theorem made_upholds (dialect : Value) {edit : Edit} (h : edit.Upholds setting) :
    Upholds setting (made dialect edit) :=
  .bind (.newBuilder _ _) fun number => .bind (Edit.apply_upholds h number) fun _ => .pure _

theorem performFactory_upholds (name : String) (number : Nat) (f : Factory) {m : FactoryMethod}
    {arguments : List Value} (h : m = .fetch ∨ m = .first → arguments.length ≠ 1) :
    Upholds setting (performFactory name number f m arguments) := by
  unfold performFactory
  split
  · exact made_upholds _ (List.forall_mem_nil _)
  · exact made_upholds _ (Edit.select_upholds _)
  · exact made_upholds _ (Edit.table_upholds _ _)
  · exact made_upholds _ (Edit.table_upholds _ _)
  · exact .make _ trivial
  · exact .make _ trivial
  · exact absurd rfl (h (.inl rfl))
  · exact absurd rfl (h (.inr rfl))
  · exact .throw _

theorem performTable_upholds (hs : setting.Upholds) (name : String) (f : Factory) (table : Value)
    (m : TableMethod) (arguments : List Value) :
    Upholds setting (performTable name f table m arguments) := by
  have filtered (condition : List Value) : Edit.Upholds setting (filtered table condition) :=
    List.forall_mem_append.2 ⟨Edit.table_upholds _ _, Edit.filter_upholds hs _ _ _⟩
  unfold performTable
  split
  · exact made_upholds _ (List.forall_mem_append.2 ⟨Edit.select_upholds _, Edit.table_upholds _ _⟩)
  · exact made_upholds _ (filtered _)
  · exact made_upholds _ (filtered _)
  · exact .bind (.ofExcept _) fun _ => .make _ trivial
  · exact .bind (.add trivial) fun _ =>
      .bind (Statement.Edit.apply_upholds (Statement.Method.edit_upholds hs _ _ _) _) fun _ => .pure _
  · exact .make _ trivial
  · exact .throw _

theorem callTable_upholds (hs : setting.Upholds) (number : Nat) (method : String)
    (arguments : List Value) : Upholds setting (callTable number method arguments) := by
  unfold callTable
  split
  · exact .throw _
  · exact .bind (.known _ _) fun _ => .bind (.known _ _) fun _ => performTable_upholds hs _ _ _ _ _

theorem construct_upholds (name : String) {executor : Executor} (h : executor.HasRows)
    (c : Construction) (arguments : List Value) :
    Upholds setting (construct name executor c arguments) := by
  have builder (dialect : Value) {edit : Edit} (h : edit.Upholds setting) :
      Upholds setting (makeBuilder dialect edit) :=
    .bind (.chooseDialect _) fun _ => made_upholds _ h
  have factory (dialect : Value) : Upholds setting (makeFactory executor dialect) :=
    .bind (.chooseDialect _) fun _ => .bind (.add h) fun _ => .make _ trivial
  unfold construct
  split
  · exact builder _ (List.forall_mem_nil _)
  · exact builder _ (List.forall_mem_nil _)
  · exact builder _ (Edit.select_upholds _)
  · exact builder _ (Edit.table_upholds _ _)
  · exact builder _ (Edit.table_upholds _ _)
  · exact .map _ (.fragment _ _)
  · exact .map _ (.fragment _ _)
  · exact factory _
  · exact factory _
  · exact .throw _

theorem lookup_upholds (name : String) : Upholds setting (lookup name) :=
  .bind .read fun _ => .ofExcept _

theorem propertyOf_upholds (v : Value) (name : String) : Upholds setting (propertyOf v name) := by
  unfold propertyOf
  split
  · exact .bind (.known _ _) fun _ => .pure _
  · exact .pure _
  · exact .pure _
  · exact .throw _

end Session

end SqlComposition
