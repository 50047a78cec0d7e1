import SqlComposition.Proofs.Evaluation
import SqlComposition.Session.Step

/-!
Objects of a session are isolated from each other. In every session whose calls are meant for what they
are given, a step changes the contents of one object at most: the builder or statement that is called to
change itself. All other builders and statements are written as before, whatever they were made of.
-/

namespace SqlComposition
open SqlComposition.Action Store

/-! ## Statements -/

namespace Statement

def Method.Admits : Method → List Value → Prop
  | filter f, arguments => f.test.Admits arguments
  | values, _ | set, _ | returning, _ => True

section Calls

variable {setting : Setting} {resolve : String → Except Failure Value} {base : Store}
  {isOpen : Nat → Prop}

/-- A change that brings no object into the conditions of a statement. -/
def Edit.Settles (change : Statement → Statement) : Prop :=
  ∀ s : Statement, Condition.AllSettled s.conditions → Condition.AllSettled (change s).conditions

theorem Method.edit_safe (hs : setting.KeepsApart resolve) (name : String) (m : Method)
    {arguments : List Value} (h : m.Admits arguments) :
    ∀ work ∈ m.edit name arguments, Keeps setting (IsApart resolve base isOpen) Edit.Settles work := by
  have only {work : Action (Statement → Statement)}
      (hw : Keeps setting (IsApart resolve base isOpen) Edit.Settles work) :
      ∀ w ∈ [work], Keeps setting (IsApart resolve base isOpen) Edit.Settles w :=
    List.forall_mem_singleton.2 hw
  unfold Method.edit
  split
  · exact only (.bind (.anyOf _) fun _ _ => .pure fun _ settled => settled)
  · exact List.forall_mem_map.2 fun _ _ => .bind (.anyOf _) fun _ _ => .pure fun _ settled => settled
  · exact only (.pure fun _ settled => settled)
  · refine only (.bind (Filter.condition_keeps hs _ _ h) fun c hc => .pure fun s settled => ?_)
    rw [Condition.allSettled_iff] at settled ⊢
    exact List.forall_mem_append.2 ⟨settled, List.forall_mem_singleton.2 hc⟩
  · exact only (.throw _)
  · exact only (.throw _)

theorem Edit.apply_keeps {number : Nat} (hn : MayChange base isOpen number) {edit : Edit}
    (h : ∀ work ∈ edit, Keeps setting (IsApart resolve base isOpen) Edit.Settles work) :
    Keeps setting (IsApart resolve base isOpen) (fun _ => True) (edit.apply number) := by
  refine .forM fun work hw => .bind (h work hw) fun change hc => ?_
  have found : Keeps setting (IsApart resolve base isOpen)
      (fun s : Statement => Condition.AllSettled s.conditions ∧
        (number < base.contents.length → (base.builder? number).isSome = false))
      (Action.known Store.statement? number) := by
    refine .known fun s x hs hx => ?_
    have there := content?_of_statement? hx
    exact ⟨hs.settled _ _ there, fun old => by rw [← hs.builders number old, builder?, there]; rfl⟩
  exact .bind found fun s hs => .update fun _ ha => ha.set hn hs.2 (hc s hs.1)

end Calls

end Statement

namespace Session

/-! ## Steps that are meant for what they are given -/

def FactoryMethod.Admits : FactoryMethod → List Value → Prop
  | select, columns => ∀ column ∈ columns, column.IsTrusted
  | fetch, _ | first, _ => False
  | query, _ | source, _ | table, _ | statement _, _ => True

def TableMethod.Admits : TableMethod → List Value → Prop
  | select, columns => ∀ column ∈ columns, column.IsTrusted
  | filter, arguments => Test.compare.Admits arguments
  | insert, _ | update, _ | delete, _ => True

def Construction.Admits : Construction → List Value → Prop
  | select, columns => ∀ column ∈ columns, column.IsTrusted
  | fragment, [sql] => sql.IsTrusted
  | fragment, [sql, bindings] => sql.IsTrusted ∧ bindings.IsBindings
  | _, _ => True

/-- A call of an object that is meant for its arguments and runs nothing. -/
def Admits (receiver : Value) (method : String) (arguments : List Value) : Prop :=
  match receiver with
  | .object ⟨_, .builder, _⟩ => Call.Admits method arguments
  | .object ⟨_, .statement kind, _⟩ =>
    (∀ m, Statement.Method.ofName? kind method = some m → m.Admits arguments) ∧
      Statement.Use.ofName? method ≠ some .execution
  | .object ⟨_, .factory, _⟩ => ∀ m, FactoryMethod.named.lookup method = some m → m.Admits arguments
  | .object ⟨_, .table, _⟩ => ∀ m, TableMethod.named.lookup method = some m → m.Admits arguments
  | _ => True

def Task.IsSound (resolve : String → Except Failure Value) : Task → Prop
  | make construction terms _ =>
    Term.AllSound resolve terms ∧ ∀ values, Term.AllYield resolve terms values →
      ∀ c, Construction.ofName? construction = some c → c.Admits values
  | evaluate t => t.IsSound resolve
  | call receiver method terms =>
    Term.AllSound resolve terms ∧ ∀ values, Term.AllYield resolve terms values →
      ∀ v, resolve receiver = .ok v → Admits v method values
  | await _ => False
  | text _ | property _ _ => True

/-- A step makes sound calls, and so does every function that there is by then. -/
structure Step.IsSound (w : World) (s : Step) : Prop where
  task : s.task.IsSound w.resolve
  functions : ∀ number f, w.store.function? number = some f → f.IsSound w.resolve

/-- The states that sessions of sound steps come to. -/
inductive Reaches (registry : Registry) : World → Prop where
  | start : Reaches registry { registry }
  | step {w : World} {s : Step} : Reaches registry w → s.IsSound w → Reaches registry (perform w s).1

/-- The state that a session comes to. -/
def World.after (w : World) (steps : List Step) : World :=
  steps.foldl (fun w s => (perform w s).1) w

/-- Something holds of every step of a session, in the state that the step is made in. -/
def Throughout (p : World → Step → Prop) : World → List Step → Prop
  | _, [] => True
  | w, s :: rest => p w s ∧ Throughout p (perform w s).1 rest

theorem Throughout.imp {p q : World → Step → Prop} (hpq : ∀ w s, p w s → q w s) {w : World}
    {steps : List Step} (h : Throughout p w steps) : Throughout q w steps := by
  induction steps generalizing w with
  | nil => exact h
  | cons s rest ih => exact ⟨hpq w s h.1, ih h.2⟩

theorem Reaches.after {registry : Registry} {w : World} (hw : Reaches registry w) {steps : List Step}
    (h : Throughout (fun w s => s.IsSound w) w steps) : Reaches registry (w.after steps) := by
  induction steps generalizing w with
  | nil => exact hw
  | cons s rest ih => exact ih (.step hw h.1) h.2

/-! ## What a step changes -/

/-- What a call of a value may change, if it is one that changes its receiver. -/
def edited? (receiver : Value) (method : String) : Option Nat :=
  match receiver with
  | .object ⟨number, .builder, _⟩ =>
    if (SqlComposition.Method.ofName? method).isSome then some number else none
  | .object ⟨number, .statement kind, _⟩ =>
    if (Statement.Method.ofName? kind method).isSome then some number else none
  | _ => none

/-- The object that a task is a call of, if the call may change it. -/
def Task.target? (resolve : String → Except Failure Value) : Task → Option Nat
  | call receiver method _ => (resolve receiver).toOption.bind (edited? · method)
  | make _ _ _ | evaluate _ | await _ | text _ | property _ _ => none

section Calls

variable {setting : Setting} {resolve : String → Except Failure Value} {base : Store}
  {isOpen : Nat → Prop}

theorem callBuilder_keeps (hs : setting.KeepsApart resolve) {number : Nat} {method : String}
    (hn : (SqlComposition.Method.ofName? method).isSome → MayChange base isOpen number)
    {arguments : List Value} (h : Call.Admits method arguments) :
    Keeps setting (IsApart resolve base isOpen) (fun _ => True) (callBuilder number method arguments) := by
  unfold callBuilder
  split
  · rename_i m named
    exact .bind (Edit.apply_keeps (hn (named ▸ rfl)) (m.edit_safe hs method (h m named))) fun _ _ =>
      .pure trivial
  · exact Reading.call_keeps number method arguments

theorem callStatement_keeps (hs : setting.KeepsApart resolve) {kind : StatementKind} {number : Nat}
    {method : String} (hn : (Statement.Method.ofName? kind method).isSome → MayChange base isOpen number)
    {arguments : List Value}
    (h : ∀ m, Statement.Method.ofName? kind method = some m → m.Admits arguments)
    (hu : Statement.Use.ofName? method ≠ some .execution) :
    Keeps setting (IsApart resolve base isOpen) (fun _ => True)
      (callStatement kind number method arguments) := by
  unfold callStatement
  split
  · rename_i m named
    exact .bind (Statement.Edit.apply_keeps (hn (named ▸ rfl)) (m.edit_safe hs method (h m named)))
      fun _ _ => .pure trivial
  · rename_i u _ named
    have text : u = .text := by
      cases u with
      | text => rfl
      | execution => exact absurd named hu
    subst text
    split
    · exact .throw _
    · exact .map (.write _) fun _ _ => trivial
  · exact .throw _

theorem callDialect_keeps (d : Dialect) (method : String) (arguments : List Value) :
    Keeps setting (IsApart resolve base isOpen) (fun _ => True) (callDialect d method arguments) := by
  unfold callDialect
  split
  · split
    · exact .pure trivial
    · exact .bind (.write _) fun _ _ => .pure trivial
  · exact .throw _
  · exact .throw _
  · exact .throw _

theorem made_keeps (dialect : Value) {edit : Edit} (h : edit.IsSafe setting resolve base isOpen) :
    Keeps setting (IsApart resolve base isOpen) (fun _ => True) (made dialect edit) :=
  .bind (.newBuilder dialect) fun _ hn => .bind (Edit.apply_keeps (.inr hn) h) fun _ _ => .pure trivial

theorem makeStatement_keeps {s : Statement} (h : s.conditions = []) :
    Keeps setting (IsApart resolve base isOpen) (fun _ => True) (Action.makeStatement s) := by
  have settled : (Content.statement s).IsSettled resolve := by
    rw [Content.IsSettled, h, Condition.AllSettled]
    trivial
  exact .weaken (.make _ settled) fun _ _ => trivial

theorem performFactory_keeps (name : String) (number : Nat) (f : Factory) {m : FactoryMethod}
    {arguments : List Value} (h : m.Admits arguments) :
    Keeps setting (IsApart resolve base isOpen) (fun _ => True)
      (performFactory name number f m arguments) := by
  unfold performFactory
  split
  · exact made_keeps _ (List.forall_mem_nil _)
  · exact made_keeps _ (Edit.select_safe h)
  · exact made_keeps _ (Edit.table_safe _ _)
  · exact made_keeps _ (Edit.table_safe _ _)
  · exact .weaken (.make .table trivial) fun _ _ => trivial
  · exact makeStatement_keeps rfl
  · exact h.elim
  · exact h.elim
  · exact .throw _

theorem callFactory_keeps (number : Nat) {method : String} {arguments : List Value}
    (h : ∀ m, FactoryMethod.named.lookup method = some m → m.Admits arguments) :
    Keeps setting (IsApart resolve base isOpen) (fun _ => True)
      (callFactory number method arguments) := by
  unfold callFactory
  split
  · exact .throw _
  · rename_i m named
    exact .bind (.known fun _ _ _ _ => trivial) fun f _ => performFactory_keeps method number f (h m named)

theorem filtered_safe (hs : setting.KeepsApart resolve) (table : Value) {condition : List Value}
    (h : Test.compare.Admits condition) : (filtered table condition).IsSafe setting resolve base isOpen :=
  List.forall_mem_append.2 ⟨Edit.table_safe _ _, Edit.filter_safe hs _ _ h⟩

theorem performTable_keeps (hs : setting.KeepsApart resolve) (name : String) (f : Factory) (table : Value)
    {m : TableMethod} {arguments : List Value} (h : m.Admits arguments) :
    Keeps setting (IsApart resolve base isOpen) (fun _ => True)
      (performTable name f table m arguments) := by
  unfold performTable
  split
  · exact made_keeps _ (List.forall_mem_append.2 ⟨Edit.select_safe h, Edit.table_safe _ _⟩)
  · exact made_keeps _ (filtered_safe hs table h)
  · exact made_keeps _ (filtered_safe hs table h)
  · exact .bind (.anyOf _) fun rows _ => makeStatement_keeps rfl
  · have settled : (Content.statement (statementOf f .update table)).IsSettled resolve := by
      rw [Content.IsSettled, statementOf, Condition.AllSettled]
      trivial
    exact .bind (.add settled) fun number hn =>
      .bind (Statement.Edit.apply_keeps (.inr hn) (Statement.Method.edit_safe hs _ .set trivial))
        fun _ _ => .pure trivial
  · exact makeStatement_keeps rfl
  · exact .throw _

theorem callTable_keeps (hs : setting.KeepsApart resolve) (number : Nat) {method : String}
    {arguments : List Value} (h : ∀ m, TableMethod.named.lookup method = some m → m.Admits arguments) :
    Keeps setting (IsApart resolve base isOpen) (fun _ => True) (callTable number method arguments) := by
  unfold callTable
  split
  · exact .throw _
  · rename_i m named
    exact .bind (.known fun _ _ _ _ => trivial) fun t _ => .bind (.known fun _ _ _ _ => trivial) fun f _ =>
      performTable_keeps hs method f t.name (h m named)

theorem callMethod_keeps (hs : setting.KeepsApart resolve) {receiver : Value} {method : String}
    (hn : ∀ number, edited? receiver method = some number → MayChange base isOpen number)
    {arguments : List Value} (h : Admits receiver method arguments) :
    Keeps setting (IsApart resolve base isOpen) (fun _ => True)
      (callMethod receiver method arguments) := by
  unfold callMethod
  split
  · exact callBuilder_keeps hs (fun some => hn _ (if_pos some)) h
  · exact callStatement_keeps hs (fun some => hn _ (if_pos some)) h.1 h.2
  · exact callFactory_keeps _ h
  · exact callTable_keeps hs _ h
  · exact callDialect_keeps _ _ _
  · exact .throw _

theorem makeFactory_keeps (executor : Executor) (dialect : Value) :
    Keeps setting (IsApart resolve base isOpen) (fun _ => True) (makeFactory executor dialect) :=
  .bind (.chooseDialect dialect) fun _ _ => .bind (.add trivial) fun _ _ =>
    .weaken (.make .factory trivial) fun _ _ => trivial

theorem makeBuilder_keeps (dialect : Value) {edit : Edit}
    (h : edit.IsSafe setting resolve base isOpen) :
    Keeps setting (IsApart resolve base isOpen) (fun _ => True) (makeBuilder dialect edit) :=
  .bind (.chooseDialect dialect) fun chosen _ => made_keeps chosen h

theorem construct_keeps (name : String) (executor : Executor) {c : Construction} {arguments : List Value}
    (h : c.Admits arguments) :
    Keeps setting (IsApart resolve base isOpen) (fun _ => True) (construct name executor c arguments) := by
  have absent (v : Value) (hv : none = some v) : v.IsBindings := by cases hv
  unfold construct
  split
  · exact makeBuilder_keeps _ (List.forall_mem_nil _)
  · exact makeBuilder_keeps _ (List.forall_mem_nil _)
  · exact makeBuilder_keeps _ (Edit.select_safe h)
  · exact makeBuilder_keeps _ (Edit.table_safe _ _)
  · exact makeBuilder_keeps _ (Edit.table_safe _ _)
  · exact .map (.fragment h absent) fun _ _ => trivial
  · exact .map (.fragment h.1 fun v hv => Option.some.inj hv ▸ h.2) fun _ _ => trivial
  · exact makeFactory_keeps executor _
  · exact makeFactory_keeps executor _
  · exact .throw _

theorem lookup_keeps (hs : setting.KeepsApart resolve) (name : String) :
    Keeps setting (IsApart resolve base isOpen) (fun v => resolve name = .ok v) (lookup name) := by
  refine .bind .read ?_
  rintro _ rfl
  exact .ofExcept fun v hv => by rwa [← hs.resolved]

theorem propertyOf_keeps (v : Value) (name : String) :
    Keeps setting (IsApart resolve base isOpen) (fun _ => True) (propertyOf v name) := by
  unfold propertyOf
  split
  · exact .bind (.builder _) fun _ _ => .pure trivial
  · exact .pure trivial
  · exact .pure trivial
  · exact .throw _

theorem Task.run_keeps (hs : setting.KeepsApart resolve) {t : Task} (h : t.IsSound resolve)
    (hn : ∀ number, t.target? resolve = some number → MayChange base isOpen number) :
    Keeps setting (IsApart resolve base isOpen) (fun _ => True) t.run := by
  cases t with
  | make construction terms executor =>
    rw [Task.run]
    split
    · rename_i c named
      exact .bind (Term.evalAll_keeps hs terms h.1) fun values hv =>
        .bind (construct_keeps _ executor (h.2 values hv c named)) fun _ _ => .pure trivial
    · exact .throw _
  | evaluate t => exact .map (t.eval_keeps hs h) fun _ _ => trivial
  | call receiver method terms =>
    refine .bind (lookup_keeps hs receiver) fun v hv => .bind (Term.evalAll_keeps hs terms h.1)
      fun values hy => .bind (callMethod_keeps hs (fun number he => hn number ?_) (h.2 values hy v hv))
        fun _ _ => .pure trivial
    rw [Task.target?, hv]
    exact he
  | await receiver => exact h.elim
  | text receiver =>
    exact .bind (lookup_keeps hs receiver) fun _ _ => .bind (.write _) fun _ _ => .pure trivial
  | property receiver name =>
    exact .bind (lookup_keeps hs receiver) fun _ _ => .bind (propertyOf_keeps _ name) fun _ _ =>
      .pure trivial

end Calls

/-- Seen from before a step, nothing but what the step may change is changed. -/
theorem perform_apart {w : World} {s : Step} (h : s.task.IsSound w.resolve)
    (hw : ∀ number c, w.store.content? number = some c → c.IsSettled w.resolve) :
    IsApart w.resolve w.store (fun number => s.task.target? w.resolve = some number)
      (perform w s).1.store := by
  have safe : w.scope.setting.KeepsApart w.resolve := w.scope.settingWithin_keepsApart _
  have kept := (Task.run_keeps safe h fun number target => .inl target).outcome { store := w.store }
    (IsApart.refl hw)
  rw [perform]
  cases done : s.task.run w.scope.setting { store := w.store } with
  | ok outcome stage =>
    rw [done] at kept
    have same : (bindResult s.name (outcome.value? (s.task.receiver?.bind fun name =>
        (w.resolve name).toOption)) { w with store := stage.store }).store = stage.store := by
      unfold bindResult
      split <;> rfl
    exact same ▸ kept.1
  | error failure stage =>
    rw [done] at kept
    exact kept

theorem Step.IsSound.settled {w : World} {s : Step} (h : s.IsSound w)
    {resolve : String → Except Failure Value}
    (hw : ∀ number c, w.store.content? number = some c → c.IsSettled resolve) (number : Nat)
    (c : Content) (hc : w.store.content? number = some c) : c.IsSettled w.resolve := by
  have settled := hw number c hc
  cases c with
  | builder _ | statement _ => exact settled
  | function f => exact h.functions number f (by rw [function?, hc])
  | factory _ | table _ | executor _ | dialect _ => trivial

/-- In the states that sound sessions come to, no query of a builder and no condition of a statement holds
an object. -/
theorem Reaches.settled {registry : Registry} {w : World} (h : Reaches registry w) :
    ∃ resolve, ∀ number c, w.store.content? number = some c → c.IsSettled resolve := by
  induction h with
  | start => exact ⟨fun name => .error (.noEntry name), fun number c hc => by cases number <;> cases hc⟩
  | @step w s _ sound ih =>
    obtain ⟨resolve, settled⟩ := ih
    exact ⟨w.resolve, (perform_apart sound.task (sound.settled settled)).settled⟩

theorem Reaches.apart {registry : Registry} {w : World} (h : Reaches registry w) {s : Step}
    (hs : s.IsSound w) :
    IsApart w.resolve w.store (fun number => s.task.target? w.resolve = some number)
      (perform w s).1.store := by
  obtain ⟨_, settled⟩ := h.settled
  exact perform_apart hs.task (hs.settled settled)

end Session

end SqlComposition
