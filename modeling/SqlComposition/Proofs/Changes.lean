import SqlComposition.Proofs.Invariants
import SqlComposition.Proofs.Takings

/-!
What calls of a builder change. Whatever its arguments are, the work of a call adds objects to those there
are and changes none of them, until a change of the query is worked out. Such a change adds one clause of
the kind that the method is for, or puts it in place of the one before; the other clauses stay as they are.
-/

namespace SqlComposition
open SqlComposition.Action Store

/-! ## Objects that are only added -/

namespace Store.Grown

variable {base s : Store}

theorem length_le (h : base.Grown s) : base.contents.length ≤ s.contents.length := by
  obtain ⟨more, hs⟩ := h
  rw [hs, List.length_append]
  exact Nat.le_add_right _ _

theorem content?_eq (h : base.Grown s) {number : Nat} (hn : number < base.contents.length) :
    s.content? number = base.content? number := by
  obtain ⟨more, hs⟩ := h
  rw [content?, content?, hs, List.getElem?_append_left hn]

theorem add (h : base.Grown s) (c : Content) : base.Grown (s.add c) := by
  obtain ⟨more, hs⟩ := h
  exact ⟨more ++ [c], by rw [Store.add, hs, List.append_assoc]⟩

theorem set (h : base.Grown s) {number : Nat} (hn : base.contents.length ≤ number) (c : Content) :
    base.Grown (s.set number c) := by
  obtain ⟨more, hs⟩ := h
  exact ⟨more.set (number - base.contents.length) c, by rw [Store.set, hs, List.set_append_right _ _ hn]⟩

theorem copyBuilder (s : Store) (number : Nat) (b : Builder) : s.Grown (s.copyBuilder number b) :=
  ⟨_, rfl⟩

/-- Moves only add objects, where what was not there before may be changed. -/
theorem move {t : Store} (h : base.Grown s) (m : s.Move (base.contents.length ≤ ·) t) : base.Grown t := by
  cases m with
  | add _ => exact h.add _
  | mark => exact h
  | copy met copies => exact h.trans ⟨_, rfl⟩
  | change b hn => exact h.set hn _

theorem isInvariant :
    Stage.IsInvariant (fun stage => base.Grown stage.store) (base.contents.length ≤ ·) where
  log _ _ h := h
  move _ _ h m := h.move m
  fresh _ h := h.length_le

end Store.Grown

/-- Work that adds objects to those of a store and changes none of them. -/
abbrev Action.Adds {α : Type} (setting : Setting) (base : Store) (gives : α → Prop)
    (work : Action α) : Prop :=
  Keeps setting base.Grown gives work

/-- While functions are called, objects are only added. -/
def Setting.Adds (setting : Setting) : Prop :=
  ∀ (base : Store) (f : Function), Action.Adds setting base (fun _ => True) fun _ => setting.call f

variable {setting : Setting} {base : Store}

theorem Setting.Adds.carries (hs : setting.Adds) : setting.Carries fun stage => base.Grown stage.store :=
  fun f => (hs base f).carries

/-- Functions may call functions, however deep. -/
theorem Scope.settingWithin_adds (scope : Scope) (depth : Nat) : (scope.settingWithin depth).Adds :=
  fun _ f => .of_carries (scope.settingWithin_carries Grown.isInvariant depth f)

namespace Action.Adds

theorem query (hs : setting.Adds) (v : Value) :
    Adds setting base (fun _ => True) (Action.query v) :=
  .of_carries (.query Grown.isInvariant hs.carries v)

theorem operand (v : Value) : Adds setting base (fun _ => True) (Action.operand v) :=
  .of_carries (.operand Grown.isInvariant v)

theorem operands (items : List Value) :
    Adds setting base (fun _ => True) (items.mapM Action.operand) :=
  .of_carries (.operands Grown.isInvariant items)

theorem bindings (given : Option Value) :
    Adds setting base (fun _ => True) (Action.bindings given) :=
  .of_carries (.bindings Grown.isInvariant given)

theorem fragment (sql : Value) (given : Option Value) :
    Adds setting base (fun _ => True) (Action.fragment sql given) :=
  .of_carries (.fragment Grown.isInvariant sql given)

theorem members (hs : setting.Adds) (v : Value) :
    Adds setting base (fun _ => True) (Action.members v) :=
  .of_carries (.members Grown.isInvariant hs.carries v)

end Action.Adds

theorem Test.predicate_adds (hs : setting.Adds) (call : String) (test : Test) (arguments : List Value) :
    Adds setting base (fun _ => True) (test.predicate call arguments) :=
  .of_carries (test.predicate_carries Grown.isInvariant hs.carries call arguments)

theorem Filter.condition_adds (hs : setting.Adds) (call : String) (f : Filter) (arguments : List Value) :
    Adds setting base (fun _ => True) (f.condition call arguments) :=
  .of_carries (f.condition_carries Grown.isInvariant hs.carries call arguments)

/-! ## The calls of a builder -/

namespace Edit

/-- All changes of an edit are of one kind, and until each is worked out objects are only added. -/
def Makes (setting : Setting) (base : Store) (kind : ClauseKind) (edit : Edit) : Prop :=
  ∀ work ∈ edit, Adds setting base (Change.Makes kind) work

theorem joinTarget_adds (hs : setting.Adds) (target : Value) :
    Adds setting base (fun _ => True) (joinTarget target) :=
  .of_carries (joinTarget_carries Grown.isInvariant hs.carries target)

theorem joinCondition_adds (on : Option Value) :
    Adds setting base (fun _ => True) (joinCondition on) :=
  .of_carries (joinCondition_carries Grown.isInvariant on)

theorem cteBody_adds (hs : setting.Adds) (body : Value) :
    Adds setting base (fun _ => True) (cteBody body) :=
  .of_carries (cteBody_carries Grown.isInvariant hs.carries body)

theorem cteColumns_adds (columns : Option Value) :
    Adds setting base (fun _ => True) (cteColumns columns) :=
  .of_carries (cteColumns_carries columns)

end Edit

/-- Every call of a method makes changes of the kind that the method is for, whatever its arguments are. -/
theorem Method.edit_makes (hs : setting.Adds) (name : String) (m : Method) (arguments : List Value) :
    Edit.Makes setting base m.kind (m.edit name arguments) :=
  fun work hw => .of_carries (m.edit_carries Grown.isInvariant hs.carries name arguments work hw)

theorem Term.eval_adds (hs : setting.Adds) (t : Term) : Adds setting base (fun _ => True) t.eval :=
  .of_carries (t.eval_carries Grown.isInvariant hs.carries)

theorem Term.evalAll_adds (hs : setting.Adds) (terms : List Term) :
    Adds setting base (fun _ => True) (Term.evalAll terms) :=
  .of_carries (Term.evalAll_carries Grown.isInvariant hs.carries terms)

end SqlComposition
