import SqlComposition.Action

/-!
What actions keep. A property of the stage is kept by an action if it holds of every stage that the action
leaves, also when it fails on the way, as long as it held before; with it comes what is then known of the
result. Actions that are put together keep what their parts keep. Most properties are about the objects
alone, so that logging and running does not matter to them.
-/

namespace SqlComposition.Action

/-- From a stage with the property `p` the work comes to a stage with `p`, and to a result as `gives`
says if it comes to one. -/
structure Carries {α : Type} (setting : Setting) (p : Stage → Prop) (gives : α → Prop)
    (work : Action α) : Prop where
  outcome : ∀ stage : Stage, p stage →
    match work setting stage with
    | .ok a after => p after ∧ gives a
    | .error _ after => p after

/-- From a store with the property `p` the work comes to a store with `p`, and to a result as `gives`
says if it comes to one. -/
structure Keeps {α : Type} (setting : Setting) (p : Store → Prop) (gives : α → Prop)
    (work : Action α) : Prop where
  outcome : ∀ stage : Stage, p stage.store →
    match work setting stage with
    | .ok a after => p after.store ∧ gives a
    | .error _ after => p after.store

variable {α β : Type} {setting : Setting} {g : α → Prop} {r : β → Prop}

namespace Carries

variable {p : Stage → Prop}

theorem pure {a : α} (h : g a) : Carries setting p g (pure a) :=
  ⟨fun _ hp => ⟨hp, h⟩⟩

theorem throw (failure : Failure) : Carries setting p g (throw failure) :=
  ⟨fun _ hp => hp⟩

theorem bind {work : Action α} {next : α → Action β} (h : Carries setting p g work)
    (hn : ∀ a, g a → Carries setting p r (next a)) : Carries setting p r (work >>= next) := by
  refine ⟨fun stage hp => ?_⟩
  have first := h.outcome stage hp
  change match (EStateM.bind (work setting) fun a => next a setting) stage with
    | .ok b after => p after ∧ r b
    | .error _ after => p after
  rw [EStateM.bind]
  cases done : work setting stage with
  | ok a after =>
    rw [done] at first
    exact (hn a first.2).outcome after first.1
  | error failure after =>
    rw [done] at first
    exact first

theorem weaken {work : Action α} {less : α → Prop} (h : Carries setting p g work)
    (hw : ∀ a, g a → less a) : Carries setting p less work := by
  refine ⟨fun stage hp => ?_⟩
  have kept := h.outcome stage hp
  cases done : work setting stage with
  | ok a after =>
    rw [done] at kept
    exact ⟨kept.1, hw a kept.2⟩
  | error failure after =>
    rw [done] at kept
    exact kept

theorem map {work : Action α} {f : α → β} (h : Carries setting p g work)
    (hf : ∀ a, g a → r (f a)) : Carries setting p r (f <$> work) :=
  bind h fun a ha => pure (hf a ha)

theorem discard {work : Action α} (h : Carries setting p g work) :
    Carries setting p (fun _ => True) (Functor.discard work) :=
  map h fun _ _ => trivial

theorem forM {items : List α} {work : α → Action Unit}
    (h : ∀ a ∈ items, Carries setting p (fun _ => True) (work a)) :
    Carries setting p (fun _ => True) (items.forM work) := by
  induction items with
  | nil => exact pure trivial
  | cons a rest ih =>
    obtain ⟨first, others⟩ := List.forall_mem_cons.1 h
    exact bind first fun _ _ => ih others

theorem mapM {items : List α} {work : α → Action β}
    (h : ∀ a ∈ items, Carries setting p r (work a)) :
    Carries setting p (fun results => ∀ b ∈ results, r b) (items.mapM work) := by
  induction items with
  | nil =>
    rw [List.mapM_nil]
    exact pure (List.forall_mem_nil _)
  | cons a rest ih =>
    obtain ⟨first, others⟩ := List.forall_mem_cons.1 h
    rw [List.mapM_cons]
    exact bind first fun b hb => bind (ih others) fun later hl => pure (List.forall_mem_cons.2 ⟨hb, hl⟩)

theorem ofExcept {result : Except Failure α} (h : ∀ a, result = .ok a → g a) :
    Carries setting p g (Action.ofExcept result) := by
  cases result with
  | ok a => exact pure (h a rfl)
  | error failure => exact throw failure

theorem anyOf (result : Except Failure α) :
    Carries setting p (fun _ => True) (Action.ofExcept result) :=
  ofExcept fun _ _ => trivial

theorem modify {f : Stage → Stage} (h : ∀ stage, p stage → p (f stage)) :
    Carries setting p (fun _ => True) (modify f : Action Unit) :=
  ⟨fun stage hp => ⟨h stage hp, trivial⟩⟩

theorem store : Carries setting p (fun s => ∃ stage, p stage ∧ stage.store = s) Action.store :=
  ⟨fun stage hp => ⟨hp, stage, hp, rfl⟩⟩

theorem read : Carries setting p (fun s => s = setting) (read : Action Setting) :=
  ⟨fun _ hp => ⟨hp, rfl⟩⟩

/-- What is looked up is found in a store that the property allows. -/
theorem known {find : Store → Nat → Option α} {number : Nat}
    (h : ∀ stage a, p stage → find stage.store number = some a → g a) :
    Carries setting p g (Action.known find number) := by
  rw [Action.known]
  refine bind store ?_
  rintro _ ⟨stage, hp, rfl⟩
  split
  · rename_i a found
    exact pure (h stage a hp found)
  · exact throw _

theorem shownBuilder (number : Nat) :
    Carries setting p (fun _ => True) (Action.shownBuilder number) :=
  known fun _ _ _ _ => trivial

end Carries

namespace Keeps

variable {p : Store → Prop}

theorem of_carries {work : Action α} (h : Carries setting (fun stage => p stage.store) g work) :
    Keeps setting p g work :=
  ⟨h.outcome⟩

theorem carries {work : Action α} (h : Keeps setting p g work) :
    Carries setting (fun stage => p stage.store) g work :=
  ⟨h.outcome⟩

theorem pure {a : α} (h : g a) : Keeps setting p g (pure a) :=
  of_carries (.pure h)

theorem throw (failure : Failure) : Keeps setting p g (throw failure) :=
  of_carries (.throw failure)

theorem bind {work : Action α} {next : α → Action β} (h : Keeps setting p g work)
    (hn : ∀ a, g a → Keeps setting p r (next a)) : Keeps setting p r (work >>= next) :=
  of_carries (h.carries.bind fun a ha => (hn a ha).carries)

theorem weaken {work : Action α} {less : α → Prop} (h : Keeps setting p g work)
    (hw : ∀ a, g a → less a) : Keeps setting p less work :=
  of_carries (h.carries.weaken hw)

theorem map {work : Action α} {f : α → β} (h : Keeps setting p g work)
    (hf : ∀ a, g a → r (f a)) : Keeps setting p r (f <$> work) :=
  of_carries (h.carries.map hf)

theorem discard {work : Action α} (h : Keeps setting p g work) :
    Keeps setting p (fun _ => True) (Functor.discard work) :=
  of_carries h.carries.discard

theorem forM {items : List α} {work : α → Action Unit}
    (h : ∀ a ∈ items, Keeps setting p (fun _ => True) (work a)) :
    Keeps setting p (fun _ => True) (items.forM work) :=
  of_carries (.forM fun a ha => (h a ha).carries)

theorem mapM {items : List α} {work : α → Action β}
    (h : ∀ a ∈ items, Keeps setting p r (work a)) :
    Keeps setting p (fun results => ∀ b ∈ results, r b) (items.mapM work) :=
  of_carries (.mapM fun a ha => (h a ha).carries)

theorem ofExcept {result : Except Failure α} (h : ∀ a, result = .ok a → g a) :
    Keeps setting p g (Action.ofExcept result) :=
  of_carries (.ofExcept h)

theorem anyOf (result : Except Failure α) :
    Keeps setting p (fun _ => True) (Action.ofExcept result) :=
  of_carries (.anyOf result)

/-- Logging and running leave the objects alone. -/
theorem modify {f : Stage → Stage} (h : ∀ stage, (f stage).store = stage.store) :
    Keeps setting p (fun _ => True) (modify f : Action Unit) :=
  of_carries (.modify fun stage hp => (h stage).symm ▸ hp)

theorem store : Keeps setting p p Action.store :=
  ⟨fun _ hp => ⟨hp, hp⟩⟩

theorem read : Keeps setting p (fun s => s = setting) (read : Action Setting) :=
  of_carries .read

theorem update {f : Store → Store} (h : ∀ s, p s → p (f s)) :
    Keeps setting p (fun _ => True) (Action.update f) :=
  of_carries (.modify fun stage hp => h stage.store hp)

/-- What is looked up is found in a store with the property. -/
theorem known {find : Store → Nat → Option α} {number : Nat}
    (h : ∀ s a, p s → find s number = some a → g a) :
    Keeps setting p g (Action.known find number) :=
  of_carries (.known fun stage a hp found => h stage.store a hp found)

theorem logSourceless (count : Nat) : Keeps setting p (fun _ => True) (Action.logSourceless count) :=
  modify fun _ => rfl

theorem writing {work : Writing α} (h : ∀ a, work.outcome.1 = .ok a → g a) :
    Keeps setting p g (Action.writing work) :=
  bind (logSourceless _) fun _ _ => ofExcept h

theorem look {v : Value} {g : Value → Prop} (h : ∀ s : Store, g (s.look v)) :
    Keeps setting p g (Action.look v) :=
  bind store fun s _ => pure (h s)

theorem write (v : Value) : Keeps setting p (fun _ => True) (Action.write v) :=
  bind (look (g := fun _ => True) fun _ => trivial) fun _ _ => writing fun _ _ => trivial

/-- A text is written as itself. -/
theorem write_text {s : String} {next : String → Action β} (h : Keeps setting p r (next s)) :
    Keeps setting p r (Action.write (Value.text s) >>= next) := by
  have written : Keeps setting p (fun text => text = s) (Action.write (Value.text s)) := by
    refine bind (look (g := fun v => v = Value.text s) fun _ => rfl) ?_
    rintro _ rfl
    exact writing fun _ h => (Except.ok.inj h).symm
  exact bind written fun text same => same ▸ h

theorem shownBuilder (number : Nat) : Keeps setting p (fun _ => True) (Action.shownBuilder number) :=
  of_carries (.shownBuilder number)

end Keeps

end SqlComposition.Action
