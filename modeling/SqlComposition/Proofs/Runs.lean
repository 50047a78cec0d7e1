import SqlComposition.Builder.Method
import SqlComposition.Proofs.Apart

/-!
Runs of actions step by step. What an action made of two comes to is what the second comes to where the
first has left off, and a run that succeeds has succeeded in each of its steps. An edit is made in steps
as well, one for each of its changes.
-/

namespace SqlComposition.Action

variable {α β : Type} {setting : Setting} {stage : Stage}

theorem run_bind {work : Action α} {next : α → Action β} {a : α} {after : Stage}
    (h : work setting stage = .ok a after) :
    (work >>= next) setting stage = next a setting after := by
  change EStateM.bind (work setting) (fun a => next a setting) stage = _
  rw [EStateM.bind, h]

theorem run_bind_error {work : Action α} {next : α → Action β} {failure : Failure} {after : Stage}
    (h : work setting stage = .error failure after) :
    (work >>= next) setting stage = .error failure after := by
  change EStateM.bind (work setting) (fun a => next a setting) stage = _
  rw [EStateM.bind, h]

theorem run_map_congr (f : α → β) {work other : Action α}
    (h : work setting stage = other setting stage) :
    (f <$> work) setting stage = (f <$> other) setting stage := by
  change EStateM.map f (work setting) stage = EStateM.map f (other setting) stage
  rw [EStateM.map, EStateM.map, h]

/-- What comes to the image of something is gone on with as that would be. -/
theorem run_bind_map {γ : Type} {work : Action β} {other : Action α} {f : α → β} {next : β → Action γ}
    {later : Stage} (h : work setting stage = (f <$> other) setting later) :
    (work >>= next) setting stage = (other >>= fun a => next (f a)) setting later := by
  change _ = EStateM.map f (other setting) later at h
  rw [EStateM.map] at h
  cases done : other setting later with
  | ok a after =>
    rw [done] at h
    rw [run_bind h, run_bind done]
  | error failure after =>
    rw [done] at h
    rw [run_bind_error h, run_bind_error done]

theorem of_run_bind {work : Action α} {next : α → Action β} {b : β} {last : Stage}
    (h : (work >>= next) setting stage = .ok b last) :
    ∃ a after, work setting stage = .ok a after ∧ next a setting after = .ok b last := by
  change EStateM.bind (work setting) (fun a => next a setting) stage = _ at h
  rw [EStateM.bind] at h
  cases done : work setting stage with
  | ok a after =>
    rw [done] at h
    exact ⟨a, after, rfl, h⟩
  | error failure after =>
    rw [done] at h
    cases h

theorem of_run_map {work : Action α} {f : α → β} {b : β} {last : Stage}
    (h : (f <$> work) setting stage = .ok b last) :
    ∃ a, work setting stage = .ok a last ∧ f a = b := by
  change EStateM.map f (work setting) stage = _ at h
  rw [EStateM.map] at h
  cases done : work setting stage with
  | ok a after =>
    rw [done] at h
    cases h
    exact ⟨a, rfl, rfl⟩
  | error failure after =>
    rw [done] at h
    cases h

theorem of_run_pure {a b : α} {last : Stage} (h : (pure a : Action α) setting stage = .ok b last) :
    a = b ∧ stage = last := by
  cases h
  exact ⟨rfl, rfl⟩

theorem of_run_ofExcept {result : Except Failure α} {a : α} {last : Stage}
    (h : ofExcept result setting stage = .ok a last) : result = .ok a ∧ stage = last := by
  cases result with
  | ok b =>
    cases h
    exact ⟨rfl, rfl⟩
  | error failure => cases h

theorem run_known {find : Store → Nat → Option α} {number : Nat} {a : α}
    (h : find stage.store number = some a) : known find number setting stage = .ok a stage := by
  have here : store setting stage = .ok stage.store stage := rfl
  rw [known, run_bind here, h]
  rfl

theorem run_unknown {find : Store → Nat → Option α} {number : Nat} (h : find stage.store number = none) :
    known find number setting stage = .error (.noEntry (Number.natText number)) stage := by
  have here : store setting stage = .ok stage.store stage := rfl
  rw [known, run_bind here, h]
  rfl

theorem of_run_known {find : Store → Nat → Option α} {number : Nat} {a : α} {last : Stage}
    (h : known find number setting stage = .ok a last) :
    find stage.store number = some a ∧ stage = last := by
  have here : store setting stage = .ok stage.store stage := rfl
  rw [known, run_bind here] at h
  cases found : find stage.store number with
  | some b =>
    rw [found] at h
    cases h
    exact ⟨rfl, rfl⟩
  | none =>
    rw [found] at h
    cases h

end SqlComposition.Action

namespace SqlComposition.Edit
open SqlComposition.Action

variable {setting : Setting} {number : Nat} {stage after : Stage}

/-- One step of an edit: a change is worked out and made. -/
def step (number : Nat) (work : Action (Query → Query)) : Action Unit := do
  let f ← work
  let b ← Action.known Store.builder? number
  Action.update (·.set number (.builder { b with query := f b.query }))

theorem apply_cons (work : Action (Query → Query)) (rest : Edit) :
    apply number (work :: rest) = step number work >>= fun _ => apply number rest := rfl

theorem of_run_step {work : Action (Query → Query)} (h : step number work setting stage = .ok () after) :
    ∃ f worked b, work setting stage = .ok f worked ∧ worked.store.builder? number = some b ∧
      after.store = worked.store.set number (.builder { b with query := f b.query }) := by
  obtain ⟨f, worked, made, h⟩ := of_run_bind h
  obtain ⟨b, _, looked, h⟩ := of_run_bind h
  obtain ⟨found, rfl⟩ := of_run_known looked
  cases h
  exact ⟨f, worked, b, made, found, rfl⟩

end SqlComposition.Edit
