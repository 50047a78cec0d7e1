import SqlComposition.Proofs.ClosedSessions

/-!
Calls that fail. A call that makes one change has made none when it fails, since the change is worked out
before it is made. `select` and `group_by` make a change for each argument before they come to the next, so
they leave the changes for the arguments before the one that they fail at.
-/

namespace SqlComposition
open SqlComposition.Action Store

variable {setting : Setting} {number : Nat} {stage after : Stage} {failure : Failure}

theorem Action.of_run_bind_error {α β : Type} {work : Action α} {next : α → Action β}
    (h : (work >>= next) setting stage = .error failure after) :
    work setting stage = .error failure after ∨
      ∃ a mid, work setting stage = .ok a mid ∧ next a setting mid = .error failure after := by
  change EStateM.bind (work setting) (fun a => next a setting) stage = _ at h
  rw [EStateM.bind] at h
  cases done : work setting stage with
  | ok a mid =>
    rw [done] at h
    exact .inr ⟨a, mid, rfl, h⟩
  | error other mid =>
    rw [done] at h
    cases h
    exact .inl rfl

theorem Action.of_run_known_error {α : Type} {find : Store → Nat → Option α}
    (h : known find number setting stage = .error failure after) : stage = after := by
  have here : store setting stage = .ok stage.store stage := rfl
  rw [known, run_bind here] at h
  cases found : find stage.store number with
  | some a =>
    rw [found] at h
    cases h
  | none =>
    rw [found] at h
    cases h
    rfl

namespace Edit

variable {kind : ClauseKind} {edit : Edit}

theorem grown_of_step_error {work : Action (Query → Query)}
    (hw : ∀ base, Adds setting base (Change.Makes kind) work)
    (h : step number work setting stage = .error failure after) : stage.store.Grown after.store := by
  rcases of_run_bind_error h with failed | ⟨f, worked, made, h⟩
  · exact grown_of_failure hw failed
  · have grown := (grown_of_run hw made).1
    rcases of_run_bind_error h with failed | ⟨b, _, _, h⟩
    · rwa [← of_run_known_error failed]
    · cases h

/-- An edit that fails has made the changes before one of its steps, and fails there. -/
theorem of_apply_error (hm : ∀ base, Makes setting base kind edit)
    (h : edit.apply number setting stage = .error failure after) :
    ∃ done work rest mid, edit = done ++ work :: rest ∧ apply number done setting stage = .ok () mid ∧
      step number work setting mid = .error failure after ∧ mid.store.Grown after.store := by
  induction edit generalizing stage with
  | nil => cases h
  | cons work rest ih =>
    rw [apply_cons] at h
    rcases of_run_bind_error h with failed | ⟨_, next, first, h⟩
    · exact ⟨[], work, rest, stage, rfl, rfl, failed,
        grown_of_step_error (fun base => hm base work List.mem_cons_self) failed⟩
    · obtain ⟨done, failing, others, mid, rfl, made, failed, grown⟩ :=
        ih (fun base w hw => hm base w (List.mem_cons_of_mem work hw)) h
      exact ⟨work :: done, failing, others, mid, rfl, by rw [apply_cons, run_bind first, made], failed,
        grown⟩

theorem run_singleton_error {work : Action (Query → Query)}
    (h : step number work setting stage = .error failure after) :
    apply number [work] setting stage = .error failure after := by
  rw [apply_cons]
  change EStateM.bind (step number work setting) (fun a => apply number [] setting) stage = _
  rw [EStateM.bind, h]

end Edit

/-- Methods that make a change for each of their arguments. -/
def Method.isSeries : Method → Bool
  | select | groupBy => true
  | _ => false

theorem Method.edit_single {m : Method} (h : m.isSeries = false) (name : String)
    (arguments : List Value) : ∃ work, m.edit name arguments = [work] := by
  unfold Method.edit
  split <;> first | exact ⟨_, rfl⟩ | cases h

theorem Method.edit_series {m : Method} (h : m.isSeries = true) (name : String) :
    ∃ work : Value → Action (Query → Query), ∀ arguments, m.edit name arguments = arguments.map work := by
  cases m <;> first | exact ⟨_, fun _ => rfl⟩ | cases h

namespace Mutation

def withArguments (c : Mutation) (arguments : List Value) : Mutation :=
  { c with arguments }

structure Leaves (setting : Setting) (number : Nat) (c : Mutation) (failure : Failure)
    (stage after : Stage) : Prop where
  others : ChangedAt number stage.store after.store
  builder : c.method.isSeries = false → ∀ b, stage.store.builder? number = some b →
    after.store.builder? number = some b
  forms : c.method.isSeries = false → ∀ b, stage.store.builder? number = some b →
    stage.store.IsClosed → ∀ w : Session.World, ∀ r : Reading, r = .text ∨ r = .bound ∨ r = .values →
      { w with store := after.store }.outcome (r.perform number) =
        { w with store := stage.store }.outcome (r.perform number)
  /-- In a session all that is held is there. -/
  formsInSession : c.method.isSeries = false → ∀ b, stage.store.builder? number = some b →
    stage.store.InSession → ∀ w : Session.World, ∀ r : Reading, r = .text ∨ r = .bound ∨ r = .values →
      { w with store := after.store }.outcome (r.perform number) =
        { w with store := stage.store }.outcome (r.perform number)
  /-- If the builder holds nothing, it is read in every way as before. -/
  readings : c.method.isSeries = false → ∀ b, stage.store.builder? number = some b → b.query.IsSettled →
    ∀ w : Session.World, ∀ r : Reading, r ≠ .copy →
      { w with store := after.store }.outcome (r.perform number) =
        { w with store := stage.store }.outcome (r.perform number)
  /-- A call that makes a change for each argument stops at the first that it cannot take: it leaves the
  builder as the call with the arguments before that one leaves it. -/
  stopped : c.method.isSeries = true → ∃ done bad rest mid, c.arguments = done ++ bad :: rest ∧
    (c.withArguments done).run number setting stage = .ok () mid ∧
    (c.withArguments [bad]).run number setting mid = .error failure after ∧
    ∀ b, mid.store.builder? number = some b → after.store.builder? number = some b

/-- A call of a builder that fails changes no other object, and the builder itself only where it makes a
change for each of its arguments. -/
theorem failure_leaves (scope : Scope) (depth : Nat) {c : Mutation}
    (h : c.run number (scope.settingWithin depth) stage = .error failure after) :
    c.Leaves (scope.settingWithin depth) number failure stage after := by
  have hs := scope.settingWithin_adds depth
  rw [run_eq] at h
  obtain ⟨done, failing, rest, mid, split, made, failed, grown⟩ :=
    Edit.of_apply_error (c.edit_makes hs) h
  have single (series : c.method.isSeries = false) : stage.store.Grown after.store := by
    obtain ⟨work, one⟩ := Method.edit_single series c.name c.arguments
    rw [edit, one] at split
    cases done with
    | nil =>
      obtain ⟨-, rfl⟩ := of_run_pure made
      exact grown
    | cons first others => simp at split
  refine ⟨?_, fun series b hb => (single series).builder? hb,
    fun series b hb closed w r hr => outcome_grown closed (single series) hb w hr,
    fun series b hb session w r hr => outcome_grown session.isClosed (single series) hb w hr,
    fun series b hb settled w r hr => ?_, fun series => ?_⟩
  · have before : ∀ base, Edit.Makes (scope.settingWithin depth) base c.method.kind done :=
      fun base work hw => c.edit_makes hs base work (split ▸ List.mem_append_left _ hw)
    exact (Edit.changedAt_of_apply before made).trans (.of_grown grown)
  · exact Session.World.outcome_perform (w := { w with store := stage.store }) hb
      ((single series).builder? hb) settled hr
  · obtain ⟨work, all⟩ := Method.edit_series series c.name
    rw [edit, all] at split
    obtain ⟨first, others, arguments, rfl, later⟩ := List.map_eq_append_iff.1 split
    obtain ⟨bad, last, rfl, rfl, -⟩ := List.map_eq_cons_iff.1 later
    refine ⟨first, bad, last, mid, arguments, ?_, ?_, fun b hb => grown.builder? hb⟩
    · rw [run_eq, edit]
      exact (congrArg (fun e => Edit.apply number e _ stage) (all first)).trans made
    · rw [run_eq, edit]
      exact (congrArg (fun e => Edit.apply number e _ mid) (all [bad])).trans
        (Edit.run_singleton_error failed)

def selecting : Mutation :=
  ⟨"select", .select, [.text "a", .int 5], by decide +kernel⟩

/-- It leaves the column before that one in the builder. -/
theorem selecting_leaves :
    let stage : Stage := { store := { contents := [.builder ⟨.null, .empty⟩] } }
    stage.store.IsClosed ∧
      ∃ failure after, selecting.run 0 (Scope.settingWithin {} 0) stage = .error failure after ∧
        selecting.Leaves (Scope.settingWithin {} 0) 0 failure stage after ∧
        after.store.builder? 0 = some ⟨.null, { selection := [⟨.name "a", none⟩] }⟩ := by
  intro stage
  have ran : selecting.run 0 (Scope.settingWithin {} 0) stage =
      selecting.edit.apply 0 (Scope.settingWithin {} 0) stage := by rw [run_eq]
  refine ⟨isClosed_of_holdsNone ?_, _, _, ran.trans rfl, failure_leaves {} 0 (ran.trans rfl), ?_⟩
  · exact List.forall_mem_singleton.2 Query.settled_empty
  · rfl

end Mutation

end SqlComposition
