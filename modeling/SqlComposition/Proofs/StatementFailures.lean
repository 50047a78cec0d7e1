import SqlComposition.Proofs.Sessions
import SqlComposition.Proofs.StatementChanges

/-!
Calls of statements that fail. Rows, columns to give back and conditions are worked out as a whole before
the statement is changed, so a call for them that fails leaves the statement as it was. Assignments are made
entry by entry, so a call for them leaves those before the entry that it fails at.
-/

namespace SqlComposition.Statement.Mutation
open SqlComposition.Action Store

variable {kind : StatementKind} {setting : Setting} {number : Nat} {stage after : Stage} {failure : Failure}
  {c : Mutation kind}

theorem grown_of_run_error (hs : setting.Adds) (h : c.data? = none)
    (failed : c.run number setting stage = .error failure after) : stage.store.Grown after.store := by
  obtain ⟨work, single, adds⟩ := edit_single hs h
  rw [run_eq, single, Edit.apply_single] at failed
  rcases of_run_bind_error failed with unmade | ⟨f, worked, made, rest⟩
  · exact grown_of_failure adds unmade
  · have grown := (grown_of_run adds made).1
    rcases of_run_bind_error rest with unknown | ⟨x, _, _, last⟩
    · rwa [← of_run_known_error unknown]
    · cases last

theorem of_run_data_error {data : Value} (h : c.data? = some data) {x : Statement}
    (hx : stage.store.statement? number = some x)
    (failed : c.run number setting stage = .error failure after) :
    ∃ done rest, data.entriesOf = done.map Except.ok ++ Except.error failure :: rest ∧
      after = { stage with store := stage.store.set number (.statement (x.assignAll done)) } := by
  rw [run_eq, edit_of_data? h] at failed
  rcases entries_split data.entriesOf with ⟨done, all⟩ | ⟨done, first, rest, split⟩
  · rw [all, List.map_map] at failed
    cases (Edit.apply_entries hx done).symm.trans failed
  · rw [split] at failed
    cases (Edit.apply_stopped hx done first rest).symm.trans failed
    exact ⟨done, rest, split, rfl⟩

structure Leaves (c : Mutation kind) (number : Nat) (failure : Failure) (x : Statement)
    (stage after : Stage) : Prop where
  others : ChangedAt number stage.store after.store
  statement : c.data? = none → after.store.statement? number = some x
  /-- So it is written as before, if all that is held is there. -/
  written : c.data? = none → stage.store.IsClosed →
    after.store.rendition number = stage.store.rendition number
  writtenInSession : c.data? = none → stage.store.InSession →
    after.store.rendition number = stage.store.rendition number
  /-- A call that assigns data was given something else than a mapping. It stops at the first that is no
  entry and leaves the statement with the entries before that one. -/
  stopped : ∀ data, c.data? = some data → (∀ entries, data ≠ .mapping entries) ∧
    ∃ done rest, data.entriesOf = done.map Except.ok ++ Except.error failure :: rest ∧
      after.store = stage.store.set number (.statement (x.assignAll done))

/-- A call of a statement that fails changes no other object, and the statement itself only where it assigns
data that is no mapping. -/
theorem refused_leaves (scope : Scope) (depth : Nat) {x : Statement}
    (hx : stage.store.statement? number = some x)
    (failed : c.run number (scope.settingWithin depth) stage = .error failure after) :
    c.Leaves number failure x stage after := by
  have hs := scope.settingWithin_adds depth
  cases assigned : c.data? with
  | none =>
    have grown := grown_of_run_error hs assigned failed
    exact {
      others := .of_grown grown
      statement := fun _ => grown.statement? hx
      written := fun _ closed =>
        closed.isSelfContained.rendition_grown grown (lt_length_of_statement? hx)
      writtenInSession := fun _ session =>
        session.isClosed.isSelfContained.rendition_grown grown (lt_length_of_statement? hx)
      stopped := fun data same => nomatch assigned.symm.trans same }
  | some data =>
    obtain ⟨done, rest, split, rfl⟩ := of_run_data_error assigned hx failed
    refine ⟨.set _ _ _, fun none => ?_, fun none => ?_, fun none => ?_, fun other same => ?_⟩
    · cases assigned.symm.trans none
    · cases assigned.symm.trans none
    · cases assigned.symm.trans none
    · obtain rfl := Option.some.inj (assigned.symm.trans same)
      refine ⟨fun entries mapping => ?_, done, rest, split, rfl⟩
      -- the entries of a mapping are there, so none of them can be what the call has stopped at
      have found : Except.error failure ∈ data.entriesOf := by
        rw [split]
        exact List.mem_append_right _ List.mem_cons_self
      rw [mapping, Value.entriesOf] at found
      obtain ⟨e, -, wrong⟩ := List.mem_map.1 found
      cases wrong

def pairs : Value :=
  .list [.tuple [.text "a", .int 1], .tuple [.text "b"]]

theorem assigning_leaves :
    let x : Statement := { kind := .update, executor := 1, table := .text "t" }
    let stage : Stage := { store := { contents := [.statement x, .executor {}] } }
    (stage.store.rendition 0).text = .error (.noData "update") ∧
      ∃ after, (assigning pairs).run 0 (Scope.settingWithin {} 0) stage = .error (.pairLength 1 1) after ∧
        (assigning pairs).Leaves 0 (.pairLength 1 1) x stage after ∧
        after.store.statement? 0 = some { x with assignments := [(.text "a", .int 1)] } ∧
        (after.store.rendition 0).text = .ok "UPDATE t SET a = 1" := by
  intro x stage
  have ran : (assigning pairs).run 0 (Scope.settingWithin {} 0) stage =
      (assigning pairs).edit.apply 0 (Scope.settingWithin {} 0) stage := by rw [run_eq]
  exact ⟨rfl, _, ran.trans rfl, refused_leaves {} 0 rfl (ran.trans rfl), rfl, by decide +kernel⟩

end SqlComposition.Statement.Mutation
