import SqlComposition.Proofs.Failures

/-!
Calls of statements step by step. A call works out its changes one after another and makes each of them on
the statement as it is then; beside that it only adds objects. Only assignments are made in more than one
step, one for each entry of what is given, and they are made up to the first that is no entry.
-/

namespace SqlComposition
open SqlComposition.Action Store

namespace Store

variable {s t : Store} {number : Nat} {x : Statement}

theorem lt_length_of_statement? (h : s.statement? number = some x) : number < s.contents.length :=
  (List.getElem?_eq_some_iff.1 (content?_of_statement? h)).1

theorem statement?_of_content? (h : s.content? number = some (.statement x)) :
    s.statement? number = some x := by
  rw [statement?, h]

theorem statement?_set (h : s.statement? number = some x) (y : Statement) :
    (s.set number (.statement y)).statement? number = some y :=
  statement?_of_content? (content?_set _ _ (lt_length_of_statement? h))

theorem Grown.statement? (h : s.Grown t) (hx : s.statement? number = some x) :
    t.statement? number = some x := by
  apply statement?_of_content?
  rw [h.content?_eq (lt_length_of_statement? hx), content?_of_statement? hx]

theorem set_set (s : Store) (number : Nat) (c d : Content) :
    (s.set number c).set number d = s.set number d := by
  rw [set, set, set, List.set_set]

theorem set_self {c : Content} (h : s.content? number = some c) : s.set number c = s := by
  obtain ⟨there, found⟩ := List.getElem?_eq_some_iff.1 h
  rw [set, ← found, List.set_getElem_self]

end Store

namespace Statement

variable {setting : Setting} {number : Nat} {stage worked after : Stage} {failure : Failure}
  {x : Statement}

namespace Edit

variable {work : Action (Statement → Statement)}

/-- One step of an edit: a change is worked out and made. -/
def step (number : Nat) (work : Action (Statement → Statement)) : Action Unit := do
  let f ← work
  let s ← Action.known Store.statement? number
  Action.update (·.set number (.statement (f s)))

theorem apply_cons (work : Action (Statement → Statement)) (rest : Edit) :
    apply number (work :: rest) = step number work >>= fun _ => apply number rest := rfl

theorem run_step {f : Statement → Statement} (made : work setting stage = .ok f worked)
    (found : worked.store.statement? number = some x) :
    step number work setting stage =
      .ok () { worked with store := worked.store.set number (.statement (f x)) } := by
  rw [step, run_bind made, run_bind (run_known found)]
  rfl

theorem step_error (failed : work setting stage = .error failure worked) :
    step number work setting stage = .error failure worked :=
  run_bind_error failed

theorem apply_single (work : Action (Statement → Statement)) :
    apply number [work] setting stage = step number work setting stage := by
  rw [apply_cons]
  change EStateM.bind (step number work setting) (fun _ => EStateM.pure ()) stage = _
  rw [EStateM.bind]
  cases step number work setting stage <;> rfl

end Edit

/-! ## Assignments one by one -/

/-- The entries one after another, each put in its place. -/
def assignAll (entries : List (Value × Value)) (s : Statement) : Statement :=
  entries.foldl (fun s e => s.assign e) s

namespace Edit

/-- The change that is made of an entry, if it is one. -/
def assigning (entry : Except Failure (Value × Value)) : Action (Statement → Statement) := do
  return assign (← Action.ofExcept entry)

theorem apply_entries (found : stage.store.statement? number = some x) (entries : List (Value × Value)) :
    apply number (entries.map fun e => assigning (.ok e)) setting stage =
      .ok () { stage with store := stage.store.set number (.statement (x.assignAll entries)) } := by
  induction entries generalizing stage x with
  | nil =>
    rw [assignAll, List.foldl_nil, set_self (content?_of_statement? found)]
    rfl
  | cons e rest ih =>
    have made : assigning (.ok e) setting stage = .ok (assign e) stage := rfl
    rw [List.map_cons, apply_cons, run_bind (run_step made found), ih (statement?_set found _), set_set]
    rfl

/-- Up to the first that is none, the entries are assigned. -/
theorem apply_stopped (found : stage.store.statement? number = some x) (done : List (Value × Value))
    (failure : Failure) (rest : List (Except Failure (Value × Value))) :
    apply number ((done.map Except.ok ++ Except.error failure :: rest).map assigning) setting stage =
      .error failure { stage with store := stage.store.set number (.statement (x.assignAll done)) } := by
  have failed {s : Stage} : apply number (assigning (.error failure) :: rest.map assigning) setting s =
      .error failure s := run_bind_error (step_error rfl)
  induction done generalizing stage x with
  | nil =>
    rw [assignAll, List.foldl_nil, set_self (content?_of_statement? found)]
    exact failed
  | cons e others ih =>
    have made : assigning (.ok e) setting stage = .ok (assign e) stage := rfl
    rw [List.map_cons, List.cons_append, List.map_cons, apply_cons, run_bind (run_step made found),
      ih (statement?_set found _), set_set]
    rfl

end Edit

/-- Among some results, either all are there or one is the first that is not. -/
theorem entries_split {α : Type} (entries : List (Except Failure α)) :
    (∃ done : List α, entries = done.map Except.ok) ∨
      ∃ (done : List α) (failure : Failure) (rest : List (Except Failure α)),
        entries = done.map Except.ok ++ Except.error failure :: rest := by
  induction entries with
  | nil => exact .inl ⟨[], rfl⟩
  | cons entry rest ih =>
    cases entry with
    | error failure => exact .inr ⟨[], failure, rest, rfl⟩
    | ok e =>
      rcases ih with ⟨done, rfl⟩ | ⟨done, failure, others, rfl⟩
      · exact .inl ⟨e :: done, rfl⟩
      · exact .inr ⟨e :: done, failure, others, rfl⟩

/-! ## Calls -/

/-- A call that changes a statement. -/
structure Mutation (kind : StatementKind) where
  name : String
  method : Method
  arguments : List Value
  named : Method.ofName? kind name = some method

namespace Mutation

variable {kind : StatementKind}

def edit (c : Mutation kind) : Edit :=
  c.method.edit c.name c.arguments

def run (number : Nat) (c : Mutation kind) : Action Unit :=
  Statement.call kind number c.name c.arguments

def runAll (number : Nat) (calls : List (Mutation kind)) : Action Unit :=
  calls.forM (run number)

theorem run_eq (number : Nat) (c : Mutation kind) : c.run number = c.edit.apply number := by
  rw [run, Statement.call, c.named]
  rfl

theorem runAll_cons (c : Mutation kind) (rest : List (Mutation kind)) :
    runAll number (c :: rest) = c.run number >>= fun _ => runAll number rest := rfl

/-- The data that a call assigns, if it assigns any. -/
def data? (c : Mutation kind) : Option Value :=
  match c.method, c.arguments with
  | .set, [data] => some data
  | _, _ => none

theorem edit_of_data? {c : Mutation kind} {data : Value} (h : c.data? = some data) :
    c.edit = data.entriesOf.map Edit.assigning := by
  unfold data? at h
  split at h
  · rename_i method arguments
    obtain rfl := Option.some.inj h
    rw [edit, method, arguments]
    rfl
  · cases h

/-- A call that assigns data. -/
def assigning (data : Value) : Mutation .update :=
  ⟨"set", .set, [data], by decide +kernel⟩

/-- A call that assigns nothing makes one change, and before that it only adds objects. -/
theorem edit_single (hs : setting.Adds) {c : Mutation kind} (h : c.data? = none) :
    ∃ work, c.edit = [work] ∧ ∀ base, Adds setting base (fun _ => True) work := by
  obtain ⟨name, method, arguments, named⟩ := c
  cases method with
  | values =>
    rcases arguments with _ | ⟨data, _ | ⟨other, rest⟩⟩
    · exact ⟨_, rfl, fun _ => .throw _⟩
    · exact ⟨_, rfl, fun _ => .bind (.anyOf _) fun _ _ => .pure trivial⟩
    · exact ⟨_, rfl, fun _ => .throw _⟩
  | set =>
    rcases arguments with _ | ⟨data, _ | ⟨other, rest⟩⟩
    · exact ⟨_, rfl, fun _ => .throw _⟩
    · cases h
    · exact ⟨_, rfl, fun _ => .throw _⟩
  | returning => exact ⟨_, rfl, fun _ => .pure trivial⟩
  | filter f =>
    exact ⟨_, rfl, fun _ => .bind (f.condition_adds hs _ arguments) fun _ _ => .pure trivial⟩

end Mutation

end Statement

end SqlComposition
