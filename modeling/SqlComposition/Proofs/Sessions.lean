import SqlComposition.Proofs.ClosedSessions
import SqlComposition.Proofs.Executions

/-!
Sessions that run texts. In every session, whatever is made and changed in between, the texts that are run
are those of the executions that can be written, each once and in their order.
-/

namespace SqlComposition
open SqlComposition.Action Store

/-! ## Executors and what is written -/

def Content.IsAlike (a b : Option Content) : Prop :=
  a = b ∨ ∃ e e', a = some (.executor e) ∧ b = some (.executor e')

section Shown

variable {inside others : Nat → Option Content}

theorem Content.IsAlike.rendition {a b : Option Content} (h : IsAlike a b) :
    (a.map Content.rendition).getD .endless = (b.map Content.rendition).getD .endless := by
  obtain rfl | ⟨e, e', rfl, rfl⟩ := h <;> rfl

theorem Object.shownBy_alike (h : ∀ number, Content.IsAlike (inside number) (others number)) :
    (·.shownBy inside) = (fun o : Object => o.shownBy others) := by
  funext o
  rw [Object.shownBy, Object.shownBy, (h o.number).rendition]

theorem Value.cellBy_alike (h : ∀ number, Content.IsAlike (inside number) (others number)) :
    (·.cellBy inside) = (fun v : Value => v.cellBy others) := by
  have shown := Object.shownBy_alike h
  funext v
  cases v with
  | object o =>
    have here : o.shownBy inside = o.shownBy others := congrFun shown o
    rcases h o.number with same | ⟨e, e', first, second⟩
    · simp only [Value.cellBy, same, here]
    · simp only [Value.cellBy, first, second, here]
  | scalar _ | list _ | tuple _ | mapping _ | fragment _ | query _ | part _ | bound _ =>
    simp only [Value.cellBy, shown]

/-- What is written does not depend on executors. -/
theorem Content.shownBy_alike (h : ∀ number, IsAlike (inside number) (others number)) (c : Content) :
    c.shownBy inside = c.shownBy others := by
  cases c with
  | builder b => simp only [Content.shownBy, Object.shownBy_alike h]
  | statement x => simp only [Content.shownBy, Object.shownBy_alike h, Value.cellBy_alike h]
  | factory _ | table _ | executor _ | dialect _ | function _ => rfl

end Shown

namespace Store

variable {s t : Store} {number : Nat} {e : Executor}

theorem shownWithin_set_executor (h : s.executor? number = some e) (next : Executor) (depth : Nat)
    (path : List Nat) (other : Nat) :
    Content.IsAlike ((s.set number (.executor next)).shownWithin depth path other)
      (s.shownWithin depth path other) := by
  induction depth generalizing path other with
  | zero => exact .inl rfl
  | succ depth ih =>
    rw [shownWithin, shownWithin]
    split
    · exact .inl rfl
    · by_cases here : number = other
      · subst here
        have there := content?_of_executor? h
        rw [content?_set _ _ (List.getElem?_eq_some_iff.1 there).1, there]
        exact .inr ⟨next, e, rfl, rfl⟩
      · rw [content?_set_of_ne _ _ here]
        refine .inl (congrArg (Option.map · _) (funext fun c => ?_))
        exact Content.shownBy_alike (ih _) c

/-- What an executor has left to answer is not written; one that comes later is not even there. -/
theorem rendition_set_executor (grown : s.Grown t) (h : t.executor? number = some e) (next : Executor)
    (other : Nat) : (s.set number (.executor next)).rendition other = s.rendition other := by
  by_cases there : number < s.contents.length
  · have here : s.executor? number = some e := by
      rw [executor?, ← grown.content?_eq there, ← executor?, h]
    have same : (s.set number (.executor next)).contents.length = s.contents.length := List.length_set
    rw [rendition, rendition, shown, shown, same]
    exact (shownWithin_set_executor here next _ _ _).rendition
  · rw [Store.set, List.set_eq_of_length_le (Nat.not_lt.1 there)]

theorem IsSelfContained.rendition_grown {P : Nat → Prop} (own : s.IsSelfContained P) (grown : s.Grown t)
    (hn : P number) : t.rendition number = s.rendition number := by
  rw [rendition, rendition, own.shown_grown grown hn]

theorem IsSelfContained.set_executor {P : Nat → Prop} (own : s.IsSelfContained P) (next : Executor) :
    (s.set number (.executor next)).IsSelfContained P where
  known := fun other ho => by
    rw [Store.set, List.length_set]
    exact own.known other ho
  holds := fun other ho c found => by
    by_cases here : number = other
    · subst here
      rw [content?_set _ _ (own.known number ho)] at found
      obtain rfl := Option.some.inj found
      exact fun _ _ _ => rfl
    · rw [content?_set_of_ne _ _ here] at found
      exact own.holds other ho c found

theorem Grown.set_both (h : s.Grown t) (number : Nat) (c : Content) :
    (s.set number c).Grown (t.set number c) := by
  obtain ⟨more, same⟩ := h
  refine ⟨if number < s.contents.length then more else more.set (number - s.contents.length) c, ?_⟩
  rw [Store.set, Store.set, same, List.set_append]
  split
  · rfl
  · rename_i beyond
    rw [List.set_eq_of_length_le (Nat.not_lt.1 beyond)]

end Store

namespace Session

variable {setting : Setting} {stage : Stage} {x : Execution} {w : World}

/-! ## What an execution leaves -/

namespace Execution

theorem run_refused {failure : Failure} (h : x.written.text = .error failure) :
    x.run setting stage = .error failure (x.writtenAt stage) := by
  rw [run, h]

theorem run_sent {sql : String} (h : x.written.text = .ok sql) :
    x.run setting stage = (x.take <$> x.replies.reply.1.listed) setting (x.askedAt stage sql) := by
  rw [run, h]

theorem written_limited {b : Builder} (h : x.limited? = some b) (hb : b.query.IsSettled) :
    x.written = (Edit.setLimit (.int 1) b.query).rendition := by
  have same : x.store.renumberQuery [x.number] b.query = (b.query, [x.number]) := by
    rw [renumberQuery, b.query.traverse_settled _ hb]
    rfl
  have one : (Value.int 1).IsSettled := by
    rw [Value.int, Value.IsSettled]
    trivial
  have settled : (Edit.setLimit (.int 1) b.query).IsSettled := Edit.settles_limit one _ hb
  have copied : (limitedCopy x.store x.number b).builder? x.store.contents.length =
      some { b with query := Edit.setLimit (.int 1) b.query } := by
    rw [limitedCopy, builder?_set (builder?_copyBuilder _ _ _), same]
  rw [written, ready, h]
  change (limitedCopy x.store x.number b).rendition _ = _
  rw [rendition, shown_builder copied settled]
  rfl

end Execution

structure Execution.IsDone (x : Execution) (receiver : Value) (w next : World) (answer : StepAnswer) :
    Prop where
  refused : ∀ failure, x.written.text = .error failure →
    answer.result = .error failure ∧ answer.executed = [] ∧ w.store.Grown next.store
  /-- Its executor is handed the text, and beside that objects are only added. -/
  sent : ∀ sql, x.written.text = .ok sql →
    answer.executed = [sql] ∧ (w.store.set x.executor (.executor x.replies.reply.2)).Grown next.store
  raised : ∀ sql message, x.written.text = .ok sql → x.replies.reply.1 = .raised message →
    answer.result = .error (.raised message)
  rows : ∀ sql items, x.written.text = .ok sql → x.replies.reply.1 = .rows (.list items) →
    ∃ stage : Stage, stage.store = x.ready.set x.executor (.executor x.replies.reply.2) ∧
      answer.result = (Stage.came (Term.evalAll items w.scope.setting stage)).map fun rows =>
        .ofValue receiver (x.take rows)
  limited : ∀ b, x.limited? = some b → b.query.IsSettled →
    x.written = (Edit.setLimit (.int 1) b.query).rendition
  /-- Objects that are there, with all that they hold, are written as before. -/
  kept : ∀ P, w.store.IsSelfContained P → ∀ number, P number →
    next.store.rendition number = w.store.rendition number
  /-- From the start of a session on, all objects are such. -/
  keptInSession : w.store.InSession → ∀ number < w.store.contents.length,
    next.store.rendition number = w.store.rendition number

/-- The execution that a task is, after the arguments of a call are worked out. -/
def Task.execution? (w : World) : Task → Option Execution
  | call receiver method terms =>
    match w.resolve receiver, Term.evalAll terms w.scope.setting { store := w.store } with
    | .ok v, .ok arguments stage => Execution.ofCall stage.store v method arguments
    | _, _ => none
  | await receiver =>
    match w.resolve receiver with
    | .ok (.object ⟨number, .statement kind, _⟩) => Execution.ofStatement w.store kind number
    | _ => none
  | make _ _ _ | evaluate _ | text _ | property _ _ => none

def Task.receiverIn (w : World) (t : Task) : Option Value :=
  t.receiver?.bind fun name => (w.resolve name).toOption

/-- A step that is an execution does it, and other steps run nothing. -/
def RunsOnce (w : World) (s : Step) : Prop :=
  match s.task.execution? w with
  | some x => ∃ receiver, s.task.receiverIn w = some receiver ∧
      x.IsDone receiver w (perform w s).1 (perform w s).2
  | none => (perform w s).2.executed = []

def Task.HasRows : Task → Prop
  | make _ _ executor => executor.HasRows
  | evaluate _ | call _ _ _ | await _ | text _ | property _ _ => True

theorem run_lookup (w : World) (name : String) (stage : Stage) :
    lookup name w.scope.setting stage = Action.ofExcept (w.resolve name) w.scope.setting stage := by
  have resolved : w.scope.setting.resolve = w.resolve :=
    (w.scope.settingWithin_keepsApart Scope.greatestDepth).resolved
  change Action.ofExcept (w.scope.setting.resolve name) w.scope.setting stage = _
  rw [resolved]

theorem perform_eq (w : World) (s : Step) :
    (perform w s).1.store = (Stage.left (s.task.run w.scope.setting { store := w.store })).store ∧
      (perform w s).2.executed = (Stage.left (s.task.run w.scope.setting { store := w.store })).executed ∧
      (perform w s).2.result = Stage.came (s.task.run w.scope.setting { store := w.store }) := by
  rw [perform]
  cases s.task.run w.scope.setting { store := w.store } with
  | ok outcome stage =>
    refine ⟨?_, rfl, rfl⟩
    simp only [bindResult, Stage.left]
    split <;> rfl
  | error failure stage => exact ⟨rfl, rfl, rfl⟩

/-! ## Steps -/

theorem awaited_upkept (hr : stage.store.HasRows) {v : Value}
    (h : ∀ number kind form, v = .object ⟨number, .statement kind, form⟩ →
      Execution.ofStatement stage.store kind number = none) :
    stage.Upkept (Stage.left (awaited v setting stage)) := by
  unfold awaited
  split
  · exact executeStatement_upkept hr (h _ _ _ rfl)
  · exact ⟨rfl, hr⟩

theorem Task.run_upkept {t : Task} (ht : t.HasRows) (hr : w.store.HasRows) (h : t.execution? w = none) :
    Stage.Upkept { store := w.store } (Stage.left (t.run w.scope.setting { store := w.store })) := by
  have hs : w.scope.setting.Upholds := w.scope.settingWithin_upholds _
  cases t with
  | make construction terms executor =>
    have made : Upholds w.scope.setting (Task.run (.make construction terms executor)) := by
      rw [Task.run]
      split
      · exact .bind (Term.evalAll_upholds hs terms) fun values =>
          .bind (construct_upholds _ ht _ values) fun _ => .pure _
      · exact .throw _
    exact made _ hr
  | evaluate t => exact Upholds.map _ (t.eval_upholds hs) _ hr
  | text receiver =>
    exact Upholds.bind (lookup_upholds receiver) (fun _ => .bind (.write _) fun _ => .pure _) _ hr
  | property receiver name =>
    exact Upholds.bind (lookup_upholds receiver) (fun _ => .bind (propertyOf_upholds _ name) fun _ =>
      .pure _) _ hr
  | await receiver =>
    refine .bind (lookup_upholds receiver _ hr) fun v after found rows =>
      .bind ?_ fun _ _ _ rows => ⟨rfl, rows⟩
    rw [run_lookup] at found
    obtain ⟨named, rfl⟩ := of_run_ofExcept found
    refine awaited_upkept rows fun number kind form same => ?_
    rwa [Task.execution?, named, same] at h
  | call receiver method terms =>
    refine .bind (lookup_upholds receiver _ hr) fun v after found rows =>
      .bind (Term.evalAll_upholds hs terms after rows) fun arguments later evaluated rows =>
        .bind (callMethod_upkept hs rows ?_) fun _ _ _ rows => ⟨rfl, rows⟩
    rw [run_lookup] at found
    obtain ⟨named, rfl⟩ := of_run_ofExcept found
    rwa [Task.execution?, named, evaluated] at h

/-- A task that is an execution comes to what the execution comes to, after the arguments of a call are
worked out. -/
theorem Task.run_execution {t : Task} (hr : w.store.HasRows) (h : t.execution? w = some x) :
    ∃ (receiver : Value) (stage : Stage), t.receiverIn w = some receiver ∧ stage.executed = [] ∧
      w.store.Grown stage.store ∧ stage.store.HasRows ∧ x.IsAt stage.store ∧
      t.run w.scope.setting { store := w.store } =
        (Outcome.ofValue receiver <$> x.run) w.scope.setting stage := by
  have hs : w.scope.setting.Upholds := w.scope.settingWithin_upholds _
  have ha : w.scope.setting.Adds := w.scope.settingWithin_adds _
  unfold Task.execution? at h
  split at h
  · rename_i receiver method terms
    split at h
    · rename_i v arguments stage named evaluated
      have found : lookup receiver w.scope.setting { store := w.store } = .ok v { store := w.store } := by
        rw [run_lookup, named]
        rfl
      have upkept := Term.evalAll_upholds hs terms { store := w.store } hr
      rw [evaluated] at upkept
      obtain ⟨there, run⟩ : _ ∧ callMethod v method arguments w.scope.setting stage = _ :=
        run_callMethod h upkept.rows
      have grown := (grown_of_run (fun _ => Term.evalAll_adds ha terms) evaluated).1
      refine ⟨v, stage, ?_, upkept.executed, grown, upkept.rows, there, ?_⟩
      · rw [Task.receiverIn, Task.receiver?, Option.bind_some, named]
        rfl
      · rw [Task.run, run_bind found, run_bind evaluated]
        exact run_map_congr _ run
    · cases h
  · rename_i receiver
    split at h
    · rename_i number kind form named
      have found : lookup receiver w.scope.setting { store := w.store } =
          .ok (.object ⟨number, .statement kind, form⟩) { store := w.store } := by
        rw [run_lookup, named]
        rfl
      have there := Execution.ofStatement_isAt h
      refine ⟨.object ⟨number, .statement kind, form⟩, { store := w.store }, ?_, rfl, .refl _, hr, there,
        ?_⟩
      · rw [Task.receiverIn, Task.receiver?, Option.bind_some, named]
        rfl
      · rw [Task.run, run_bind found]
        exact run_map_congr _ (run_executeStatement h (there.hasRows hr))
    · cases h
  all_goals cases h

theorem left_of_sent (ready : w.store.Grown x.ready) (rows : x.ready.HasRows) (replies : x.replies.HasRows)
    {sql : String} (h : x.written.text = .ok sql) :
    (Stage.left (x.run w.scope.setting stage)).executed = stage.executed ++ [sql] ∧
      (w.store.set x.executor (.executor x.replies.reply.2)).Grown
        (Stage.left (x.run w.scope.setting stage)).store ∧
      (Stage.left (x.run w.scope.setting stage)).store.HasRows := by
  have hs : w.scope.setting.Upholds := w.scope.settingWithin_upholds _
  have ha : w.scope.setting.Adds := w.scope.settingWithin_adds _
  have handed : (x.askedAt stage sql).store.HasRows := rows.set _ replies.reply.2
  have upkept := Reply.listed_upholds hs x.replies.reply.1 (x.askedAt stage sql) handed
  have more := grown_left (Reply.listed_adds ha x.replies.reply.1) (x.askedAt stage sql)
  rw [Execution.run_sent h, Stage.left_map]
  exact ⟨upkept.executed, (ready.set_both _ _).trans more, upkept.rows⟩

theorem isDone_of_run {receiver : Value} {next : World} {answer : StepAnswer} (fresh : stage.executed = [])
    (grown : w.store.Grown stage.store) (hr : stage.store.HasRows) (there : x.IsAt stage.store)
    (left : next.store = (Stage.left (x.run w.scope.setting stage)).store)
    (executed : answer.executed = (Stage.left (x.run w.scope.setting stage)).executed)
    (result : answer.result = (Stage.came (x.run w.scope.setting stage)).map (Outcome.ofValue receiver)) :
    x.IsDone receiver w next answer ∧ next.store.HasRows := by
  have ready : w.store.Grown x.ready := grown.trans (there.store ▸ x.grown_ready)
  have rows : x.ready.HasRows := Execution.ready_hasRows (there.store ▸ hr)
  have refused {failure : Failure} (h : x.written.text = .error failure) :
      answer.result = .error failure ∧ answer.executed = [] ∧ w.store.Grown next.store := by
    rw [left, executed, result, Execution.run_refused h]
    exact ⟨rfl, fresh, ready⟩
  have sent {sql : String} (h : x.written.text = .ok sql) :
      answer.executed = [sql] ∧ (w.store.set x.executor (.executor x.replies.reply.2)).Grown next.store ∧
        next.store.HasRows := by
    have handed : (Stage.left (x.run w.scope.setting stage)).executed = stage.executed ++ [sql] ∧ _ :=
      left_of_sent ready rows (there.hasRows hr) h
    rw [fresh, List.nil_append] at handed
    rwa [executed, left]
  have kept (P : Nat → Prop) (own : w.store.IsSelfContained P) (number : Nat) (hn : P number) :
      next.store.rendition number = w.store.rendition number := by
    cases text : x.written.text with
    | error failure => exact own.rendition_grown (refused text).2.2 hn
    | ok sql =>
      rw [(own.set_executor _).rendition_grown (sent text).2.1 hn,
        rendition_set_executor ready there.executor]
  have rows : next.store.HasRows := by
    cases text : x.written.text with
    | error failure =>
      rw [left, Execution.run_refused text]
      exact rows
    | ok sql => exact (sent text).2.2
  refine ⟨
    { refused := fun _ => refused
      sent := fun sql text => ⟨(sent text).1, (sent text).2.1⟩
      raised := fun sql message text reply => ?_
      rows := fun sql items text reply => ⟨x.askedAt stage sql, rfl, ?_⟩
      limited := fun b => Execution.written_limited
      kept
      keptInSession := fun session => kept _ session.isClosed.isSelfContained }, rows⟩
  · rw [result, Execution.run_sent text, Stage.came_map, reply]
    rfl
  · rw [result, Execution.run_sent text, Stage.came_map, reply, Reply.listed_rows]
    cases Term.evalAll items w.scope.setting (x.askedAt stage sql) <;> rfl

theorem perform_runsOnce {s : Step} (hs : s.task.HasRows) (hw : w.store.HasRows) :
    RunsOnce w s ∧ (perform w s).1.store.HasRows := by
  obtain ⟨left, executed, result⟩ := perform_eq w s
  unfold RunsOnce
  split
  · rename_i x asked
    obtain ⟨receiver, stage, resolved, fresh, grown, rows, there, run⟩ := Task.run_execution hw asked
    rw [run, Stage.left_map] at left executed
    rw [run, Stage.came_map] at result
    obtain ⟨done, rows⟩ := isDone_of_run fresh grown rows there left executed result
    exact ⟨⟨receiver, resolved, done⟩, rows⟩
  · rename_i none
    have upkept := Task.run_upkept hs hw none
    exact ⟨executed.trans upkept.executed, left ▸ upkept.rows⟩

/-! ## Sessions -/

/-- The texts that a session runs: one for each execution that can be written. -/
def sent (w : World) : List Step → List String
  | [] => []
  | s :: rest =>
    ((s.task.execution? w).bind fun x => x.written.text.toOption).toList ++ sent (perform w s).1 rest

theorem RunsOnce.executed {s : Step} (h : RunsOnce w s) :
    (perform w s).2.executed = ((s.task.execution? w).bind fun x => x.written.text.toOption).toList := by
  unfold RunsOnce at h
  cases asked : s.task.execution? w with
  | none =>
    rw [asked] at h
    exact h
  | some x =>
    rw [asked] at h
    obtain ⟨receiver, -, done⟩ := h
    rw [Option.bind_some]
    cases text : x.written.text with
    | ok sql => exact (done.sent sql text).1
    | error failure => exact (done.refused failure text).2.1

/-- In every session whose executors answer with lists of rows or with errors, each execution that can be
written runs its text once, and nothing else is run. -/
theorem sessions_run_once {w : World} (hw : w.store.HasRows) {steps : List Step}
    (hs : ∀ s ∈ steps, s.task.HasRows) :
    Throughout RunsOnce w steps ∧ (performAll w steps).flatMap (·.2.executed) = sent w steps := by
  induction steps generalizing w with
  | nil => exact ⟨trivial, rfl⟩
  | cons s rest ih =>
    obtain ⟨first, others⟩ := List.forall_mem_cons.1 hs
    obtain ⟨once, rows⟩ := perform_runsOnce first hw
    obtain ⟨throughout, all⟩ := ih rows others
    refine ⟨⟨once, throughout⟩, ?_⟩
    rw [sent, ← all, ← once.executed]
    rfl

def executing : List Step :=
  let lines := [Term.mapping [(.scalar (.text "id"), .scalar (.int 1))], .mapping []]
  [⟨.make "create_query_builder" [] ⟨false, [.raised "lost", .rows (.list lines)]⟩, some "db"⟩,
    ⟨.call "db" "delete" [.scalar (.text "t")], some "deletion"⟩,
    ⟨.call "db" "insert" [.scalar (.text "t")], some "insertion"⟩,
    ⟨.await "deletion", none⟩,
    ⟨.call "deletion" "where" [.scalar (.text "id"), .scalar (.int 1)], none⟩,
    ⟨.await "insertion", none⟩,
    ⟨.call "deletion" "execute" [], none⟩,
    ⟨.call "db" "from_" [.scalar (.text "u")], some "query"⟩,
    ⟨.call "db" "first" [.variable "query"], none⟩,
    ⟨.call "db" "fetch" [.variable "query"], none⟩]

theorem executing_run_once :
    Throughout RunsOnce {} executing ∧
      sent {} executing = ["DELETE FROM t", "DELETE FROM t WHERE id = 1",
        "SELECT *\nFROM u\nLIMIT 1", "SELECT *\nFROM u"] := by
  have script : ∀ s ∈ executing, s.task.HasRows := by
    refine List.forall_mem_cons.2 ⟨?_, ?_⟩
    · exact List.forall_mem_cons.2 ⟨.raised _, List.forall_mem_singleton.2 (.rows _)⟩
    · simp [Task.HasRows]
  obtain ⟨once, all⟩ := sessions_run_once (w := {}) (List.forall_mem_nil _) script
  exact ⟨once, all.symm.trans (by decide +kernel)⟩

end Session

end SqlComposition
