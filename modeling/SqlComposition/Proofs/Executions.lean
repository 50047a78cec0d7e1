import SqlComposition.Proofs.Growth
import SqlComposition.Proofs.Upkeep

/-!
Executions. Awaiting or executing a statement, fetching a query and asking for its first row all come to one
thing: a text is written, and if that succeeds an executor is handed it once. Its error is passed on as it
is, its rows are given back, and all objects are written afterwards as they were before.
-/

namespace SqlComposition
open SqlComposition.Action Store

namespace Store

theorem content?_of_executor? {s : Store} {executor : Nat} {e : Executor}
    (h : s.executor? executor = some e) : s.content? executor = some (.executor e) := by
  rw [executor?] at h
  split at h
  · rename_i found
    rw [found, Option.some.inj h]
  · cases h

theorem copyContents_append (s : Store) (steps : Nat) (met : List Nat) (copies : List Content) :
    ∃ more, s.copyContents steps met copies = copies ++ more := by
  induction steps generalizing met copies with
  | zero => exact ⟨[], (List.append_nil _).symm⟩
  | succ steps ih =>
    rw [copyContents]
    split
    · exact ⟨[], (List.append_nil _).symm⟩
    · rename_i c _
      let copied := (c.renumber (numberOfCopy s.contents.length)).run met
      obtain ⟨more, same⟩ := ih copied.2 (copies ++ [copied.1])
      exact ⟨copied.1 :: more, by rw [List.append_assoc] at same; exact same⟩

theorem builder?_copyBuilder (s : Store) (number : Nat) (b : Builder) :
    (s.copyBuilder number b).builder? s.contents.length =
      some { b with query := (s.renumberQuery [number] b.query).1 } := by
  let copied := s.renumberQuery [number] b.query
  obtain ⟨more, same⟩ := copyContents_append s s.contents.length copied.2
    [.builder { b with query := copied.1 }]
  have contents : (s.copyBuilder number b).contents =
      s.contents ++ .builder { b with query := copied.1 } :: more :=
    congrArg (s.contents ++ ·) same
  have found : (s.copyBuilder number b).content? s.contents.length =
      some (.builder { b with query := copied.1 }) := by
    rw [content?, contents, List.getElem?_append_right (Nat.le_refl _), Nat.sub_self]
    rfl
  rw [builder?, found]

end Store

/-! ## The answer of an executor -/

variable {setting : Setting} {stage : Stage}

def Stage.came {α : Type} : EStateM.Result Failure Stage α → Except Failure α
  | .ok a _ => .ok a
  | .error failure _ => .error failure

theorem Stage.left_map {α β : Type} (f : α → β) (work : Action α) :
    Stage.left ((f <$> work) setting stage) = Stage.left (work setting stage) := by
  change Stage.left (EStateM.map f (work setting) stage) = _
  rw [EStateM.map]
  cases work setting stage <;> rfl

theorem Stage.came_map {α β : Type} (f : α → β) (work : Action α) :
    Stage.came ((f <$> work) setting stage) = (Stage.came (work setting stage)).map f := by
  change Stage.came (EStateM.map f (work setting) stage) = _
  rw [EStateM.map]
  cases work setting stage <;> rfl

/-- The rows of a reply, or its error. -/
def Reply.listed : Reply → Action (List Value)
  | rows t => do Action.ofExcept (← t.eval).items
  | raised message => throw (.raised message)

theorem Reply.listed_rows (items : List Term) (setting : Setting) (stage : Stage) :
    (rows (.list items)).listed setting stage = Term.evalAll items setting stage := by
  have read : (rows (.list items)).listed setting stage =
      EStateM.bind (EStateM.map Value.list (Term.evalAll items setting))
        (fun v => Action.ofExcept v.items setting) stage := by
    rw [listed, Term.eval]
    rfl
  rw [read, EStateM.bind, EStateM.map]
  cases Term.evalAll items setting stage <;> rfl

theorem Reply.listed_upholds (hs : setting.Upholds) (r : Reply) : Upholds setting r.listed := by
  cases r with
  | rows t => exact .bind (t.eval_upholds hs) fun _ => .ofExcept _
  | raised message => exact .throw _

theorem Reply.listed_adds (hs : setting.Adds) (r : Reply) (base : Store) :
    Adds setting base (fun _ => True) r.listed := by
  cases r with
  | rows t => exact .bind (t.eval_adds hs) fun _ _ => .anyOf _
  | raised message => exact .throw _

theorem Action.grown_left {α : Type} {gives : α → Prop} {work : Action α}
    (h : ∀ base, Adds setting base gives work) (stage : Stage) :
    stage.store.Grown (Stage.left (work setting stage)).store := by
  cases run : work setting stage with
  | ok a after => exact (grown_of_run h run).1
  | error failure after => exact grown_of_failure h run

/-- An object is written as it is shown; how often it has no source is logged. -/
theorem Action.run_write_object {o : Object} (h : o.kind.isWritten = true) :
    Action.write (.object o) setting stage =
      Action.ofExcept (stage.store.rendition o.number).text setting
        { stage with log := stage.log ++ Emission.lines (stage.store.rendition o.number).sourceless } := by
  have run : Action.write (.object o) setting stage =
      Action.ofExcept (stage.store.look (.object o)).write.outcome.1 setting
        { stage with log := stage.log ++ Emission.lines (stage.store.look (.object o)).write.outcome.2 } := rfl
  rw [run, Value.write_outcome, look_object h, Value.plainText, Value.sourceless, if_pos h, if_pos h]

def Stage.announced (stage : Stage) (word sql : String) : Stage :=
  { stage with
    log := stage.log ++ ["DEBUG duckql.statements: Executing " ++ word ++ " statement: " ++ sql] }

def Stage.asked (stage : Stage) (executor : Nat) (next : Executor) (sql : String) : Stage :=
  { stage with
    store := stage.store.set executor (.executor next)
    executed := stage.executed ++ [sql] }

namespace Session

variable {executor : Nat} {e : Executor} {sql : String}

/-- The reply to a text is a list of rows or an error. -/
theorem run_ask (he : stage.store.executor? executor = some e) (hr : e.reply.1.IsRows) :
    ask executor sql setting stage =
      (Value.list <$> e.reply.1.listed) setting (stage.asked executor e.reply.2 sql) := by
  rw [ask, run_bind (run_known he)]
  generalize e.reply = answer at *
  obtain ⟨reply, next⟩ := answer
  cases hr with
  | raised message => rfl
  | rows items =>
    change (Term.list items).eval setting (stage.asked executor next sql) =
      EStateM.map Value.list (Reply.listed _ setting) _
    rw [Term.eval, EStateM.map, Reply.listed_rows]
    rfl

/-- A text is announced and an executor is asked; what is done then only matters for a statement. -/
theorem execute_eq (executor : Nat) (word sql : String) :
    execute executor word sql setting stage = (ask executor sql >>= fun rows => do
      match rows with
      | .object ⟨number, .statement kind, _⟩ =>
        if (← Action.known Store.executor? executor).answersLater then return rows
        else
          let s ← Action.known Store.statement? number
          let sql ← Action.write rows
          executeWithin 999 s.executor kind.word sql
      | _ => return rows) setting (stage.announced word sql) := by
  rw [execute, show Scope.greatestDepth = 999 + 1 from rfl, executeWithin]
  rfl

/-- An executor that answers with rows is asked once. -/
theorem run_execute {word : String} (he : stage.store.executor? executor = some e)
    (hr : e.reply.1.IsRows) :
    execute executor word sql setting stage =
      (Value.list <$> e.reply.1.listed) setting
        ((stage.announced word sql).asked executor e.reply.2 sql) := by
  have replied : ask executor sql setting (stage.announced word sql) = _ := run_ask he hr
  rw [execute_eq]
  exact run_bind_map replied

theorem firstRow_list (rows : List Value) : firstRow (.list rows) = .ok (rows.headD .null) := by
  cases rows <;> rfl

theorem run_execute_first {word : String} (he : stage.store.executor? executor = some e)
    (hr : e.reply.1.IsRows) :
    (do let rows ← execute executor word sql; Action.ofExcept (firstRow rows)) setting stage =
      ((·.headD .null) <$> e.reply.1.listed) setting
        ((stage.announced word sql).asked executor e.reply.2 sql) := by
  have executed : execute executor word sql setting stage = _ := run_execute he hr
  refine (run_bind_map executed).trans ?_
  simp only [firstRow_list]
  rfl

/-! ## Executions -/

def limitedCopy (s : Store) (number : Nat) (b : Builder) : Store :=
  (s.copyBuilder number b).set s.contents.length
    (.builder { b with query := Edit.setLimit (.int 1) (s.renumberQuery [number] b.query).1 })

/-- An execution that is asked for. It is one of a builder or statement as the objects are then, or of the
first row of a builder, by an executor that has some replies left. -/
structure Execution where
  store : Store
  number : Nat
  limited? : Option Builder := none
  word : String
  executor : Nat
  replies : Executor

namespace Execution

/-- The objects when the text is written; for the first row, a limited copy is made before. -/
def ready (x : Execution) : Store :=
  match x.limited? with
  | none => x.store
  | some b => limitedCopy x.store x.number b

def written (x : Execution) : Rendition :=
  match x.limited? with
  | none => x.store.rendition x.number
  | some _ => x.ready.rendition x.store.contents.length

def take (x : Execution) (rows : List Value) : Value :=
  match x.limited? with
  | none => .list rows
  | some _ => rows.headD .null

def writtenAt (x : Execution) (stage : Stage) : Stage :=
  { stage with store := x.ready, log := stage.log ++ Emission.lines x.written.sourceless }

def askedAt (x : Execution) (stage : Stage) (sql : String) : Stage :=
  ((x.writtenAt stage).announced x.word sql).asked x.executor x.replies.reply.2 sql

def run (x : Execution) : Action Value := fun setting stage =>
  match x.written.text with
  | .ok sql => (x.take <$> x.replies.reply.1.listed) setting (x.askedAt stage sql)
  | .error failure => .error failure (x.writtenAt stage)

def ofStatement (s : Store) (kind : StatementKind) (number : Nat) : Option Execution := do
  let x ← s.statement? number
  (s.executor? x.executor).map fun replies =>
    { store := s, number, word := kind.word, executor := x.executor, replies }

def ofFetch (s : Store) (executor : Nat) : Value → Option Execution
  | .object ⟨number, .builder, _⟩ | .object ⟨number, .statement _, _⟩ =>
    (s.executor? executor).map fun replies => { store := s, number, word := "SELECT", executor, replies }
  | _ => none

def ofFirst (s : Store) (executor : Nat) : Value → Option Execution
  | .object ⟨number, .builder, _⟩ => do
    let b ← s.builder? number
    ((limitedCopy s number b).executor? executor).map fun replies =>
      { store := s, number, limited? := some b, word := "SELECT", executor, replies }
  | _ => none

def ofCall (s : Store) (receiver : Value) (method : String) (arguments : List Value) : Option Execution :=
  match receiver with
  | .object ⟨number, .statement kind, _⟩ =>
    if Statement.Method.ofName? kind method = none ∧ Statement.Use.ofName? method = some .execution ∧
        arguments = [] then ofStatement s kind number
    else none
  | .object ⟨number, .factory, _⟩ => do
    let f ← s.factory? number
    match FactoryMethod.named.lookup method, arguments with
    | some .fetch, [query] => ofFetch s f.executor query
    | some .first, [query] => ofFirst s f.executor query
    | _, _ => none
  | _ => none

end Execution

/-- An object is written, and what follows goes by its text. -/
theorem run_write_bind {o : Object} (h : o.kind.isWritten = true) (next : String → Action Value) :
    (Action.write (.object o) >>= next) setting stage =
      match (stage.store.rendition o.number).text with
      | .ok sql => next sql setting
        { stage with log := stage.log ++ Emission.lines (stage.store.rendition o.number).sourceless }
      | .error failure => .error failure
        { stage with log := stage.log ++ Emission.lines (stage.store.rendition o.number).sourceless } := by
  have wrote : Action.write (.object o) setting stage = _ := run_write_object h
  cases text : (stage.store.rendition o.number).text with
  | ok sql =>
    rw [text] at wrote
    exact run_bind wrote
  | error failure =>
    rw [text] at wrote
    exact run_bind_error wrote

variable {x : Execution} {kind : StatementKind} {number : Nat}

theorem run_whole {o : Object} (h : o.kind.isWritten = true) {executor : Nat} {e : Executor} (word : String)
    (he : stage.store.executor? executor = some e) (hr : e.HasRows) :
    (Action.write (.object o) >>= fun sql => execute executor word sql) setting stage =
      Execution.run { store := stage.store, number := o.number, word, executor, replies := e } setting
        stage := by
  rw [run_write_bind h]
  simp only [Execution.run, Execution.askedAt, Execution.writtenAt, Execution.written, Execution.ready]
  cases (stage.store.rendition o.number).text with
  | ok sql => exact run_execute he hr.reply.1
  | error failure => rfl

theorem run_executeStatement (h : Execution.ofStatement stage.store kind number = some x)
    (hr : x.replies.HasRows) : executeStatement kind number setting stage = x.run setting stage := by
  obtain ⟨statement, found, h⟩ := Option.bind_eq_some_iff.1 h
  obtain ⟨e, asked, rfl⟩ := Option.map_eq_some_iff.1 h
  rw [executeStatement, run_bind (run_known found)]
  exact run_whole (o := ⟨number, .statement kind, .endless⟩) rfl kind.word asked hr

theorem run_fetch {executor : Nat} {query : Value}
    (h : Execution.ofFetch stage.store executor query = some x) (hr : x.replies.HasRows) :
    fetch executor query setting stage = x.run setting stage := by
  unfold Execution.ofFetch at h
  split at h
  · obtain ⟨e, asked, rfl⟩ := Option.map_eq_some_iff.1 h
    exact run_whole rfl "SELECT" asked hr
  · obtain ⟨e, asked, rfl⟩ := Option.map_eq_some_iff.1 h
    exact run_whole rfl "SELECT" asked hr
  · cases h

theorem grown_limitedCopy (s : Store) (number : Nat) (b : Builder) : s.Grown (limitedCopy s number b) :=
  (Store.Grown.copyBuilder s number b).set (Nat.le_refl _) _

theorem limitedCopy_hasRows {s : Store} (h : s.HasRows) (number : Nat) (b : Builder) :
    (limitedCopy s number b).HasRows := by
  have copied : ∀ c ∈ [Content.builder ⟨b.dialect, (s.renumberQuery [number] b.query).1⟩], c.HasRows :=
    List.forall_mem_singleton.2 trivial
  exact (h.withCopies _ copied).set _ trivial

/-- A change that needs no work is made on the builder as it is. -/
theorem run_apply_change (stage : Stage) {b : Builder} (hb : stage.store.builder? number = some b)
    (f : Query → Query) :
    Edit.apply number (Edit.change (pure f)) setting stage =
      .ok () { stage with store := stage.store.set number (.builder { b with query := f b.query }) } := by
  have worked : (pure f : Action (Query → Query)) setting stage = .ok f stage := rfl
  have step : Edit.step number (pure f) setting stage =
      .ok () { stage with store := stage.store.set number (.builder { b with query := f b.query }) } := by
    rw [Edit.step, run_bind worked, run_bind (run_known hb)]
    rfl
  rw [Edit.change, Edit.apply_cons, run_bind step]
  rfl

theorem run_limitedCopy {b : Builder} (hb : stage.store.builder? number = some b)
    (next : Nat → Action Value) :
    (do let copy ← Action.clone number; Edit.apply copy (Edit.limit (.int 1)); next copy) setting stage =
      next stage.store.contents.length setting { stage with store := limitedCopy stage.store number b } := by
  have cloned : Action.clone number setting stage =
      .ok stage.store.contents.length { stage with store := stage.store.copyBuilder number b } := by
    rw [Action.clone, run_bind (run_known hb)]
    rfl
  have copied := builder?_copyBuilder stage.store number b
  have limited : Edit.apply stage.store.contents.length (Edit.limit (.int 1)) setting
      { stage with store := stage.store.copyBuilder number b } =
      .ok () { stage with store := limitedCopy stage.store number b } :=
    run_apply_change { stage with store := stage.store.copyBuilder number b } copied _
  rw [run_bind cloned]
  exact run_bind limited

theorem run_first {executor : Nat} {query : Value}
    (h : Execution.ofFirst stage.store executor query = some x) (hr : x.replies.HasRows) :
    first executor query setting stage = x.run setting stage := by
  unfold Execution.ofFirst at h
  split at h
  · obtain ⟨b, found, h⟩ := Option.bind_eq_some_iff.1 h
    obtain ⟨e, asked, rfl⟩ := Option.map_eq_some_iff.1 h
    rename_i number _ _
    rw [first]
    refine (run_limitedCopy found _).trans ?_
    rw [Action.builderValue, run_write_bind (by rfl)]
    simp only [Execution.run, Execution.askedAt, Execution.writtenAt, Execution.written, Execution.ready]
    cases ((limitedCopy stage.store number b).rendition stage.store.contents.length).text with
    | ok sql => exact run_execute_first asked hr.reply.1
    | error failure => rfl
  · cases h

/-! ## The calls that are executions -/

namespace Execution

/-- An execution is one of the objects there are, and its executor is there. -/
structure IsAt (x : Execution) (s : Store) : Prop where
  store : x.store = s
  executor : x.ready.executor? x.executor = some x.replies

theorem grown_ready (x : Execution) : x.store.Grown x.ready := by
  rw [ready]
  split
  · exact .refl _
  · exact grown_limitedCopy _ _ _

theorem ready_hasRows (h : x.store.HasRows) : x.ready.HasRows := by
  rw [ready]
  split
  · exact h
  · exact limitedCopy_hasRows h _ _

theorem IsAt.hasRows {s : Store} (h : x.IsAt s) (hr : s.HasRows) : x.replies.HasRows :=
  ready_hasRows (h.store ▸ hr) _ (List.mem_of_getElem? (content?_of_executor? h.executor))

theorem ofStatement_isAt {s : Store} (h : ofStatement s kind number = some x) : x.IsAt s := by
  obtain ⟨statement, found, h⟩ := Option.bind_eq_some_iff.1 h
  obtain ⟨e, asked, rfl⟩ := Option.map_eq_some_iff.1 h
  exact ⟨rfl, asked⟩

theorem ofFetch_isAt {s : Store} {query : Value} (h : ofFetch s executor query = some x) : x.IsAt s := by
  unfold ofFetch at h
  split at h
  · obtain ⟨e, asked, rfl⟩ := Option.map_eq_some_iff.1 h
    exact ⟨rfl, asked⟩
  · obtain ⟨e, asked, rfl⟩ := Option.map_eq_some_iff.1 h
    exact ⟨rfl, asked⟩
  · cases h

theorem ofFirst_isAt {s : Store} {query : Value} (h : ofFirst s executor query = some x) : x.IsAt s := by
  unfold ofFirst at h
  split at h
  · obtain ⟨b, found, h⟩ := Option.bind_eq_some_iff.1 h
    obtain ⟨e, asked, rfl⟩ := Option.map_eq_some_iff.1 h
    exact ⟨rfl, asked⟩
  · cases h

end Execution

theorem run_callMethod {receiver : Value} {method : String} {arguments : List Value}
    (h : Execution.ofCall stage.store receiver method arguments = some x) (hr : stage.store.HasRows) :
    x.IsAt stage.store ∧ callMethod receiver method arguments setting stage = x.run setting stage := by
  unfold Execution.ofCall at h
  split at h
  · rename_i number kind _
    split at h
    · rename_i named
      obtain ⟨edit, use, rfl⟩ := named
      have there := Execution.ofStatement_isAt h
      refine ⟨there, ?_⟩
      rw [callMethod, callStatement, edit, use]
      exact run_executeStatement h (there.hasRows hr)
    · cases h
  · rename_i number _
    obtain ⟨f, found, h⟩ := Option.bind_eq_some_iff.1 h
    split at h
    · rename_i query named _
      have there := Execution.ofFetch_isAt h
      refine ⟨there, ?_⟩
      rw [callMethod, callFactory, named]
      exact (run_bind (run_known found)).trans (run_fetch h (there.hasRows hr))
    · rename_i query named _
      have there := Execution.ofFirst_isAt h
      refine ⟨there, ?_⟩
      rw [callMethod, callFactory, named]
      exact (run_bind (run_known found)).trans (run_first h (there.hasRows hr))
    · cases h
  · cases h

/-! ## The calls that are none -/

theorem execute_unknown {word : String} (h : stage.store.executor? executor = none) :
    execute executor word sql setting stage =
      .error (.noEntry (Number.natText executor)) (stage.announced word sql) := by
  have unknown : Action.known Store.executor? executor setting (stage.announced word sql) =
      .error (.noEntry (Number.natText executor)) (stage.announced word sql) := run_unknown h
  rw [execute_eq]
  exact run_bind_error (run_bind_error unknown)

theorem write_upkept {o : Object} (h : o.kind.isWritten = true) (hr : stage.store.HasRows)
    {next : String → Action Value} (hn : ∀ sql (after : Stage), after.store = stage.store →
      ∃ failure last, next sql setting after = .error failure last ∧ after.Upkept last) :
    stage.Upkept (Stage.left ((Action.write (.object o) >>= next) setting stage)) := by
  rw [run_write_bind h]
  cases (stage.store.rendition o.number).text with
  | ok sql =>
    obtain ⟨failure, last, failed, kept⟩ := hn sql { stage with
      log := stage.log ++ Emission.lines (stage.store.rendition o.number).sourceless } rfl
    change stage.Upkept (Stage.left (next sql setting _))
    rw [failed]
    exact ⟨kept.executed, kept.rows⟩
  | error failure => exact ⟨rfl, hr⟩

/-- Where the statement or its executor is missing, nothing is run. -/
theorem executeStatement_upkept (hr : stage.store.HasRows)
    (h : Execution.ofStatement stage.store kind number = none) :
    stage.Upkept (Stage.left (executeStatement kind number setting stage)) := by
  cases found : stage.store.statement? number with
  | none =>
    rw [executeStatement, run_bind_error (run_unknown found)]
    exact ⟨rfl, hr⟩
  | some statement =>
    rw [Execution.ofStatement, found] at h
    have unknown : stage.store.executor? statement.executor = none := Option.map_eq_none_iff.1 h
    rw [executeStatement, run_bind (run_known found)]
    exact write_upkept rfl hr fun sql after same =>
      ⟨_, _, execute_unknown (same ▸ unknown), rfl, same ▸ hr⟩

theorem fetch_upkept {query : Value} (hr : stage.store.HasRows)
    (h : Execution.ofFetch stage.store executor query = none) :
    stage.Upkept (Stage.left (fetch executor query setting stage)) := by
  unfold Execution.ofFetch at h
  unfold fetch
  split
  · exact write_upkept rfl hr fun sql after same =>
      ⟨_, _, execute_unknown (same ▸ Option.map_eq_none_iff.1 h), rfl, same ▸ hr⟩
  · exact write_upkept rfl hr fun sql after same =>
      ⟨_, _, execute_unknown (same ▸ Option.map_eq_none_iff.1 h), rfl, same ▸ hr⟩
  · exact ⟨rfl, hr⟩

theorem first_upkept {query : Value} (hr : stage.store.HasRows)
    (h : Execution.ofFirst stage.store executor query = none) :
    stage.Upkept (Stage.left (first executor query setting stage)) := by
  unfold first
  split
  · rename_i number form
    cases found : stage.store.builder? number with
    | none =>
      have unknown : Action.clone number setting stage = .error (.noEntry (Number.natText number)) stage :=
        run_bind_error (run_unknown found)
      rw [run_bind_error unknown]
      exact ⟨rfl, hr⟩
    | some b =>
      simp only [Execution.ofFirst, found] at h
      have unknown : (limitedCopy stage.store number b).executor? executor = none :=
        Option.map_eq_none_iff.1 h
      have rows := limitedCopy_hasRows hr number b
      rw [run_limitedCopy found]
      refine .of_same (write_upkept rfl rows fun sql after same => ?_) rfl
      replace same : after.store = limitedCopy stage.store number b := same
      exact ⟨_, _, run_bind_error (execute_unknown (same ▸ unknown)), rfl, same ▸ rows⟩
  · exact ⟨rfl, hr⟩

theorem callStatement_upkept (hs : setting.Upholds) (hr : stage.store.HasRows) {method : String}
    {arguments : List Value}
    (h : Statement.Method.ofName? kind method = none → Statement.Use.ofName? method = some .execution →
      arguments = [] → Execution.ofStatement stage.store kind number = none) :
    stage.Upkept (Stage.left (callStatement kind number method arguments setting stage)) := by
  cases edit : Statement.Method.ofName? kind method with
  | some m =>
    have applied := Statement.Edit.apply_upholds (Statement.Method.edit_upholds hs method m arguments) number
    rw [callStatement, edit]
    exact Action.Upholds.bind applied (fun _ => .pure _) stage hr
  | none =>
    cases named : Statement.Use.ofName? method with
    | none =>
      rw [callStatement, edit, named]
      exact ⟨rfl, hr⟩
    | some u =>
      rw [callStatement, edit, named]
      cases arguments with
      | cons _ _ => exact ⟨rfl, hr⟩
      | nil =>
        cases u with
        | text => exact Action.Upholds.map _ (.write _) stage hr
        | execution => exact executeStatement_upkept hr (h edit named rfl)

theorem callFactory_upkept (hr : stage.store.HasRows) {method : String} {arguments : List Value}
    (h : ∀ f, stage.store.factory? number = some f → ∀ query, arguments = [query] →
      (FactoryMethod.named.lookup method = some .fetch →
        Execution.ofFetch stage.store f.executor query = none) ∧
      (FactoryMethod.named.lookup method = some .first →
        Execution.ofFirst stage.store f.executor query = none)) :
    stage.Upkept (Stage.left (callFactory number method arguments setting stage)) := by
  cases named : FactoryMethod.named.lookup method with
  | none =>
    rw [callFactory, named]
    exact ⟨rfl, hr⟩
  | some m =>
    rw [callFactory, named]
    cases found : stage.store.factory? number with
    | none =>
      change stage.Upkept (Stage.left ((Action.known Store.factory? number >>= _) setting stage))
      rw [run_bind_error (run_unknown found)]
      exact ⟨rfl, hr⟩
    | some f =>
      change stage.Upkept (Stage.left ((Action.known Store.factory? number >>= _) setting stage))
      rw [run_bind (run_known found)]
      by_cases runs : (m = .fetch ∨ m = .first) ∧ arguments.length = 1
      · obtain ⟨rfl | rfl, one⟩ := runs <;> obtain ⟨query, rfl⟩ := List.length_eq_one_iff.1 one
        · exact fetch_upkept hr ((h f found query rfl).1 named)
        · exact first_upkept hr ((h f found query rfl).2 named)
      · exact performFactory_upholds _ _ _ (not_and.1 runs) stage hr

theorem callMethod_upkept (hs : setting.Upholds) (hr : stage.store.HasRows) {receiver : Value}
    {method : String} {arguments : List Value}
    (h : Execution.ofCall stage.store receiver method arguments = none) :
    stage.Upkept (Stage.left (callMethod receiver method arguments setting stage)) := by
  unfold callMethod
  split
  · exact callBuilder_upholds hs _ _ _ stage hr
  · refine callStatement_upkept hs hr fun edit use none => ?_
    rwa [Execution.ofCall, if_pos ⟨edit, use, none⟩] at h
  · refine callFactory_upkept hr fun f found query one => ?_
    subst one
    simp only [Execution.ofCall, found] at h
    constructor <;> intro named <;> rw [named] at h <;> exact h
  · exact callTable_upholds hs _ _ _ stage hr
  · exact callDialect_upholds _ _ _ stage hr
  · exact ⟨rfl, hr⟩

end Session

end SqlComposition
