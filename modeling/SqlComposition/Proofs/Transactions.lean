import Mathlib.Data.List.Forall2
import SqlComposition.Transaction

/-!
Calls and their transactions. Of an engine nothing is known but what it records and that it answers each
statement from its script. Then every call leaves one block behind, which ends as the call did, and what a
call comes to depends on its own answer alone: a row that cannot be copied fails the call before the
transaction has ended, so that it is not committed.
-/

namespace SqlComposition

namespace Value

/-- A mapping whose keys are all different. -/
def IsRecord (row : Value) : Prop :=
  ∃ entries, row = .mapping entries ∧ entries.Pairwise fun e later => e.1.sameKey later.1 = false

/-- The mapping made of a row, which is the row itself where that is one. -/
structure IsCopy (row copy : Value) : Prop where
  made : row.toMapping = .ok copy
  isMapping : ∃ entries, copy = .mapping entries
  same : row.IsRecord → copy = row

theorem putEntry_new {key content : Value} {entries : List (Value × Value)}
    (new : ∀ e ∈ entries, e.1.sameKey key = false) :
    putEntry key content entries = entries ++ [(key, content)] := by
  induction entries with
  | nil => rfl
  | cons e rest ih =>
    obtain ⟨other, later⟩ := List.forall_mem_cons.1 new
    rw [putEntry, other, if_neg Bool.false_ne_true, ih later, List.cons_append]

/-- Entries with new keys are put behind those that are there. -/
theorem foldlM_putEntry (kept entries : List (Value × Value))
    (distinct : (kept ++ entries).Pairwise fun e later => e.1.sameKey later.1 = false) :
    (entries.map (Except.ok : _ → Except Failure (Value × Value))).foldlM
      (fun kept entry => entry.map fun e => putEntry e.1 e.2 kept) kept = .ok (kept ++ entries) := by
  induction entries generalizing kept with
  | nil =>
    rw [List.append_nil]
    rfl
  | cons e rest ih =>
    have new : ∀ other ∈ kept, other.1.sameKey e.1 = false := fun other ho =>
      (List.pairwise_append.1 distinct).2.2 other ho e List.mem_cons_self
    rw [List.append_cons] at distinct
    have put := ih (kept ++ [e]) distinct
    rw [← List.append_cons, ← putEntry_new new] at put
    exact put

theorem IsRecord.toMapping {row : Value} (h : row.IsRecord) : row.toMapping = .ok row := by
  obtain ⟨entries, rfl, distinct⟩ := h
  exact congrArg (Except.map mapping) (foldlM_putEntry [] entries distinct)

theorem isCopy_of_toMapping {row copy : Value} (h : row.toMapping = .ok copy) : IsCopy row copy := by
  refine ⟨h, ?_, fun isRecord => ?_⟩
  · obtain ⟨entries, made⟩ : ∃ entries : Except Failure (List (Value × Value)),
        row.toMapping = entries.map mapping := ⟨_, rfl⟩
    rw [made] at h
    cases entries with
    | error failure => cases h
    | ok entries => exact ⟨entries, (Except.ok.inj h).symm⟩
  · rw [isRecord.toMapping] at h
    exact (Except.ok.inj h).symm

end Value

namespace Transaction

/-- What a caller is given for an answer: all rows, each as a mapping, or what failed first. -/
inductive Gives : Except Failure Answer → Except Failure Value → Prop where
  | refused (failure : Failure) : Gives (.error failure) (.error failure)
  | withoutRows (count : String) : Gives (.ok (.affected count)) (.ok (.list []))
  | copied {rows : Value} {items copies : List Value} : rows.items = .ok items →
      List.Forall₂ Value.IsCopy items copies → Gives (.ok (.rows rows)) (.ok (.list copies))
  | notRows {rows : Value} {failure : Failure} : rows.items = .error failure →
      Gives (.ok (.rows rows)) (.error failure)
  | stopped {rows row : Value} {before after : List Value} {failure : Failure} :
      rows.items = .ok (before ++ row :: after) → (∀ r ∈ before, ∃ copy, r.toMapping = .ok copy) →
        row.toMapping = .error failure → Gives (.ok (.rows rows)) (.error failure)

def outcome : Except Failure Answer → Except Failure Value
  | .error failure => .error failure
  | .ok (.affected _) => .ok (.list [])
  | .ok (.rows rows) => copyRows rows

/-- Rows are copied up to the first that cannot be. -/
theorem copies_or_stops (items : List Value) :
    (∃ copies, items.mapM Value.toMapping = .ok copies ∧ List.Forall₂ Value.IsCopy items copies) ∨
      ∃ before row after failure, items = before ++ row :: after ∧
        (∀ r ∈ before, ∃ copy, r.toMapping = .ok copy) ∧ row.toMapping = .error failure ∧
          items.mapM Value.toMapping = .error failure := by
  induction items with
  | nil => exact .inl ⟨[], rfl, .nil⟩
  | cons row rest ih =>
    rw [List.mapM_cons]
    cases first : row.toMapping with
    | error failure => exact .inr ⟨[], row, rest, failure, rfl, by simp, first, rfl⟩
    | ok copy =>
      rcases ih with ⟨copies, made, all⟩ | ⟨before, stop, after, failure, rfl, made, stopped, failed⟩
      · refine .inl ⟨copy :: copies, ?_, .cons (Value.isCopy_of_toMapping first) all⟩
        rw [made]
        rfl
      · refine .inr ⟨row :: before, stop, after, failure, rfl, ?_, stopped, ?_⟩
        · exact List.forall_mem_cons.2 ⟨⟨copy, first⟩, made⟩
        · rw [failed]
          rfl

theorem gives_outcome (answer : Except Failure Answer) : Gives answer (outcome answer) := by
  cases answer with
  | error failure => exact .refused failure
  | ok answer =>
    cases answer with
    | affected count => exact .withoutRows count
    | rows rows =>
      cases found : rows.items with
      | error failure =>
        simp only [outcome, copyRows, found, bind, Except.bind]
        exact .notRows found
      | ok items =>
        simp only [outcome, copyRows, found, bind, Except.bind]
        rcases copies_or_stops items with ⟨copies, made, all⟩ | ⟨before, row, after, failure, rfl, made,
          stopped, failed⟩
        · rw [made]
          exact .copied found all
        · rw [failed]
          exact .stopped found made stopped

/-- What a call leaves in the record. -/
def block (sql : String) (result : Except Failure Value) : List String :=
  ["begin", sql, if result.isOk then "commit" else "rollback"]

/-- A transaction is committed where its block ends well; otherwise it is rolled back, and the failure goes
on. Each statement is answered from the script. -/
structure Engine.Records {σ : Type} (e : Engine σ) (events : σ → List String)
    (script : σ → List (Except Failure Answer)) : Prop where
  begin (s : σ) : ∃ t, e.begin s = .ok () t ∧ events t = events s ++ ["begin"] ∧ script t = script s
  send {s : σ} {answer : Except Failure Answer} {rest : List (Except Failure Answer)} (sql : String) :
    script s = answer :: rest →
      ∃ t, e.send sql s = leaving answer t ∧ events t = events s ++ [sql] ∧ script t = rest
  commit (s : σ) : ∃ ends t, e.finish none s = .ok ends t ∧ events t = events s ++ ["commit"] ∧
    script t = script s
  rollback (failure : Failure) (s : σ) : ∃ t, e.finish (some failure) s = .ok false t ∧
    events t = events s ++ ["rollback"] ∧ script t = script s
  debug (line : String) (s : σ) : events (e.debug line s) = events s ∧ script (e.debug line s) = script s

namespace Engine

variable {σ : Type} {e : Engine σ} {events : σ → List String} {script : σ → List (Except Failure Answer)}

theorem observing_ok {block : EStateM Failure σ Value} {v : Value} {s t : σ} (h : block s = .ok v t) :
    (observing block : EStateM Failure σ (Except Failure Value)) s = .ok (.ok v) t := by
  show EStateM.tryCatch _ _ s = _
  simp [EStateM.tryCatch, bind, EStateM.bind, h, pure, EStateM.pure]

theorem observing_error {block : EStateM Failure σ Value} {failure : Failure} {s t : σ}
    (h : block s = .error failure t) :
    (observing block : EStateM Failure σ (Except Failure Value)) s = .ok (.error failure) t := by
  show EStateM.tryCatch _ _ s = _
  simp only [EStateM.tryCatch, bind, EStateM.bind, h, pure, EStateM.pure]
  rfl

/-- A block that ends well ends its transaction, and gives what it came to. -/
theorem within_ok {block : EStateM Failure σ Value} {v : Value} {ends : Bool} {s opened done closed : σ}
    (hb : e.begin s = .ok () opened) (h : block opened = .ok v done)
    (he : e.finish none done = .ok ends closed) : e.within block s = .ok v closed := by
  simp only [within, bind, EStateM.bind, hb, observing_ok h, he]
  rfl

theorem within_error {block : EStateM Failure σ Value} {failure : Failure} {s opened done closed : σ}
    (hb : e.begin s = .ok () opened) (h : block opened = .error failure done)
    (he : e.finish (some failure) done = .ok false closed) :
    e.within block s = .error failure closed := by
  simp only [within, bind, EStateM.bind, hb, observing_error h, he]
  rfl

variable {s : σ} {answer : Except Failure Answer} {rest : List (Except Failure Answer)}

theorem Records.fetch (h : e.Records events script) (sql : String) (hs : script s = answer :: rest) :
    ∃ t, e.fetch sql s = leaving (outcome answer) t ∧ events t = events s ++ [sql] ∧ script t = rest := by
  obtain ⟨t, sent, recorded, left⟩ := h.send sql hs
  cases answer with
  | error failure =>
    refine ⟨t, ?_, recorded, left⟩
    simp only [Engine.fetch, bind, EStateM.bind, sent, leaving, outcome]
  | ok answer =>
    cases answer with
    | rows rows =>
      refine ⟨t, ?_, recorded, left⟩
      simp only [Engine.fetch, bind, EStateM.bind, sent, leaving, outcome]
      cases copyRows rows <;> rfl
    | affected count =>
      have quiet := h.debug (affectedLine count) t
      refine ⟨e.debug (affectedLine count) t, ?_, quiet.1.trans recorded, quiet.2.trans left⟩
      simp only [Engine.fetch, bind, EStateM.bind, sent, leaving, outcome]
      rfl

/-- One call: its transaction is the only one that it leaves behind. -/
theorem Records.call (h : e.Records events script) (sql : String) (hs : script s = answer :: rest) :
    ∃ t, e.call sql s = (outcome answer, t) ∧ events t = events s ++ block sql (outcome answer) ∧
      script t = rest := by
  obtain ⟨opened, begun, recordedBegin, keptBegin⟩ := h.begin s
  obtain ⟨done, fetched, recordedSql, left⟩ := h.fetch sql (keptBegin.trans hs)
  cases result : outcome answer with
  | ok v =>
    rw [result] at fetched
    obtain ⟨ends, closed, committed, recordedEnd, keptEnd⟩ := h.commit done
    refine ⟨closed, ?_, ?_, keptEnd.trans left⟩
    · rw [Engine.call, execute, within_ok begun fetched committed]
    · rw [recordedEnd, recordedSql, recordedBegin, List.append_assoc, List.append_assoc]
      rfl
  | error failure =>
    rw [result] at fetched
    obtain ⟨closed, undone, recordedEnd, keptEnd⟩ := h.rollback failure done
    refine ⟨closed, ?_, ?_, keptEnd.trans left⟩
    · rw [Engine.call, execute, within_error begun fetched undone]
    · rw [recordedEnd, recordedSql, recordedBegin, List.append_assoc, List.append_assoc]
      rfl

theorem Records.callAll (h : e.Records events script) (sqls : List String) (s : σ)
    (enough : sqls.length ≤ (script s).length) :
    (e.callAll sqls s).1 = ((script s).take sqls.length).map outcome ∧
      events (e.callAll sqls s).2 =
        events s ++ (List.zipWith block sqls (e.callAll sqls s).1).flatten := by
  induction sqls generalizing s with
  | nil => simp [Engine.callAll]
  | cons sql sqls ih =>
    cases hs : script s with
    | nil => simp [hs] at enough
    | cons answer rest =>
      obtain ⟨t, called, recorded, left⟩ := h.call sql hs
      rw [hs, List.length_cons, List.length_cons, ← left] at enough
      obtain ⟨results, recordedRest⟩ := ih t (Nat.le_of_succ_le_succ enough)
      simp only [Engine.callAll, called]
      rw [left] at results
      refine ⟨?_, ?_⟩
      · rw [results]
        rfl
      · rw [recordedRest, recorded, List.append_assoc]
        rfl

end Engine

namespace Scripted

/-- What the driver makes of the statements that are still to come. -/
def answers (scope : Scope) (s : Scripted) : List (Except Failure Answer) :=
  s.script.map fun reply => scope.outcome reply.answer

theorem engine_records (scope : Scope) : (engine scope).Records Scripted.events (answers scope) where
  begin s := ⟨_, rfl, rfl, rfl⟩
  send {s answer rest} sql hs := by
    obtain ⟨reply, replies, script, rfl, rfl⟩ := List.map_eq_cons_iff.1 hs
    have first : s.next = reply := by rw [next, script, List.headD_cons]
    refine ⟨{ s.record sql with
      script := s.script.tail, log := s.log ++ (scope.run reply.answer).2.log }, ?_, rfl, ?_⟩
    · rw [← first]
      rfl
    · rw [answers, script, List.tail_cons]
  commit s := ⟨_, _, rfl, rfl, rfl⟩
  rollback failure s := ⟨_, rfl, rfl, rfl⟩
  debug line s := ⟨rfl, rfl⟩

end Scripted

theorem runFrom_runs (scope : Scope) (statements : List (String × Reply)) (s : Scripted)
    (hs : s.answers scope = statements.map fun statement => scope.outcome statement.2.answer) :
    List.Forall₂ (fun statement run => run.events = block statement.1 run.result ∧
      Gives (scope.outcome statement.2.answer) run.result)
        statements (runFrom scope (statements.map Prod.fst) s) := by
  induction statements generalizing s with
  | nil => exact .nil
  | cons statement rest ih =>
    obtain ⟨t, called, recorded, left⟩ := (Scripted.engine_records scope).call statement.1 hs
    simp only [List.map_cons, runFrom, called]
    refine .cons ⟨?_, gives_outcome _⟩ (ih t left)
    rw [recorded, List.drop_left]

/-- The run of a statement shows the block of its own call, and what its own answer gives. -/
theorem runAll_runs (scope : Scope) (statements : List (String × Reply)) :
    List.Forall₂ (fun statement run => run.events = block statement.1 run.result ∧
      Gives (scope.outcome statement.2.answer) run.result) statements (runAll scope statements) :=
  runFrom_runs scope statements _ (List.map_map ..)

/-- Each call comes to what its own answer makes of it and leaves one block, committed if it returned; what
the other calls are answered changes neither. -/
theorem Engine.calls_apart {σ : Type} {e : Engine σ} {events : σ → List String}
    {script : σ → List (Except Failure Answer)} (h : e.Records events script) (sqls : List String) (s : σ)
    (enough : sqls.length ≤ (script s).length) :
    List.Forall₂ Gives ((script s).take sqls.length) (e.callAll sqls s).1 ∧
      events (e.callAll sqls s).2 =
        events s ++ (List.zipWith block sqls (e.callAll sqls s).1).flatten ∧
      ∀ t, sqls.length ≤ (script t).length → ∀ i : Nat, (script t)[i]? = (script s)[i]? →
        (e.callAll sqls t).1[i]? = (e.callAll sqls s).1[i]? ∧
          (List.zipWith block sqls (e.callAll sqls t).1)[i]? =
            (List.zipWith block sqls (e.callAll sqls s).1)[i]? := by
  obtain ⟨results, recorded⟩ := h.callAll sqls s enough
  refine ⟨?_, recorded, fun t enoughThere i same => ?_⟩
  · rw [results, List.forall₂_map_right_iff]
    exact List.forall₂_same.2 fun answer _ => gives_outcome answer
  · have own : (e.callAll sqls t).1[i]? = (e.callAll sqls s).1[i]? := by
      rw [(h.callAll sqls t enoughThere).1, results, List.getElem?_map, List.getElem?_map,
        List.getElem?_take, List.getElem?_take, same]
    refine ⟨own, ?_⟩
    rw [List.getElem?_zipWith, List.getElem?_zipWith, own]

/-- Rows, a refusal, a row that is no mapping, and rows that were changed. -/
def mixedScript : List Reply :=
  let numbered (n : Int) : Term := .mapping [(.scalar (.text "id"), .scalar (.int n))]
  [.rows (.list [numbered 1, numbered 2]), .raised "no such table",
    .rows (.list [numbered 3, .scalar (.int 4)]), .affected (.scalar (.int 2))]

def mixedStatements : List String :=
  ["SELECT id FROM a", "SELECT id FROM b", "SELECT id FROM c", "DELETE FROM a"]

theorem mixedScript_apart :
    mixedStatements.length ≤ (Scripted.answers {} ⟨mixedScript, [], []⟩).length ∧
      List.Forall₂ Gives (Scripted.answers {} ⟨mixedScript, [], []⟩)
        ((Scripted.engine {}).callAll mixedStatements ⟨mixedScript, [], []⟩).1 ∧
      ((Scripted.engine {}).callAll mixedStatements ⟨mixedScript, [], []⟩).2.events =
        ["begin", "SELECT id FROM a", "commit", "begin", "SELECT id FROM b", "rollback",
          "begin", "SELECT id FROM c", "rollback", "begin", "DELETE FROM a", "commit"] := by
  have enough : mixedStatements.length ≤ (Scripted.answers {} ⟨mixedScript, [], []⟩).length := by decide
  obtain ⟨gives, recorded, -⟩ :=
    Engine.calls_apart (Scripted.engine_records {}) mixedStatements ⟨mixedScript, [], []⟩ enough
  exact ⟨enough, gives, recorded.trans rfl⟩

end Transaction

end SqlComposition
