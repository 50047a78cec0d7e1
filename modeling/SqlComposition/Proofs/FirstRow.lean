import SqlComposition.Proofs.LiteralReading
import SqlComposition.Proofs.Sessions
import SqlComposition.Proofs.SharedConditions

/-!
The first row of a query. It is asked for by a copy of the query that has the limit 1 in the place of its
own, so it is the first row that the query has without any limit. With an executor that counts rows as a
limit says, this is the first of the rows that are fetched, as long as the query may have one at all: with
the limit 0 nothing is fetched, and still there can be a first row.
-/

namespace SqlComposition
open SqlComposition.Action Store

namespace Query
open Layout

def limitedTo (limit : Option Int) (q : Query) : Query :=
  { q with limit := limit.map .int }

/-- A limit stands on a line of its own, and what stands around that line does not depend on it. -/
theorem limit_around (q : Query) : ∃ front back,
    (∀ behind, back = .ok behind → behind = "" ∨ ∃ rest, behind = "\n" ++ rest) ∧
    ∀ limit : Option Int, (q.limitedTo limit).inlined =
      around front (.ok (limit.elim "" fun n => "\n" ++ ("LIMIT " ++ Number.intText n))) back := by
  let before := q.opening ++
    (SetOperation.layouts q.setOperations ++ clause "ORDER BY " ", " (OrderItem.layouts q.ordering))
  have some : before ≠ [] := by simp [before, q.opening_ne_nil]
  refine ⟨(joined "\n" before).inlined,
    Piece.inlined ((plain "OFFSET " q.offset).flatMap fun part => .text "\n" :: part.pieces),
    fun behind written => ?_, fun limit => ?_⟩
  · cases shift : q.offset with
    | none =>
      rw [shift] at written
      exact .inl (Except.ok.inj written).symm
    | some rows =>
      rw [shift, plain, List.flatMap_singleton, Piece.inlined_text] at written
      obtain ⟨rest, -, same⟩ := Failure.of_map_eq_ok written
      exact .inr ⟨rest, same.symm⟩
  have lines : (q.limitedTo limit).layout =
      joined "\n" (before ++ plain "LIMIT " (limit.map .int) ++ plain "OFFSET " q.offset) := by
    rw [layout_eq_lines, closing, ← List.append_assoc, ← List.append_assoc]
    rfl
  have line : Piece.inlined ((plain "LIMIT " (limit.map .int)).flatMap fun part => .text "\n" :: part.pieces) =
      .ok (limit.elim "" fun n => "\n" ++ ("LIMIT " ++ Number.intText n)) := by
    cases limit with
    | none => rfl
    | some n =>
      change Except.ok ("\n" ++ ("LIMIT " ++ (Number.intText n ++ ""))) = _
      rw [String.append_empty]
      rfl
  rw [Query.inlined, lines, inlined_joined some, line]

/-- A limit cannot keep a query from being written. -/
theorem inlined_limitedTo (q : Query) (limit other : Option Int) :
    (∀ failure, (q.limitedTo limit).inlined = .error failure → (q.limitedTo other).inlined = .error failure) ∧
      ∀ sql, (q.limitedTo limit).inlined = .ok sql → ∃ text, (q.limitedTo other).inlined = .ok text := by
  obtain ⟨front, back, -, text⟩ := q.limit_around
  rw [text, text]
  cases front <;> cases back <;> simp [around, bind, Except.bind, pure, Except.pure]

/-- An executor that comes back with these rows for a text counts the rows of the query as SQL does: with a
limit they are the first ones of those without it. -/
def IsCounted (rows : String → List Value) (q : Query) : Prop :=
  ∀ (n : Nat) (sql whole : String), (q.limitedTo (some n)).inlined = .ok sql →
    (q.limitedTo none).inlined = .ok whole → rows sql = (rows whole).take n

theorem limitedTo_own {q : Query} {limit : Option Int} (h : q.limit = limit.map .int) :
    q.limitedTo limit = q := by
  cases q
  rw [limitedTo, ← h]

end Query

namespace Session

variable {setting setting' : Setting} {stage stage' : Stage} {executor number : Nat} {x y : Execution}
  {b : Builder} {rows : String → List Value}

namespace Execution

structure IsAnswered (rows : String → List Value) (setting : Setting) (stage : Stage) (x : Execution) :
    Prop where
  script : x.replies.HasRows
  answered : ∀ sql, x.written.text = .ok sql →
    ∃ last, x.replies.reply.1.listed setting (x.askedAt stage sql) = .ok (rows sql) last

theorem IsAnswered.came (h : x.IsAnswered rows setting stage) {sql : String}
    (text : x.written.text = .ok sql) : Stage.came (x.run setting stage) = .ok (x.take (rows sql)) := by
  obtain ⟨last, answered⟩ := h.answered sql text
  rw [run_sent text, Stage.came_map, answered]
  rfl

theorem came_refused {failure : Failure} (text : x.written.text = .error failure) :
    Stage.came (x.run setting stage) = .error failure := by
  rw [run_refused text]
  rfl

theorem isAnswered_of_text {sql : String} (script : x.replies.HasRows) (text : x.written.text = .ok sql)
    (reply : ∀ stage, x.replies.reply.1.listed setting stage = .ok (rows sql) stage) :
    x.IsAnswered rows setting stage where
  script := script
  answered := fun other same => by
    obtain rfl := Except.ok.inj (text.symm.trans same)
    exact ⟨_, reply _⟩

theorem written_fetched {s : Store} (h : ofFetch s executor (builderValue number) = some x)
    (hb : s.builder? number = some b) (settled : b.query.IsSettled) :
    x.limited? = none ∧ x.written.text = b.query.inlined := by
  obtain ⟨e, asked, rfl⟩ := Option.map_eq_some_iff.1 h
  refine ⟨rfl, ?_⟩
  change (s.rendition number).text = _
  rw [Store.rendition, shown_builder hb settled]
  exact congrArg Rendition.text b.query.rendition_eq

theorem written_first {s : Store} (h : ofFirst s executor (builderValue number) = some x)
    (hb : s.builder? number = some b) (settled : b.query.IsSettled) :
    x.limited? = some b ∧ x.written.text = (b.query.limitedTo (some 1)).inlined := by
  obtain ⟨b', found, h⟩ := Option.bind_eq_some_iff.1 h
  obtain rfl := Option.some.inj (hb.symm.trans found)
  obtain ⟨e, asked, rfl⟩ := Option.map_eq_some_iff.1 h
  refine ⟨rfl, ?_⟩
  rw [written_limited rfl settled]
  exact congrArg Rendition.text (Query.rendition_eq _)

end Execution

structure FirstAgrees (rows : String → List Value) (q : Query) (fetched first : Except Failure Value) :
    Prop where
  refused : ∀ failure, (q.limitedTo none).inlined = .error failure →
    fetched = .error failure ∧ first = .error failure
  /-- The first row is that of the query without its limit. -/
  whole : ∀ sql, (q.limitedTo none).inlined = .ok sql → first = .ok ((rows sql).headD .null)
  /-- Unless its limit is below 1, this is the first row that is fetched, and there is none exactly when
  nothing is fetched. -/
  agrees : (∀ n : Int, q.limit = some (.int n) → 1 ≤ n) → ∀ sql, (q.limitedTo none).inlined = .ok sql →
    ∃ found, fetched = .ok (.list found) ∧ first = .ok (found.headD .null) ∧
      ((∀ row ∈ found, row ≠ .null) → (first = .ok .null ↔ found = []))
  nothing : q.limit = some (.int 0) → ∀ sql, (q.limitedTo none).inlined = .ok sql →
    fetched = .ok (.list [])

theorem headD_eq_null_iff {found : List Value} (h : ∀ row ∈ found, row ≠ .null) :
    found.headD .null = .null ↔ found = [] := by
  cases found with
  | nil => simp
  | cons row rest => simpa using h row List.mem_cons_self

/-- With an executor that counts rows as limits say, the first row of a query is the first row that is
fetched, as long as the query has no limit or one of at least 1. -/
theorem first_agrees_with_fetch {limit : Option Int} (hb : stage.store.builder? number = some b)
    (hb' : stage'.store.builder? number = some b) (settled : b.query.IsSettled)
    (integral : b.query.limit = limit.map .int) (counted : b.query.IsCounted rows)
    (hx : Execution.ofFetch stage.store executor (builderValue number) = some x)
    (fetched : x.IsAnswered rows setting stage)
    (hy : Execution.ofFirst stage'.store executor (builderValue number) = some y)
    (first : y.IsAnswered rows setting' stage') :
    FirstAgrees rows b.query (Stage.came (Session.fetch executor (builderValue number) setting stage))
      (Stage.came (Session.first executor (builderValue number) setting' stage')) := by
  obtain ⟨all, textAll⟩ := Execution.written_fetched hx hb settled
  obtain ⟨one, textOne⟩ := Execution.written_first hy hb' settled
  rw [← Query.limitedTo_own integral] at textAll
  rw [run_fetch hx fetched.script, run_first hy first.script]
  have takeAll (found : List Value) : x.take found = .list found := by rw [Execution.take, all]
  have takeOne (found : List Value) : y.take found = found.headD .null := by rw [Execution.take, one]
  have whole (sql : String) (written : (b.query.limitedTo none).inlined = .ok sql) :
      Stage.came (y.run setting' stage') = .ok ((rows sql).headD .null) := by
    obtain ⟨text, limited⟩ := (b.query.inlined_limitedTo none (some 1)).2 sql written
    rw [first.came (textOne.trans limited), takeOne, counted 1 text sql limited written]
    cases rows sql <;> rfl
  have limited {n : Nat} (same : limit = some (n : Int)) (sql : String)
      (written : (b.query.limitedTo none).inlined = .ok sql) :
      Stage.came (x.run setting stage) = .ok (.list ((rows sql).take n)) := by
    obtain ⟨text, limited⟩ := (b.query.inlined_limitedTo none limit).2 sql written
    rw [fetched.came (textAll.trans limited), takeAll, counted n text sql (same ▸ limited) written]
  refine ⟨fun failure written => ⟨?_, ?_⟩, whole, fun positive sql written => ?_, fun none sql written => ?_⟩
  · exact Execution.came_refused (textAll.trans ((b.query.inlined_limitedTo none limit).1 failure written))
  · exact Execution.came_refused (textOne.trans ((b.query.inlined_limitedTo none _).1 failure written))
  · rw [whole sql written]
    suffices h : ∃ found, Stage.came (x.run setting stage) = .ok (.list found) ∧
        (rows sql).headD .null = found.headD .null by
      obtain ⟨found, given, head⟩ := h
      refine ⟨found, given, congrArg Except.ok head, fun present => ?_⟩
      rw [head, Except.ok.injEq, headD_eq_null_iff present]
    cases limit with
    | none => exact ⟨_, (fetched.came (textAll.trans written)).trans (by rw [takeAll]), rfl⟩
    | some n =>
      obtain ⟨k, rfl⟩ := Int.eq_succ_of_zero_lt (positive n integral)
      refine ⟨_, limited rfl sql written, ?_⟩
      cases rows sql <;> rfl
  · obtain ⟨n, same, zero⟩ := Option.map_eq_some_iff.1 (integral.symm.trans none)
    cases zero
    exact limited (n := 0) same sql written

/-! ## An executor with one row -/

def lines (sql : String) : List (List Char) :=
  sql.toList.splitOnP (· == '\n')

theorem lines_append (front rest : String) : lines (front ++ ("\n" ++ rest)) = lines front ++ lines rest := by
  rw [lines, String.toList_append, String.toList_append]
  exact List.splitOnP_append_cons _ _ rfl

theorem lines_limit (n : Nat) :
    lines ("LIMIT " ++ Number.natText n) = [("LIMIT " ++ Number.natText n).toList] := by
  have bare : "LIMIT ".toList.all (fun c => !(c == '\n')) = true := rfl
  refine List.splitOnP_eq_singleton fun c hc => ?_
  rw [String.toList_append, List.mem_append, Number.natText] at hc
  rcases hc with word | digit
  · simpa using List.all_eq_true.1 bare c word
  · rw [String.toList_ofList] at digit
    have read := (Constant.digits_read n).2 c digit
    rw [beq_eq_false_iff_ne]
    rintro rfl
    cases read

def row : Value :=
  .mapping [(.text "id", .int 1)]

/-- One row for any text, but none where a line limits the rows to none. -/
def oneRow (sql : String) : List Value :=
  if "LIMIT 0".toList ∈ lines sql then [] else [row]

theorem natText_ne_zero (n : Nat) : Number.natText (n + 1) ≠ "0" := by
  intro same
  have read := (Constant.digits_read (n + 1)).1
  have digits : Number.digits (n + 1) = ['0'] := by
    rw [← String.toList_ofList (l := Number.digits (n + 1))]
    exact congrArg String.toList same
  rw [digits] at read
  cases read

theorem length_oneRow (sql : String) : (oneRow sql).length ≤ 1 := by
  rw [oneRow]
  split <;> simp

theorem mem_lines_limited {front behind : String} {l : List Char} (n : Nat)
    (line : behind = "" ∨ ∃ rest, behind = "\n" ++ rest) :
    l ∈ lines (front ++ ("\n" ++ ("LIMIT " ++ Number.natText n)) ++ behind) ↔
      l = ("LIMIT " ++ Number.natText n).toList ∨ l ∈ lines (front ++ behind) := by
  rcases line with rfl | ⟨rest, rfl⟩
  · rw [String.append_empty, String.append_empty, lines_append, lines_limit, List.mem_append,
      List.mem_singleton, or_comm]
  · rw [lines_append, lines_append, lines_append, lines_limit, List.mem_append, List.mem_append,
      List.mem_append, List.mem_singleton]
    tauto

theorem oneRow_counted (q : Query) : q.IsCounted oneRow := by
  intro n sql whole limited all
  obtain ⟨front, back, line, text⟩ := q.limit_around
  rw [text] at limited all
  cases front with
  | error failure => cases all
  | ok before =>
    cases back with
    | error failure => cases all
    | ok behind =>
      obtain rfl : before ++ ("\n" ++ ("LIMIT " ++ Number.natText n)) ++ behind = sql := Except.ok.inj limited
      obtain rfl : before ++ "" ++ behind = whole := Except.ok.inj all
      rw [String.append_empty]
      have member : "LIMIT 0".toList ∈ lines (before ++ ("\n" ++ ("LIMIT " ++ Number.natText n)) ++ behind) ↔
          "LIMIT 0".toList = ("LIMIT " ++ Number.natText n).toList ∨
            "LIMIT 0".toList ∈ lines (before ++ behind) :=
        mem_lines_limited n (line behind rfl)
      cases n with
      | zero => rw [List.take_zero, oneRow, if_pos (member.2 (.inl rfl))]
      | succ n =>
        have other : "LIMIT 0".toList ≠ ("LIMIT " ++ Number.natText (n + 1)).toList := by
          have zero : "LIMIT 0".toList = "LIMIT ".toList ++ "0".toList := by decide
          rw [zero, String.toList_append]
          exact fun same => natText_ne_zero n (String.toList_inj.1 (List.append_cancel_left same)).symm
        rw [List.take_of_length_le ((length_oneRow _).trans (Nat.le_add_left 1 n))]
        exact if_congr (member.trans (or_iff_right other)) rfl rfl

def limitedTable (limit : Int) : Builder :=
  ⟨.null, (Query.ofTable "t").limitedTo (some limit)⟩

theorem limitedTable_text (limit : Int) (n : Nat) :
    ((limitedTable limit).query.limitedTo (some n)).inlined =
      .ok ("SELECT *\nFROM t\nLIMIT " ++ Number.natText n) := by
  have pieces : ((limitedTable limit).query.limitedTo (some n)).inlined =
      .ok ("SELECT " ++ ("*" ++ ("\nFROM " ++ ("t" ++ ("\n" ++
        ("LIMIT " ++ (Number.natText n ++ ""))))))) := rfl
  rw [pieces, String.append_empty]
  simp only [← String.append_assoc]
  rfl

theorem limitedTable_settled (limit : Int) : (limitedTable limit).query.IsSettled := by
  have one : (Value.int limit).IsSettled := by
    rw [Value.int, Value.IsSettled]
    trivial
  exact Edit.settles_limit one _ (Query.settled_ofTable "t")

def rowReply : Reply :=
  .rows (.list [.mapping [(.scalar (.text "id"), .scalar (.int 1))]])

def tableStage (limit : Int) (script : List Reply) : Stage :=
  { store := { contents := [.builder (limitedTable limit), .executor { script }] } }

def fetching (s : Store) (script : List Reply) : Execution :=
  { store := s, number := 0, word := "SELECT", executor := 1, replies := { script } }

def leading (limit : Int) (s : Store) (script : List Reply) : Execution :=
  { fetching s script with limited? := some (limitedTable limit) }

theorem two_agree :
    let setting := Scope.settingWithin {} 0
    let stage := tableStage 2 [rowReply]
    FirstAgrees oneRow (limitedTable 2).query (Stage.came (fetch 1 (builderValue 0) setting stage))
        (Stage.came (first 1 (builderValue 0) setting stage)) ∧
      Stage.came (fetch 1 (builderValue 0) setting stage) = .ok (.list [row]) := by
  intro setting stage
  have settled := limitedTable_settled 2
  have two : (limitedTable 2).query.limit = (some (2 : Int)).map .int := rfl
  have script : Executor.HasRows { script := [rowReply] } := List.forall_mem_singleton.2 (.rows _)
  have hx : Execution.ofFetch stage.store 1 (builderValue 0) = some (fetching stage.store [rowReply]) := rfl
  have hy : Execution.ofFirst stage.store 1 (builderValue 0) = some (leading 2 stage.store [rowReply]) := rfl
  have text := (Execution.written_fetched hx rfl settled).2.trans (limitedTable_text 2 2)
  have one := (Execution.written_first hy rfl settled).2.trans (limitedTable_text 2 1)
  have fetched : (fetching stage.store [rowReply]).IsAnswered oneRow setting stage :=
    Execution.isAnswered_of_text script text fun _ => rfl
  have first : (leading 2 stage.store [rowReply]).IsAnswered oneRow setting stage :=
    Execution.isAnswered_of_text script one fun _ => rfl
  exact ⟨first_agrees_with_fetch rfl rfl settled two (oneRow_counted _) hx fetched hy first,
    (congrArg Stage.came (run_fetch hx script)).trans (fetched.came text)⟩

/-- With the limit 0 no row is fetched, but there is a first row. -/
theorem first_of_none_fetched :
    let setting := Scope.settingWithin {} 0
    let stage := tableStage 0 [.rows (.list []), rowReply]
    let later := tableStage 0 [rowReply]
    (∀ q : Query, q.IsCounted oneRow) ∧
      (fetching stage.store [.rows (.list []), rowReply]).IsAnswered oneRow setting stage ∧
      Stage.came (fetch 1 (builderValue 0) setting stage) = .ok (.list []) ∧
      (leading 0 later.store [rowReply]).IsAnswered oneRow setting later ∧
      Stage.came (first 1 (builderValue 0) setting later) = .ok row := by
  intro setting stage later
  have settled := limitedTable_settled 0
  have last : Executor.HasRows { script := [rowReply] } := List.forall_mem_singleton.2 (.rows _)
  have script : Executor.HasRows { script := [.rows (.list []), rowReply] } :=
    List.forall_mem_cons.2 ⟨.rows _, last⟩
  have hx : Execution.ofFetch stage.store 1 (builderValue 0) =
      some (fetching stage.store [.rows (.list []), rowReply]) := rfl
  have hy : Execution.ofFirst later.store 1 (builderValue 0) = some (leading 0 later.store [rowReply]) := rfl
  have text := (Execution.written_fetched hx rfl settled).2.trans (limitedTable_text 0 0)
  have one := (Execution.written_first hy rfl settled).2.trans (limitedTable_text 0 1)
  have fetched : (fetching stage.store [.rows (.list []), rowReply]).IsAnswered oneRow setting stage :=
    Execution.isAnswered_of_text script text fun _ => rfl
  have first : (leading 0 later.store [rowReply]).IsAnswered oneRow setting later :=
    Execution.isAnswered_of_text last one fun _ => rfl
  exact ⟨oneRow_counted, fetched, (congrArg Stage.came (run_fetch hx script)).trans (fetched.came text),
    first, (congrArg Stage.came (run_first hy last)).trans (first.came one)⟩

end Session

end SqlComposition
