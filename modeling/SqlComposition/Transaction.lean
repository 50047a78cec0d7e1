import SqlComposition.Evaluation

/-!
Running single statements in transactions of their own. A transaction is begun, the statement is sent and
its rows are copied to mappings, all in a block whose end the transaction is told about: it is committed
after the last row, and rolled back if anything failed on the way. The database is reached through an engine
that is given from outside; one that answers from a script records what is asked of it.
-/

namespace SqlComposition.Transaction

/-- What a statement comes to: rows, or the text of how many it affected. -/
inductive Answer where
  | rows (rows : Value)
  | affected (count : String)

/-- A database engine with the log that is kept beside it. At the end of a block a transaction is told what
failed in it, if anything did; it says whether the failure ends there. -/
structure Engine (σ : Type) where
  begin : EStateM Failure σ Unit
  send : String → EStateM Failure σ Answer
  finish : Option Failure → EStateM Failure σ Bool
  debug : String → σ → σ

/-- What work came to, with the state that it leaves. -/
def leaving {σ α : Type} : Except Failure α → σ → EStateM.Result Failure σ α
  | .ok a, s => .ok a s
  | .error failure, s => .error failure s

/-- The rows as mappings. -/
def copyRows (rows : Value) : Except Failure Value := do
  let items ← rows.items
  return .list (← items.mapM Value.toMapping)

def affectedLine (count : String) : String :=
  "DEBUG duckql.adapters.sqlalchemy: Statement affected " ++ count ++ " row(s)"

namespace Engine

variable {σ : Type} (e : Engine σ)

/-- A block in a transaction of its own. Nothing comes of it if its failure ends there. -/
def within (block : EStateM Failure σ Value) : EStateM Failure σ Value := do
  e.begin
  match ← observing block with
  | .ok v =>
    let _ ← e.finish none
    return v
  | .error failure =>
    if ← e.finish (some failure) then return .scalar .null else throw failure

/-- The rows that a statement gives; one without rows is logged with the count of those it affected. -/
def fetch (sql : String) : EStateM Failure σ Value := do
  match ← e.send sql with
  | .rows rows => ofExcept (copyRows rows)
  | .affected count =>
    modify (e.debug (affectedLine count))
    return .list []

def execute (sql : String) : EStateM Failure σ Value :=
  e.within (e.fetch sql)

def call (sql : String) (s : σ) : Except Failure Value × σ :=
  match e.execute sql s with
  | .ok v s => (.ok v, s)
  | .error failure s => (.error failure, s)

/-- Statements one after another, also after one that failed. -/
def callAll : List String → σ → List (Except Failure Value) × σ
  | [], s => ([], s)
  | sql :: rest, s =>
    let (result, s) := e.call sql s
    let (results, s) := callAll rest s
    (result :: results, s)

end Engine

/-- An entry of a script. Rows are worked out when the statement is sent. -/
inductive Reply where
  | rows (t : Term)
  | affected (count : Term)
  | raised (message : String)

def Reply.answer : Reply → Action Answer
  | .rows t => do return .rows (← Action.look (← t.eval))
  | .affected count => do return .affected (← Action.write (← count.eval))
  | .raised message => throw (.raised message)

/-- What an engine that follows a script has left to say, and what it has recorded. -/
structure Scripted where
  script : List Reply
  events : List String := []
  log : List String := []

namespace Scripted

/-- Where the script has ended, statements affect an unknown number of rows. -/
def next (s : Scripted) : Reply :=
  s.script.headD (.affected (.scalar (.int (-1))))

def record (event : String) (s : Scripted) : Scripted :=
  { s with events := s.events ++ [event] }

def engine (scope : Scope) : Engine Scripted where
  begin := modify (record "begin")
  send sql s :=
    let (answer, stage) := scope.run s.next.answer
    leaving answer { s.record sql with script := s.script.tail, log := s.log ++ stage.log }
  finish failure := do
    modify (record (if failure.isSome then "rollback" else "commit"))
    return false
  debug line s := { s with log := s.log ++ [line] }

end Scripted

/-- Counts the SELECTs without a FROM clause that are met while an object is written. -/
def countSourceless (o : Object) : StateM Nat Object := do
  modify (· + (Value.object o).sourceless)
  return o

/-- The lines that are logged while rows are shown: every object in them is written, however deep it
lies. -/
def showingLines (rows : Value) : List String :=
  Emission.lines ((rows.traverse countSourceless).run 0).2

@[simp] theorem showingLines_scalar (s : Scalar) : showingLines (.scalar s) = [] := rfl

/-- What came of a statement, with what was recorded from its transaction on until its rows are shown. -/
structure Run where
  result : Except Failure Value
  events : List String
  log : List String

def runFrom (scope : Scope) : List String → Scripted → List Run
  | [], _ => []
  | sql :: rest, s =>
    let (result, later) := (Scripted.engine scope).call sql s
    { result := result
      events := later.events.drop s.events.length
      log := later.log.drop s.log.length ++ (result.toOption.map showingLines).getD [] } ::
        runFrom scope rest later

/-- Statements one after another, each with what the database makes of it. -/
def runAll (scope : Scope) (statements : List (String × Reply)) : List Run :=
  runFrom scope (statements.map Prod.fst) { script := statements.map Prod.snd }

end SqlComposition.Transaction
