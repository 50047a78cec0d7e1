import SqlComposition.Statement.Method

/-!
Running SQL on executors. What is run is written first; then a line is logged, the executor is handed the
text and its reply is worked out. The rows come back as they are.
-/

namespace SqlComposition.Session

/-- Takes the next reply of an executor and works it out. -/
def ask (executor : Nat) (sql : String) : Action Value := do
  let e ← Action.known Store.executor? executor
  let (reply, e) := e.reply
  modify fun stage =>
    { stage with
      store := stage.store.set executor (.executor e)
      executed := stage.executed ++ [sql] }
  match reply with
  | .rows t => t.eval
  | .raised message => throw (.raised message)

/-- Hands a statement to an executor and gives back its rows. If an executor that answers at once gives
back a statement, that one is run for the rows, at most `depth` of them one for another. -/
def executeWithin : Nat → Nat → String → String → Action Value
  | 0, _, _, _ => throw .endless
  | depth + 1, executor, word, sql => do
    modify fun stage =>
      { stage with log := stage.log ++ ["DEBUG duckql.statements: Executing " ++ word ++ " statement: " ++ sql] }
    let rows ← ask executor sql
    match rows with
    | .object ⟨number, .statement kind, _⟩ =>
      if (← Action.known Store.executor? executor).answersLater then return rows
      else
        let s ← Action.known Store.statement? number
        let sql ← Action.write rows
        executeWithin depth s.executor kind.word sql
    | _ => return rows

def execute (executor : Nat) (word sql : String) : Action Value :=
  executeWithin Scope.greatestDepth executor word sql

def executeStatement (kind : StatementKind) (number : Nat) : Action Value := do
  let s ← Action.known Store.statement? number
  let sql ← Action.write (Statement.valueOf kind number)
  execute s.executor kind.word sql

/-- The first of some rows; no rows, however they are written, have none. -/
def firstRow (rows : Value) : Except Failure Value :=
  if !rows.isTruthy then .ok .null
  else
    match rows with
    | .mapping entries =>
      match Value.lookupEntry (.int 0) entries with
      | some row => .ok row
      | none => .error (.noEntry "0")
    | .list (row :: _) => .ok row
    | .tuple (row :: _) => .ok row
    | .scalar (.text s) => .ok (.text (String.ofList (s.toList.take 1)))
    | .scalar (.bytes (b :: _)) => .ok (.int b.toNat)
    | other => .error (.notSubscriptable other.typeName)

/-- Runs the text of a builder, or of a statement. -/
def fetch (executor : Nat) (query : Value) : Action Value := do
  match query with
  | .object ⟨_, .builder, _⟩ | .object ⟨_, .statement _, _⟩ =>
    let sql ← Action.write query
    execute executor "SELECT" sql
  | other => throw (.noAttribute other.typeName "build")

/-- Runs a copy of a builder with the limit 1; the builder itself keeps the limit it has. -/
def first (executor : Nat) (query : Value) : Action Value := do
  match query with
  | .object ⟨number, .builder, _⟩ =>
    let copy ← Action.clone number
    Edit.apply copy (Edit.limit (.int 1))
    let sql ← Action.write (Action.builderValue copy)
    let rows ← execute executor "SELECT" sql
    Action.ofExcept (firstRow rows)
  | other => throw (.noAttribute other.typeName "clone")

end SqlComposition.Session
