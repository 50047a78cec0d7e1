import SqlComposition.Parameters
import SqlComposition.Store

/-!
Actions work on the objects of a store. They make and change objects, write lines to a log and hand SQL to
executors; all of this stays when they fail. What a function comes to is settled by calling it, and how
functions are called is given to an action from outside, together with what names stand for.
-/

namespace SqlComposition

/-- What actions leave behind: the objects, the lines logged and the SQL that was run. -/
structure Stage where
  store : Store := {}
  log : List String := []
  executed : List String := []

/-- What actions go by. A call of a function gives the builder that came of it, by its number. -/
structure Setting where
  registry : Registry := .standard
  resolve : String → Except Failure Value := fun name => .error (.noEntry (Text.shown name))
  call : Function → EStateM Failure Stage Nat := fun _ => throw .endless

abbrev Action (α : Type) := ReaderT Setting (EStateM Failure Stage) α

namespace Action

def ofExcept {α : Type} : Except Failure α → Action α
  | .ok a => pure a
  | .error failure => throw failure

/-- Logs a line for every SELECT without a FROM clause that was written. -/
def logSourceless (count : Nat) : Action Unit :=
  modify fun stage => { stage with log := stage.log ++ Emission.lines count }

def writing {α : Type} (work : Writing α) : Action α := do
  let (result, count) := work.outcome
  logSourceless count
  ofExcept result

def store : Action Store :=
  return (← get).store

def update (f : Store → Store) : Action Unit :=
  modify fun stage => { stage with store := f stage.store }

/-- Keeps new contents and gives back their number. -/
def add (c : Content) : Action Nat := do
  let s ← store
  update (·.add c)
  return s.contents.length

def make (kind : ObjectKind) (c : Content) : Action Value :=
  return .object ⟨← add c, kind, .endless⟩

def makeDialect (d : Dialect) : Action Value :=
  make (.dialect d) (.dialect d)

def makeStatement (s : Statement) : Action Value :=
  make (.statement s.kind) (.statement s)

/-- A mark that nothing else has. -/
def mark : Action Nat := do
  let s ← store
  update fun s => { s with marks := s.marks + 1 }
  return s.marks

/-- What is known by a number; every number in use is known. -/
def known {α : Type} (find : Store → Nat → Option α) (number : Nat) : Action α := do
  match find (← store) number with
  | some a => return a
  | none => throw (.noEntry (Number.natText number))

/-- A value with the objects in it as they are written now. -/
def look (v : Value) : Action Value :=
  return (← store).look v

/-- A builder with the objects in its query as they are written now. -/
def shownBuilder (number : Nat) : Action Builder :=
  known (fun s number => match s.shown number with | some (.builder b) => some b | _ => none) number

/-- The plain text of a value. -/
def write (v : Value) : Action String := do
  writing (← look v).write

/-- A copy of the query of a builder as it stands. -/
def snapshot (number : Nat) : Action Query := do
  let b ← known Store.builder? number
  let (q, s) := (← store).copyQuery b.query
  update fun _ => s
  return q

/-- A copy of a builder as it stands, by its number. -/
def clone (number : Nat) : Action Nat := do
  let b ← known Store.builder? number
  let s ← store
  update (·.copyBuilder number b)
  return s.contents.length

/-- The query that a value stands for: a copy of that of a builder, or of what a function makes. -/
def query (v : Value) : Action Query := do
  match v with
  | .object ⟨number, .builder, _⟩ => snapshot number
  | .object ⟨number, .function, _⟩ => do
    let f ← known Store.function? number
    snapshot (← (← read).call f)
  | other => throw (.notCallable other.typeName)

/-- What a value becomes as an operand: a builder stands for a copy of its query. -/
def operand (v : Value) : Action Value :=
  match v with
  | .object ⟨number, .builder, _⟩ => Value.query <$> snapshot number
  | other => pure other

/-- The dialect for a builder: a name is looked up, and nothing stands for the default name. -/
def chooseDialect (v : Value) : Action Value := do
  match v with
  | .scalar .null => makeDialect (← ofExcept ((← read).registry.create Registry.defaultName))
  | .scalar (.text name) => makeDialect (← ofExcept ((← read).registry.create name))
  | other => return other

/-- A new builder for a dialect, by its number. -/
def newBuilder (dialect : Value) (query : Query) : Action Nat :=
  add (.builder ⟨dialect, query⟩)

/-- The builder with a number, as a value. -/
def builderValue (number : Nat) : Value :=
  .object ⟨number, .builder, .endless⟩

/-- The dialect registered under a name; what is no text is no name. -/
def registered (name : Value) : Action Dialect := do
  let registry := (← read).registry
  match name with
  | .scalar (.text name) => ofExcept (registry.create name)
  | other =>
    match other.keyFailure? with
    | some failure => throw failure
    | none => throw (.unknownDialect (← write other) registry.names)

end Action

end SqlComposition
