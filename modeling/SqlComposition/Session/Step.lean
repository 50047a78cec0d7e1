import SqlComposition.Session.Call

/-!
Steps of a session and what each answers: the result, the text of the receiver after a call, the SQL that
was run and the lines that were logged. A step that fails does not end the session.
-/

namespace SqlComposition.Session

/-- What a session can make anew. -/
inductive Construction where
  | builder | select | source | fragment | factory
  deriving DecidableEq, Repr

def Construction.ofName? : String → Option Construction
  | "query" | "QueryBuilder" => some builder
  | "select" => some select
  | "from_" => some source
  | "raw" => some fragment
  | "create_query_builder" | "StatementFactory" => some factory
  | _ => none

/-- Why something cannot be made of so many arguments; the executor of a factory goes before them. -/
def Construction.mismatch (name : String) (given : Nat) : Construction → Failure
  | .builder =>
    if name = "query" then Parameters.mismatch ⟨[], 1⟩ name 0 given
    else Parameters.mismatch ⟨[], 1⟩ (name ++ ".__init__") 1 given
  | .factory =>
    if name = "StatementFactory" then
      Parameters.mismatch ⟨["executor"], 1⟩ (name ++ ".__init__") 1 (given + 1)
    else Parameters.mismatch ⟨["executor"], 1⟩ name 0 (given + 1)
  | .fragment => Parameters.mismatch ⟨["sql"], 1⟩ name 0 given
  | .source => Parameters.mismatch ⟨["table"], 1⟩ name 0 given
  | .select => Parameters.mismatch .none name 0 given

/-- What a step does. -/
inductive Task where
  | make (construction : String) (arguments : List Term) (executor : Executor)
  | evaluate (t : Term)
  | call (receiver method : String) (arguments : List Term)
  | await (receiver : String)
  | text (receiver : String)
  | property (receiver name : String)

/-- A task whose result may get a name. -/
structure Step where
  task : Task
  name : Option String := none

structure StepAnswer where
  result : Except Failure Outcome
  after : Option (Except Failure String) := none
  executed : List String := []
  log : List String := []

/-- The state of a session: what names stand for and the objects there are. -/
structure World where
  registry : Registry := .standard
  store : Store := {}
  names : List (String × Value) := []

namespace World

def resolve (w : World) (name : String) : Except Failure Value :=
  match w.names.lookup name with
  | some v => .ok v
  | none => .error (.noEntry (Text.shown name))

def scope (w : World) : Scope :=
  ⟨w.registry, w.resolve⟩

/-- A value as data, with everything in it as it stands now. -/
def describe (w : World) (v : Value) : Datum :=
  (w.store.look v).datum

/-- The text of a builder or statement. -/
def text? (w : World) : Value → Option (Except Failure String)
  | .object o => if o.kind.isWritten then some (w.store.rendition o.number).text else none
  | _ => none

end World

def lookup (name : String) : Action Value := do
  Action.ofExcept ((← read).resolve name)

def makeFactory (executor : Executor) (dialect : Value) : Action Value := do
  let dialect ← Action.chooseDialect dialect
  let executor ← Action.add (.executor executor)
  Action.make .factory (.factory ⟨executor, dialect⟩)

def makeBuilder (dialect : Value) (edit : Edit) : Action Value := do
  made (← Action.chooseDialect dialect) edit

def construct (name : String) (executor : Executor) : Construction → List Value → Action Value
  | .builder, [] => makeBuilder .null []
  | .builder, [dialect] => makeBuilder dialect []
  | .select, columns => makeBuilder .null (Edit.select columns)
  | .source, [table] => makeBuilder .null (Edit.table table none)
  | .source, [table, label] => makeBuilder .null (Edit.table table (some label))
  | .fragment, [sql] => .fragment <$> Action.fragment sql none
  | .fragment, [sql, bindings] => .fragment <$> Action.fragment sql (some bindings)
  | .factory, [] => makeFactory executor .null
  | .factory, [dialect] => makeFactory executor dialect
  | c, arguments => throw (c.mismatch name arguments.length)

def awaited : Value → Action Value
  | .object ⟨number, .statement kind, _⟩ => executeStatement kind number
  | other => throw (.notAwaitable other.typeName)

def propertyOf (v : Value) (name : String) : Action Value := do
  match v, name with
  | .object ⟨number, .builder, _⟩, "dialect" => return (← Action.known Store.builder? number).dialect
  | .bound b, "dialect" => return .text b.dialect
  | .object ⟨_, .factory, _⟩, "executor" => return .scalar (.bool true)
  | other, name => throw (.noAttribute other.typeName name)

/-- A name is looked up before the arguments of a call are worked out. -/
def Task.run : Task → Action Outcome
  | .make construction terms executor => do
    let some c := Construction.ofName? construction | throw (.noAttribute "module" construction)
    return .value (← construct construction executor c (← Term.evalAll terms))
  | .evaluate t => .value <$> t.eval
  | .call receiver method terms => do
    let receiver ← lookup receiver
    let arguments ← Term.evalAll terms
    return .ofValue receiver (← callMethod receiver method arguments)
  | .await receiver => do
    let receiver ← lookup receiver
    return .ofValue receiver (← awaited receiver)
  | .text receiver => do
    let receiver ← lookup receiver
    return .ofValue receiver (.text (← Action.write receiver))
  | .property receiver name => do return .value (← propertyOf (← lookup receiver) name)

/-- The name of what a task works on. -/
def Task.receiver? : Task → Option String
  | make _ _ _ | evaluate _ => none
  | call receiver _ _ | await receiver | text receiver | property receiver _ => some receiver

/-- Calls may change what they work on. -/
def Task.isCall : Task → Bool
  | call _ _ _ => true
  | _ => false

/-- The value of an outcome; the receiver itself may get a second name. -/
def Outcome.value? (receiver : Option Value) : Outcome → Option Value
  | self => receiver
  | value v => some v

def bindResult (name : Option String) (v : Option Value) (w : World) : World :=
  match name, v with
  | some name, some v => { w with names := (name, v) :: w.names }
  | _, _ => w

/-- One step: the state it leaves and its answer. The result gets its name if the step succeeds. -/
def perform (w : World) (s : Step) : World × StepAnswer :=
  let receiver := s.task.receiver?.bind fun name => (w.resolve name).toOption
  let finish (result : Except Failure Outcome) (stage : Stage) (w : World) : World × StepAnswer :=
    (w,
      { result
        after := if s.task.isCall then receiver.bind w.text? else none
        executed := stage.executed
        log := stage.log })
  match s.task.run w.scope.setting { store := w.store } with
  | .ok outcome stage =>
    let w := bindResult s.name (outcome.value? receiver) { w with store := stage.store }
    finish (.ok outcome) stage w
  | .error failure stage => finish (.error failure) stage { w with store := stage.store }

/-- A whole session, each answer with the state it was given in. -/
def performAll (w : World) : List Step → List (World × StepAnswer)
  | [] => []
  | s :: rest =>
    let (next, answer) := perform w s
    (next, answer) :: performAll next rest

end SqlComposition.Session
