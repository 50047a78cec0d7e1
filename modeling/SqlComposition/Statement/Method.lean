import SqlComposition.Evaluation

/-!
The calls of statements. Rows are for INSERT, assignments for UPDATE, and conditions for UPDATE and DELETE.
A call is a series of changes; when one of them fails the statement keeps those before it, which shows
where assignments are given as pairs.
-/

namespace SqlComposition.Statement

/-- A series of changes to a statement. Each is worked out when those before it are made. -/
abbrev Edit := List (Action (Statement → Statement))

/-- The changes of an edit to a statement, as far as they can be worked out. -/
def Edit.apply (number : Nat) (edit : Edit) : Action Unit :=
  edit.forM fun work => do
    let f ← work
    let s ← Action.known Store.statement? number
    Action.update (·.set number (.statement (f s)))

inductive Method where
  | values | set | returning
  | filter (f : Filter)
  deriving DecidableEq, Repr

def Method.ofName? (kind : StatementKind) (name : String) : Option Method :=
  match kind, name with
  | _, "returning" => some .returning
  | .insert, "values" => some .values
  | .insert, _ => none
  | .update, "set" => some .set
  | _, _ => (Filter.ofName? name).map .filter

def Method.edit (name : String) : Method → List Value → Edit
  | .values, [data] => [do return setRows (← Action.ofExcept (rowsOf data))]
  | .set, [data] => data.entriesOf.map fun entry => do return assign (← Action.ofExcept entry)
  | .returning, columns => [return addReturning columns]
  | .filter f, arguments => [do return addCondition (← f.condition (Filter.callName name) arguments)]
  | .values, arguments =>
    [throw (Parameters.mismatch ⟨["rows"], 0⟩ "InsertStatement.values" 1 arguments.length)]
  | .set, arguments =>
    [throw (Parameters.mismatch ⟨["data"], 0⟩ "UpdateStatement.set" 1 arguments.length)]

/-- What can be done with a statement as it stands. -/
inductive Use where
  | text | execution
  deriving DecidableEq, Repr

def Use.ofName? : String → Option Use
  | "build" => some text
  | "execute" => some execution
  | _ => none

/-- No use of a statement takes arguments. -/
def Use.mismatch (kind : StatementKind) (given : Nat) : Use → Failure
  | text => Parameters.none.mismatch (kind.typeName ++ ".build") 1 given
  | execution => Parameters.none.mismatch "Statement.execute" 1 given

/-- Why a name is no call: the word of a statement is text, and there is nothing else. -/
def nameFailure (kind : StatementKind) (name : String) : Failure :=
  if name = "kind" then .notCallable "str" else .noAttribute kind.typeName name

/-- The statement with a number as a value. -/
def valueOf (kind : StatementKind) (number : Nat) : Value :=
  .object ⟨number, .statement kind, .endless⟩

/-- The call of a statement by its name. A text that is merely read is not kept, and an execution that
nobody waits for does not start. -/
def call (kind : StatementKind) (number : Nat) (name : String) (arguments : List Value) : Action Unit :=
  match Method.ofName? kind name, Use.ofName? name with
  | some m, _ => (m.edit name arguments).apply number
  | none, none => throw (nameFailure kind name)
  | none, some u =>
    if !arguments.isEmpty then throw (u.mismatch kind arguments.length)
    else
      match u with
      | .text => Functor.discard (Action.write (valueOf kind number))
      | .execution => pure ()

/-- A name that is no call of the statement is found out before the arguments are evaluated. -/
def checkName (kind : StatementKind) (name : String) : Action Unit :=
  if (Method.ofName? kind name).isSome || (Use.ofName? name).isSome || name == "kind" then pure ()
  else throw (nameFailure kind name)

def runCall (kind : StatementKind) (number : Nat) : Call → Action Unit
  | .mk name arguments => do
    checkName kind name
    let arguments ← Term.evalAll arguments
    call kind number name arguments

/-- The text of a new statement after some calls. -/
def run (kind : StatementKind) (table : Value) (calls : List Call) : Action String := do
  let executor ← Action.add (.executor {})
  let number ← Action.add (.statement { kind, executor, table })
  calls.forM (runCall kind number)
  Action.write (valueOf kind number)

end SqlComposition.Statement
