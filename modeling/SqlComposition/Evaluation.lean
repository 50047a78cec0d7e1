import SqlComposition.Builder.Reading

/-!
What terms come to. A builder is made when its term is evaluated, and its calls are made on it one by one;
the arguments of a call are evaluated just before it. The calls of a function are made on a fresh builder
whenever the function is called.
-/

namespace SqlComposition

namespace Action

/-- The call of a builder by its name. What is merely read is not kept. -/
def callBuilder (number : Nat) (name : String) (arguments : List Value) : Action Unit :=
  match Method.ofName? name with
  | some m => Edit.apply number (m.edit name arguments)
  | none => Functor.discard (Reading.call number name arguments)

/-- A name that is no call is found out before the arguments are evaluated. -/
def checkName (name : String) : Action Unit :=
  if (Method.ofName? name).isSome || Reading.isKnown name then pure ()
  else throw (.noAttribute "QueryBuilder" name)

end Action

mutual

def Term.eval : Term → Action Value
  | .scalar s => do if s.isNan then return .scalar (s.withMark (← Action.mark)) else return .scalar s
  | .unreadable failure => throw failure
  | .list items => Value.list <$> Term.evalAll items
  | .tuple items => Value.tuple <$> Term.evalAll items
  | .mapping entries => Value.mapping <$> Term.evalEntries [] entries
  | .fragment sql bindings => do
    let sql ← sql.eval
    let bindings ← Term.evalOption bindings
    return .fragment (← Action.fragment sql bindings)
  | .builder dialect calls => do
    let dialect ← Term.evalOption dialect
    let number ← Action.newBuilder (← Action.chooseDialect (dialect.getD .null)) .empty
    Call.runAll number calls
    return Action.builderValue number
  | .query calls => do
    let number ← Action.newBuilder (← Action.chooseDialect .null) .empty
    Call.runAll number calls
    return .query (← Action.snapshot number)
  | .function calls returned => Action.make .function (.function ⟨calls, returned⟩)
  | .dialect name template => Action.makeDialect ⟨name, template⟩
  | .variable name => do Action.ofExcept ((← read).resolve name)

def Term.evalOption : Option Term → Action (Option Value)
  | none => pure none
  | some t => some <$> t.eval

def Term.evalAll : List Term → Action (List Value)
  | [] => pure []
  | t :: rest => do
    let v ← t.eval
    return v :: (← Term.evalAll rest)

def Term.evalEntries (entries : List (Value × Value)) :
    List (Term × Term) → Action (List (Value × Value))
  | [] => pure entries
  | (key, content) :: rest => do
    let key ← key.eval
    let content ← content.eval
    let more ← Action.ofExcept (Value.insertEntry entries key content)
    Term.evalEntries more rest

def Call.run (number : Nat) : Call → Action Unit
  | .mk name arguments => do
    Action.checkName name
    let arguments ← Term.evalAll arguments
    Action.callBuilder number name arguments

def Call.runAll (number : Nat) : List Call → Action Unit
  | [] => pure ()
  | c :: rest => do
    c.run number
    Call.runAll number rest

end

/-- The builder that comes of a call: the one it gives back, or else the fresh one. -/
def Function.run (f : Function) : Action Nat := do
  let fresh ← Action.newBuilder (← Action.chooseDialect .null) .empty
  Call.runAll fresh f.calls
  match ← Term.evalOption f.returned with
  | some (.object ⟨number, .builder, _⟩) => return number
  | _ => return fresh

/-- What names mean while terms are evaluated. -/
structure Scope where
  registry : Registry := .standard
  resolve : String → Except Failure Value := fun name => .error (.noEntry (Text.shown name))

namespace Scope

/-- Functions may call functions, at most `depth` deep. -/
def settingWithin (scope : Scope) : Nat → Setting
  | 0 => { registry := scope.registry, resolve := scope.resolve }
  | depth + 1 =>
    { registry := scope.registry
      resolve := scope.resolve
      call := fun f => f.run (scope.settingWithin depth) }

/-- Deeper calls than these have no end. -/
def greatestDepth : Nat := 1000

def setting (scope : Scope) : Setting :=
  scope.settingWithin greatestDepth

/-- What an action comes to on its own, and what it leaves. -/
def run {α : Type} (scope : Scope) (work : Action α) : Except Failure α × Stage :=
  match work scope.setting {} with
  | .ok a stage => (.ok a, stage)
  | .error failure stage => (.error failure, stage)

def outcome {α : Type} (scope : Scope) (work : Action α) : Except Failure α :=
  (scope.run work).1

end Scope

/-- A builder for a dialect with calls applied to it, as it is written then. -/
def Call.builder (dialect : Option Term) (calls : List Call) : Action Builder := do
  match ← (Term.builder dialect calls).eval with
  | .object ⟨number, _, _⟩ => Action.shownBuilder number
  | other => throw (.notCallable other.typeName)

/-- What a term comes to, with the objects in it as they are written then. -/
def Term.value (t : Term) : Action Value := do
  Action.look (← t.eval)

end SqlComposition
