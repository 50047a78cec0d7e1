import SqlComposition.Evaluation
import SqlComposition.Proofs.Settled

/-!
What calls are meant to be given: scalars, trusted fragments and builders as operands, collections of
those where several are asked for, functions where a query is, and plain data as limits. A term is sound
if every call in it is meant for whatever its arguments may come to.
-/

namespace SqlComposition

namespace Value

/-- A scalar, a fragment that holds no object, or a builder. -/
def IsOperand : Value → Prop
  | scalar _ => True
  | fragment f => f.IsSettled
  | object o => o.kind = .builder
  | list _ | tuple _ | mapping _ | query _ | part _ | bound _ => False

/-- What an IN test is given: operands, one of them, or what makes a query. -/
def IsMembers : Value → Prop
  | list items | tuple items => ∀ item ∈ items, item.IsOperand
  | object o => o.kind = .builder ∨ o.kind = .function
  | scalar _ => True
  | fragment f => f.IsSettled
  | mapping _ | query _ | part _ | bound _ => False

/-- What the slots of a fragment are filled from. -/
def IsBindings : Value → Prop
  | list items | tuple items => ∀ item ∈ items, item.IsOperand
  | scalar _ => True
  | mapping _ | fragment _ | query _ | part _ | bound _ | object _ => False

/-- What is given as SQL text: anything but data that a fragment would be read from, and no fragment that
holds an object. -/
def IsTrusted : Value → Prop
  | fragment f => f.IsSettled
  | mapping _ => False
  | scalar _ | list _ | tuple _ | query _ | part _ | bound _ | object _ => True

theorem IsOperand.isMembers {v : Value} (h : v.IsOperand) : v.IsMembers := by
  cases v with
  | object o => exact .inl h
  | scalar _ | fragment _ => exact h
  | list _ | tuple _ | mapping _ | query _ | part _ | bound _ => exact h.elim

end Value

/-- What is asked of the right side of a comparison by what it is taken for. -/
def Filter.Routing.Admits : Routing → Value → Prop
  | member _, v => v.IsMembers
  | null _, _ => True
  | between _, v => (ends v).1.IsOperand ∧ (ends v).2.IsOperand
  | comparison, v => v.IsOperand

theorem Filter.Routing.admits_operand {v : Value} (h : v.IsOperand) : (r : Routing) → r.Admits v
  | member _ => h.isMembers
  | null _ => trivial
  | comparison => h
  | between _ => by
    cases v with
    | scalar _ | fragment _ | object _ => exact ⟨h, h⟩
    | list _ | tuple _ | mapping _ | query _ | part _ | bound _ => exact h.elim

namespace Test

/-- Where the operator is not known, an operand has to do for all of them. -/
def Admits : Test → List Value → Prop
  | compare, [_, value] => value.IsOperand
  | compare, [_, operator, value] =>
    value.IsOperand ∨
      ∃ s way, operator = .text s ∧ s ≠ "" ∧ Filter.route (Filter.normalize s) = way ∧ way.Admits value
  | member _, [_, values] => values.IsMembers
  | between _, [_, low, high] => low.IsOperand ∧ high.IsOperand
  | raw, [sql] => sql.IsTrusted
  | raw, [sql, bindings] => sql.IsTrusted ∧ bindings.IsBindings
  | _, _ => True

end Test

namespace Method

def Admits : Method → List Value → Prop
  | cte _, _ :: body :: _ => body.IsTrusted
  | select, columns => ∀ column ∈ columns, column.IsTrusted
  | selectRaw, [sql] | groupByRaw, [sql] | orderByRaw, [sql] => sql.IsTrusted
  | selectRaw, [sql, bindings] | groupByRaw, [sql, bindings] | orderByRaw, [sql, bindings] =>
    sql.IsTrusted ∧ bindings.IsBindings
  | join _, _ :: on :: _ => on.IsTrusted
  | filter f, arguments | having f, arguments => f.test.Admits arguments
  | orderBy, column :: _ => column.IsTrusted
  | limit, [rows] | offset, [rows] => rows.IsSettled
  | _, _ => True

end Method

/-- The call of a builder by its name is meant for the arguments. -/
def Call.Admits (name : String) (arguments : List Value) : Prop :=
  ∀ m, Method.ofName? name = some m → m.Admits arguments

section Terms

variable (resolve : String → Except Failure Value)

mutual

/-- What a term may come to when names stand for what they are resolved to. -/
def Term.Yields : Term → Value → Prop
  | .scalar s, v => v = .scalar s ∨ ∃ mark, v = .scalar (s.withMark mark)
  | .unreadable _, _ => False
  | .list items, v => ∃ values, v = .list values ∧ Term.AllYield items values
  | .tuple items, v => ∃ values, v = .tuple values ∧ Term.AllYield items values
  | .mapping _, v => ∃ entries, v = .mapping entries
  | .fragment _ _, v => ∃ f : Fragment, v = .fragment f ∧ f.IsSettled
  | .builder _ _, v => ∃ number, v = Action.builderValue number
  | .query _, v => ∃ q : Query, v = .query q ∧ q.IsSettled
  | .function _ _, v => ∃ number, v = .object ⟨number, .function, .endless⟩
  | .dialect name template, v => ∃ number, v = .object ⟨number, .dialect ⟨name, template⟩, .endless⟩
  | .variable name, v => resolve name = .ok v

def Term.AllYield : List Term → List Value → Prop
  | [], values => values = []
  | t :: rest, values => ∃ v others, values = v :: others ∧ t.Yields v ∧ Term.AllYield rest others

end

mutual

/-- Every call in the term is meant for its arguments. -/
def Term.IsSound : Term → Prop
  | .scalar _ | .unreadable _ | .dialect _ _ | .variable _ => True
  | .list items => Term.AllSound items
  | .tuple items => Term.AllSound items
  | .mapping entries => Term.EntriesSound entries
  | .fragment sql bindings =>
    sql.IsSound ∧ Term.OptionSound bindings ∧ (∀ v, sql.Yields resolve v → v.IsTrusted) ∧
      ∀ t, bindings = some t → ∀ v, t.Yields resolve v → v.IsBindings
  | .builder dialect calls => Term.OptionSound dialect ∧ Call.AllSound calls
  | .query calls => Call.AllSound calls
  | .function calls returned => Call.AllSound calls ∧ Term.OptionSound returned

def Term.OptionSound : Option Term → Prop
  | none => True
  | some t => t.IsSound

def Term.AllSound : List Term → Prop
  | [] => True
  | t :: rest => t.IsSound ∧ Term.AllSound rest

def Term.EntriesSound : List (Term × Term) → Prop
  | [] => True
  | (key, content) :: rest => key.IsSound ∧ content.IsSound ∧ Term.EntriesSound rest

def Call.IsSound : Call → Prop
  | .mk name arguments =>
    Term.AllSound arguments ∧
      ∀ values, Term.AllYield resolve arguments values → Call.Admits name values

def Call.AllSound : List Call → Prop
  | [] => True
  | c :: rest => c.IsSound ∧ Call.AllSound rest

end

/-- The calls that a function makes are sound. -/
def Function.IsSound (f : Function) : Prop :=
  Call.AllSound resolve f.calls ∧ Term.OptionSound resolve f.returned

end Terms

end SqlComposition
