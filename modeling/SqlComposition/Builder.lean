import SqlComposition.Query.Rendering
import SqlComposition.Query.Objects
import SqlComposition.Value.Inspection

/-!
Builders: queries under construction, each with the dialect it is for. Anything may be given as a
dialect; what is none is found out when the first value needs a placeholder, or else at the end when the
name of the dialect is needed.
-/

namespace SqlComposition

/-- What a builder writes its placeholders with. -/
inductive DialectChoice where
  | known (d : Dialect)
  | unusable (type : String)
  deriving DecidableEq, Repr

namespace DialectChoice

def ofValue : Value → DialectChoice
  | .object ⟨_, .dialect d, _⟩ => known d
  | other => unusable other.typeName

def placeholder : DialectChoice → Nat → Except Failure String
  | known d, position => .ok (d.placeholder position)
  | unusable type, _ => .error (.noAttribute type "param_placeholder")

def name : DialectChoice → Except Failure String
  | known d => .ok d.name
  | unusable type => .error (.noAttribute type "dialect_name")

/-- The bound form of a query. -/
def render (choice : DialectChoice) (q : Query) : Rendering BoundQuery := do
  let sql ← q.render (Rendering.bindValue choice.placeholder)
  let values := (← get).bindings
  return ⟨sql, values, ← Rendering.ofExcept choice.name⟩

def bind (choice : DialectChoice) (q : Query) : Except Failure BoundQuery :=
  (Rendering.outcome (choice.render q)).1

/-- How many SELECTs without a FROM clause are met while the bound form is written. -/
def sourcelessBound (choice : DialectChoice) (q : Query) : Nat :=
  (Rendering.outcome (choice.render q)).2.sourceless

end DialectChoice

/-- A query for a dialect, which is kept as it was given. -/
structure Builder where
  dialect : Value
  query : Query := .empty

namespace Builder

def bound (b : Builder) : Except Failure BoundQuery :=
  (DialectChoice.ofValue b.dialect).bind b.query

def sourcelessBound (b : Builder) : Nat :=
  (DialectChoice.ofValue b.dialect).sourcelessBound b.query

end Builder

end SqlComposition
