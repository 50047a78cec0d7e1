import SqlComposition.Failure

/-!
Dialects, which differ in how a placeholder is written, and the registry that finds a dialect by name.
A placeholder is the template of the dialect with each `#` replaced by the position of the value.
The registry is kept in the order of the names.
-/

namespace SqlComposition

structure Dialect where
  name : String
  template : String
  deriving DecidableEq, Repr

namespace Dialect

def question : Dialect := ⟨"duckdb", "?"⟩
def numbered : Dialect := ⟨"postgres", "$#"⟩

/-- The standard dialects are types of their own. -/
def typeName (d : Dialect) : String :=
  if d = question then "DuckDBDialect" else if d = numbered then "PostgresDialect" else "CustomDialect"

def write (d : Dialect) (position : String) : String :=
  String.ofList (d.template.toList.flatMap fun c => if c = '#' then position.toList else [c])

def placeholder (d : Dialect) (position : Nat) : String :=
  d.write (Number.natText position)

theorem placeholder_question (position : Nat) : question.placeholder position = "?" := by
  simp [placeholder, write, question]

end Dialect

/-- Dialects by the name they are registered under. -/
abbrev Registry := List (String × Dialect)

namespace Registry

def standard : Registry := [("duckdb", .question), ("postgres", .numbered)]

/-- A later registration under the same name takes the place of an earlier one. -/
def register (name : String) (d : Dialect) : Registry → Registry
  | [] => [(name, d)]
  | entry :: rest =>
    if name = entry.1 then (name, d) :: rest
    else if name < entry.1 then (name, d) :: entry :: rest
    else entry :: register name d rest

def names (registry : Registry) : List String :=
  registry.map Prod.fst

def create (registry : Registry) (name : String) : Except Failure Dialect :=
  match registry.lookup name with
  | some d => .ok d
  | none => .error (.unknownDialect name registry.names)

/-- The name that is used when none is given. -/
def defaultName : String := "duckdb"

theorem lookup_register (registry : Registry) (name : String) (d : Dialect) :
    (registry.register name d).lookup name = some d := by
  induction registry with
  | nil => simp [register]
  | cons entry rest ih =>
    rw [register]
    split
    · simp
    · split
      · simp
      · rename_i different _
        rw [List.lookup_cons, beq_eq_false_iff_ne.2 different]
        exact ih

end Registry

end SqlComposition
