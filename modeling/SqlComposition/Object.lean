import SqlComposition.Dialect

/-!
Objects that are shared. The contents of an object are kept in a store under a number, and a value that
holds the object holds the number alone, so every holder sees each change to the object.
-/

namespace SqlComposition

/-- The kinds of data-modifying statements. -/
inductive StatementKind where
  | insert | update | delete
  deriving DecidableEq, Repr

namespace StatementKind

def typeName : StatementKind → String
  | insert => "InsertStatement"
  | update => "UpdateStatement"
  | delete => "DeleteStatement"

def word : StatementKind → String
  | insert => "INSERT"
  | update => "UPDATE"
  | delete => "DELETE"

end StatementKind

inductive ObjectKind where
  | builder
  | statement (kind : StatementKind)
  | factory
  | table
  | dialect (d : Dialect)
  | function
  deriving DecidableEq, Repr

namespace ObjectKind

def typeName : ObjectKind → String
  | builder => "QueryBuilder"
  | statement kind => kind.typeName
  | factory => "StatementFactory"
  | table => "TableStatements"
  | dialect d => d.typeName
  | function => "function"

/-- Builders and statements are written as SQL. -/
def isWritten : ObjectKind → Bool
  | builder | statement _ => true
  | _ => false

end ObjectKind

/-- What an object is written as, which may fail, and how many SELECTs without a FROM clause are met
while it is written. -/
structure Rendition where
  text : Except Failure String
  sourceless : Nat := 0

/-- Writing an object inside itself comes to no end. -/
def Rendition.endless : Rendition := ⟨.error .endless, 0⟩

/-- An object as a value holds it. The form is what it was written as when it was last looked at. -/
structure Object where
  number : Nat
  kind : ObjectKind
  form : Rendition := .endless

def Object.typeName (o : Object) : String :=
  o.kind.typeName

end SqlComposition
