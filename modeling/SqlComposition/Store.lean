import SqlComposition.Executor
import SqlComposition.Statement

/-!
The store of objects. It keeps the contents of each object under a number; contents hold other objects by
their numbers, and may hold each other in a circle. A copy of a query brings along copies of all the
objects that can be reached from it, each once, so that later changes to the originals do not reach it.
-/

namespace SqlComposition

/-- A factory of builders and statements; all it makes shares its executor and dialect. -/
structure Factory where
  executor : Nat
  dialect : Value

/-- A table of a factory, which is known by its number. -/
structure Table where
  factory : Nat
  name : Value

inductive Content where
  | builder (b : Builder)
  | statement (s : Statement)
  | factory (f : Factory)
  | table (t : Table)
  | executor (e : Executor)
  | dialect (d : Dialect)
  | function (f : Function)

namespace Content

def rendition : Content → Rendition
  | builder b => b.query.rendition
  | statement s => s.rendition
  | _ => .endless

end Content

/-- An object as it is written, given the contents of objects with everything in them as it is written. -/
def Object.shownBy (inside : Nat → Option Content) (o : Object) : Object :=
  if o.kind.isWritten then { o with form := ((inside o.number).map Content.rendition).getD .endless } else o

/-- The content of a cell as it is written: a builder stands for its query. -/
def Value.cellBy (inside : Nat → Option Content) : Value → Value
  | .object o =>
    match inside o.number with
    | some (.builder b) => .query b.query
    | _ => .object (o.shownBy inside)
  | other => other.mapObjects (·.shownBy inside)

namespace Content

/-- The contents with all objects in them as they are written. -/
def shownBy (inside : Nat → Option Content) : Content → Content
  | builder b => builder { b with query := b.query.mapObjects (·.shownBy inside) }
  | statement s => statement (s.mapData (·.shownBy inside) (·.cellBy inside))
  | other => other

section Renumbering

variable {m : Type → Type} [Monad m]

/-- The objects with other numbers. A function is the same object wherever it is held. -/
def renumberObject (f : Nat → m Nat) (o : Object) : m Object := do
  if o.kind = .function then return o else return { o with number := ← f o.number }

def renumberStatement (f : Nat → m Nat) (s : Statement) : m Statement := do
  let executor ← f s.executor
  let table ← s.table.traverse (renumberObject f)
  let rows ← Value.traverseAll (renumberObject f) s.rows
  let assignments ← Value.traverseEntries (renumberObject f) s.assignments
  let conditions ← Condition.traverseAll (renumberObject f) s.conditions
  let returning ← Value.traverseAll (renumberObject f) s.returning
  return ⟨s.kind, executor, table, rows, assignments, conditions, returning⟩

/-- The contents with other numbers for the objects in them. -/
def renumber (f : Nat → m Nat) : Content → m Content
  | builder b => do
    let dialect ← b.dialect.traverse (renumberObject f)
    return builder ⟨dialect, ← b.query.traverse (renumberObject f)⟩
  | statement s => statement <$> renumberStatement f s
  | factory x => do
    let executor ← f x.executor
    return factory ⟨executor, ← x.dialect.traverse (renumberObject f)⟩
  | table t => do
    let number ← f t.factory
    return table ⟨number, ← t.name.traverse (renumberObject f)⟩
  | other => pure other

end Renumbering

end Content

/-- Contents by their numbers. Marks tell apart what has no contents of its own. -/
structure Store where
  contents : List Content := []
  marks : Nat := 0

namespace Store

def content? (s : Store) (number : Nat) : Option Content :=
  s.contents[number]?

def builder? (s : Store) (number : Nat) : Option Builder :=
  match s.content? number with
  | some (.builder b) => some b
  | _ => none

def statement? (s : Store) (number : Nat) : Option Statement :=
  match s.content? number with
  | some (.statement x) => some x
  | _ => none

def factory? (s : Store) (number : Nat) : Option Factory :=
  match s.content? number with
  | some (.factory f) => some f
  | _ => none

def table? (s : Store) (number : Nat) : Option Table :=
  match s.content? number with
  | some (.table t) => some t
  | _ => none

def executor? (s : Store) (number : Nat) : Option Executor :=
  match s.content? number with
  | some (.executor e) => some e
  | _ => none

def function? (s : Store) (number : Nat) : Option Function :=
  match s.content? number with
  | some (.function f) => some f
  | _ => none

/-- New contents get the next number. -/
def add (s : Store) (c : Content) : Store :=
  { s with contents := s.contents ++ [c] }

def set (s : Store) (number : Nat) (c : Content) : Store :=
  { s with contents := s.contents.set number c }

@[simp] theorem content?_add (s : Store) (c : Content) :
    (s.add c).content? s.contents.length = some c := by
  simp [content?, add]

theorem content?_add_of_lt (s : Store) (c : Content) {number : Nat} (h : number < s.contents.length) :
    (s.add c).content? number = s.content? number := by
  simp [content?, add, List.getElem?_append_left h]

theorem content?_set_of_ne (s : Store) (c : Content) {number other : Nat} (h : number ≠ other) :
    (s.set number c).content? other = s.content? other := by
  simp [content?, set, List.getElem?_set_ne h]

/-- The contents of an object as they are written. What lies on the path to the object is not followed
again, so nothing is deeper than there are objects. -/
def shownWithin (s : Store) : Nat → List Nat → Nat → Option Content
  | 0, _, _ => none
  | depth + 1, path, number =>
    if path.contains number then none
    else (s.content? number).map (·.shownBy (s.shownWithin depth (number :: path)))

/-- The contents of an object with everything in them as it is written now. -/
def shown (s : Store) (number : Nat) : Option Content :=
  s.shownWithin (s.contents.length + 1) [] number

/-- A value with the objects in it as they are written now. -/
def look (s : Store) (v : Value) : Value :=
  v.mapObjects (·.shownBy s.shown)

/-- What an object is written as now. -/
def rendition (s : Store) (number : Nat) : Rendition :=
  ((s.shown number).map Content.rendition).getD .endless

/-! ## Copies -/

/-- The number for the copy of an object: its place among the objects met so far, behind all there are. -/
def numberOfCopy (first : Nat) (number : Nat) : StateM (List Nat) Nat := fun met =>
  match met.idxOf? number with
  | some place => (first + place, met)
  | none => (first + met.length, met ++ [number])

/-- Copies the contents of the objects met, and of those met in doing so. No object is met twice. -/
def copyContents (s : Store) : Nat → List Nat → List Content → List Content
  | 0, _, copies => copies
  | steps + 1, met, copies =>
    match met[copies.length]?.bind s.content? with
    | none => copies
    | some c =>
      let (copy, met) := (c.renumber (numberOfCopy s.contents.length)).run met
      s.copyContents steps met (copies ++ [copy])

/-- A query with the numbers that copies of its objects get, and all objects met until then. -/
def renumberQuery (s : Store) (met : List Nat) (q : Query) : Query × List Nat :=
  (q.traverse (Content.renumberObject (numberOfCopy s.contents.length))).run met

/-- The store with copies of all objects that can be reached from those met; some are copied already. -/
def withCopies (s : Store) (met : List Nat) (copies : List Content) : Store :=
  { s with contents := s.contents ++ s.copyContents s.contents.length met copies }

/-- A query of its own, and the store with the copies that are in it. -/
def copyQuery (s : Store) (q : Query) : Query × Store :=
  let (copy, met) := s.renumberQuery [] q
  (copy, s.withCopies met [])

/-- The store with a copy of a builder, under the next number, for the same dialect. The copy of a builder
that holds itself holds the copy. -/
def copyBuilder (s : Store) (number : Nat) (b : Builder) : Store :=
  let (query, met) := s.renumberQuery [number] b.query
  s.withCopies met [.builder { b with query }]

end Store

end SqlComposition
