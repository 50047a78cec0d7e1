import SqlComposition.Layout

/-!
Writing pieces out. Inlined text has each value as a literal; bound text has placeholders numbered from
1 in the order of the text, with the values listed apart. Both stop at the first piece that cannot be
written. Whoever writes a SELECT without a FROM clause is told so; the count of those is kept beside the
text.
-/

namespace SqlComposition

namespace Piece

def inlined : List Piece → Except Failure String
  | [] => .ok ""
  | text s :: rest => return s ++ (← inlined rest)
  | value v :: rest => do
    let literal ← v.literal
    return literal ++ (← inlined rest)
  | sourceless :: rest => inlined rest
  | failed failure :: _ => .error failure

/-- Bound text and values when `count` values are bound already. -/
def bound (placeholder : Nat → String) : Nat → List Piece → Except Failure (String × List Value)
  | _, [] => .ok ("", [])
  | count, text s :: rest => do
    let (sql, values) ← bound placeholder count rest
    return (s ++ sql, values)
  | count, value v :: rest => do
    let (sql, values) ← bound placeholder (count + 1) rest
    return (placeholder (count + 1) ++ sql, v :: values)
  | count, sourceless :: rest => bound placeholder count rest
  | _, failed failure :: _ => .error failure

/-- The values met before the text fails. -/
def valuesReached : List Piece → List Value
  | [] => []
  | value v :: rest => v :: valuesReached rest
  | text _ :: rest => valuesReached rest
  | sourceless :: rest => valuesReached rest
  | failed _ :: _ => []

/-- How many SELECTs without a FROM clause are met while the inlined text is written, up to where it
fails. A value that is an object adds those of its own text. -/
def sourcelessInlined : List Piece → Nat
  | [] => 0
  | value v :: rest => v.sourceless + if v.literal.isOk then sourcelessInlined rest else 0
  | sourceless :: rest => sourcelessInlined rest + 1
  | failed _ :: _ => 0
  | text _ :: rest => sourcelessInlined rest

/-- The same for the bound text, for which no value is written. -/
def sourcelessBound : List Piece → Nat
  | [] => 0
  | sourceless :: rest => sourcelessBound rest + 1
  | value _ :: rest => sourcelessBound rest
  | text _ :: rest => sourcelessBound rest
  | failed _ :: _ => 0

@[simp] theorem inlined_text (s : String) (rest : List Piece) :
    inlined (text s :: rest) = (inlined rest).map (s ++ ·) := by
  cases h : inlined rest <;> simp [inlined, h, bind, Except.bind, pure, Except.pure, Except.map]

@[simp] theorem inlined_failed (failure : Failure) (rest : List Piece) :
    inlined (failed failure :: rest) = .error failure := rfl

end Piece

namespace Layout

def inlined (layout : Layout) : Except Failure String :=
  Piece.inlined layout.pieces

def bound (placeholder : Nat → String) (layout : Layout) : Except Failure (String × List Value) :=
  Piece.bound placeholder 0 layout.pieces

end Layout

/-- Work of writing, which may fail; the count of SELECTs without a FROM clause is kept either way. -/
abbrev Writing (α : Type) := EStateM Failure Nat α

namespace Writing

def ofExcept {α : Type} : Except Failure α → Writing α
  | .ok a => pure a
  | .error failure => throw failure

def count (n : Nat) : Writing Unit :=
  modify (· + n)

def outcome {α : Type} (work : Writing α) : Except Failure α × Nat :=
  match work 0 with
  | .ok a count => (.ok a, count)
  | .error failure count => (.error failure, count)

end Writing

/-- The plain text of a value. -/
def Value.write (v : Value) : Writing String := do
  Writing.count v.sourceless
  Writing.ofExcept v.plainText

/-- The log lines for SELECTs without a FROM clause, one for each. -/
def Emission.lines (sourceless : Nat) : List String :=
  List.replicate sourceless "DEBUG duckql.compile.builder: Rendering SELECT without a FROM target"

end SqlComposition
