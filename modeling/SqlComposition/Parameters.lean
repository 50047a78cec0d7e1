import SqlComposition.Failure

/-!
How many arguments a call takes: those it needs, each with a name, and further ones that may be left
out. A call with too few is told the names of the missing ones, a call with too many how many it takes.
The receiver of a method counts as an argument.
-/

namespace SqlComposition

structure Parameters where
  needed : List String
  further : Nat := 0
  deriving DecidableEq, Repr

namespace Parameters

def none : Parameters := ⟨[], 0⟩

/-- Why a call with so many arguments, its receivers not counted, cannot be made. -/
def mismatch (p : Parameters) (call : String) (receivers given : Nat) : Failure :=
  if given < p.needed.length then .missingArguments call (p.needed.drop given)
  else .surplusArguments call (receivers + p.needed.length) p.further (receivers + given)

end Parameters

end SqlComposition
