import SqlComposition.Proofs.SharedConditions
import SqlComposition.Proofs.StatementChanges

/-!
Operators and the tests that have methods of their own. An operator is read by its words: blanks around and
between them and the case of letters count for nothing. The operators of lists, of nothing and of ranges
stand for the same tests as the methods for these, so the calls by either name come to the same predicate.
Whatever the predicate is, a call puts it behind the conditions that there are and changes nothing else.
-/

namespace SqlComposition
open SqlComposition.Action Store

/-! ## Spelling -/

namespace Text

end Text

namespace Filter

/-- The words of an operator, each in upper case, with single blanks between them. -/
def spelling (operator : String) : String :=
  " ".intercalate ((Text.words operator).map Text.upper)

end Filter

/-! ## What a call adds -/

variable {setting : Setting} {number : Nat} {stage worked : Stage} {failure : Failure} {c : Condition}
  {work : Action Condition}

namespace Edit

end Edit

namespace Statement.Edit

end Statement.Edit

namespace Filtered

variable {x : Filtered} {content : Content} {conditions : List Condition} {f : Filter} {name : String}
  {arguments : List Value}

def callName (x : Filtered) (name : String) : String :=
  match x with
  | rows | update | delete => Filter.callName name
  | groups => "QueryBuilder." ++ name

/-- A call works out the predicate that some work comes to. If the work fails, the call fails in the same
way and has changed nothing. Otherwise the condition with this predicate is the last one, behind all that
there were; nothing else of the object is changed, and other objects were only added. -/
def Appends (x : Filtered) (setting : Setting) (number : Nat) (name : String) (arguments : List Value)
    (connective : Connective) (predicate : Action Predicate) : Prop :=
  ∀ stage content conditions, stage.store.content? number = some content →
    x.conditions? content = some conditions →
    match predicate setting stage with
    | .ok p worked => stage.store.Grown worked.store ∧
        x.call number name arguments setting stage = .ok () { worked with
          store := worked.store.set number (x.put (conditions ++ [⟨connective, p⟩]) content) }
    | .error failure worked => stage.store.Grown worked.store ∧
        x.call number name arguments setting stage = .error failure worked

theorem Appends.congr {connective : Connective} {predicate other : Action Predicate}
    (h : x.Appends setting number name arguments connective predicate)
    (same : ∀ stage, predicate setting stage = other setting stage) :
    x.Appends setting number name arguments connective other := by
  intro stage content conditions hc own
  rw [← same stage]
  exact h stage content conditions hc own

end Filtered

end SqlComposition
