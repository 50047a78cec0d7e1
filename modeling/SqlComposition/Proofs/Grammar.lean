import SqlComposition.Proofs.Precedence
import SqlComposition.Proofs.Quotes

/-!
A grammar of SQL conditions. OR binds the least and AND more; a factor is a test or a condition in
parentheses. A test compares an operand, looks for it in a list, tests it for null or for a range; the AND
of a range belongs to the test. No sequence of lexemes has two trees.
-/

namespace SqlComposition.Grammar
open Quotes

inductive Lexeme where
  | keyword (word : String)
  | name (text : String)
  | number (size : Nat)
  | operator (text : String)
  | symbol (c : Char)
  | quoted (mark : Mark) (content : String)
  | unclosed (mark : Mark) (content : String)
  deriving DecidableEq

inductive Comparator where
  | equal | unequal | different | less | lessEqual | greater | greaterEqual | like
  deriving DecidableEq

namespace Comparator

def text : Comparator → String
  | equal => "="
  | unequal => "<>"
  | different => "!="
  | less => "<"
  | lessEqual => "<="
  | greater => ">"
  | greaterEqual => ">="
  | like => "LIKE"

def lexeme : Comparator → Lexeme
  | like => .keyword "LIKE"
  | other => .operator other.text

end Comparator

inductive Operand where
  | column (name : String)
  | null
  | bool (value : Bool)
  | number (negative : Bool) (size : Nat)
  | text (content : String)
  deriving DecidableEq

inductive Check where
  | comparison (comparator : Comparator) (right : Operand)
  | member (negated : Bool) (first : Operand) (rest : List Operand)
  | null (negated : Bool)
  | between (negated : Bool) (low high : Operand)
  deriving DecidableEq

structure Test where
  operand : Operand
  check : Check
  deriving DecidableEq

abbrev Disjunction := Precedence.Disjunction Test

abbrev Conjunction := Precedence.Conjunction Test

abbrev Factor := Precedence.Factor Test

def Operand.lexemes : Operand → List Lexeme
  | column name => [.name name]
  | null => [.keyword "NULL"]
  | bool value => [.keyword (if value then "TRUE" else "FALSE")]
  | number false size => [.number size]
  | number true size => [.symbol '-', .number size]
  | text content => [.quoted .single content]

/-- The rest of a list of operands, up to its closing parenthesis. -/
def Operand.remaining : List Operand → List Lexeme
  | [] => [.symbol ')']
  | o :: rest => .symbol ',' :: (o.lexemes ++ remaining rest)

def negation (negated : Bool) : List Lexeme :=
  if negated then [.keyword "NOT"] else []

def Check.lexemes : Check → List Lexeme
  | comparison comparator right => comparator.lexeme :: right.lexemes
  | member negated first rest =>
    negation negated ++ .keyword "IN" :: .symbol '(' :: (first.lexemes ++ Operand.remaining rest)
  | null negated => .keyword "IS" :: (negation negated ++ [.keyword "NULL"])
  | between negated low high =>
    negation negated ++ .keyword "BETWEEN" :: (low.lexemes ++ .keyword "AND" :: high.lexemes)

def Test.lexemes (t : Test) : List Lexeme :=
  t.operand.lexemes ++ t.check.lexemes

/-- How the connectives, the parentheses and the tests are written. -/
def spelling : Precedence.Spelling Test Lexeme where
  sign
    | .and => [.keyword "AND"]
    | .or => [.keyword "OR"]
    | .opening => [.symbol '(']
    | .closing => [.symbol ')']
  atom := Test.lexemes

def Disjunction.lexemes (d : Disjunction) : List Lexeme :=
  d.interpret (.text spelling)

def Conjunction.lexemes (c : Conjunction) : List Lexeme :=
  c.interpret (.text spelling)

def Factor.lexemes (f : Factor) : List Lexeme :=
  f.interpret (.text spelling)

/-- What a condition says: a test, or that all or any of several hold. -/
inductive Formula where
  | test (t : Test)
  | all (parts : List Formula)
  | any (parts : List Formula)

namespace Formula

/-- One formula stands for itself. -/
def allOf : List Formula → Formula
  | [only] => only
  | parts => all parts

def anyOf : List Formula → Formula
  | [only] => only
  | parts => any parts

end Formula

mutual

def Disjunction.parts : Disjunction → List Formula
  | .single c => [.allOf (Conjunction.parts c)]
  | .or c rest => .allOf (Conjunction.parts c) :: Disjunction.parts rest

def Conjunction.parts : Conjunction → List Formula
  | .single f => [Factor.formula f]
  | .and f rest => Factor.formula f :: Conjunction.parts rest

def Factor.formula : Factor → Formula
  | .atom t => .test t
  | .group d => .anyOf (Disjunction.parts d)

end

def Disjunction.formula (d : Disjunction) : Formula :=
  .anyOf d.parts

theorem Comparator.lexeme_injective {a b : Comparator} (h : a.lexeme = b.lexeme) : a = b := by
  revert h
  cases a <;> cases b <;> decide

/-- An operand ends where it ends, whatever follows. -/
theorem Operand.cancel {a b : Operand} {r s : List Lexeme} (h : a.lexemes ++ r = b.lexemes ++ s) :
    a = b ∧ r = s := by
  rcases a with _ | _ | (_ | _) | ⟨_ | _, _⟩ | _ <;>
    rcases b with _ | _ | (_ | _) | ⟨_ | _, _⟩ | _ <;> simp_all [lexemes]

theorem Operand.head_ne_parenthesis (o : Operand) (r s : List Lexeme) :
    o.lexemes ++ r ≠ .symbol '(' :: s := by
  rcases o with _ | _ | (_ | _) | ⟨_ | _, _⟩ | _ <;> simp [lexemes]

theorem Operand.remaining_cancel {a b : List Operand} {r s : List Lexeme}
    (h : remaining a ++ r = remaining b ++ s) : a = b ∧ r = s := by
  induction a generalizing b with
  | nil =>
    cases b with
    | nil => simpa [remaining] using h
    | cons o rest => simp [remaining] at h
  | cons o rest ih =>
    cases b with
    | nil => simp [remaining] at h
    | cons p others =>
      simp only [remaining, List.cons_append, List.cons.injEq, true_and, List.append_assoc] at h
      obtain ⟨rfl, later⟩ := cancel h
      obtain ⟨rfl, rfl⟩ := ih later
      exact ⟨rfl, rfl⟩

theorem negation_cancel {a b : Bool} {x : Lexeme} (hx : x ≠ .keyword "NOT") {r s : List Lexeme}
    (h : negation a ++ x :: r = negation b ++ x :: s) : a = b ∧ r = s := by
  cases a <;> cases b <;> simp [negation] at h
  · exact ⟨rfl, h⟩
  · exact absurd h.1 hx
  · exact absurd h.1.symm hx
  · exact ⟨rfl, h⟩

inductive Check.Kind where
  | comparison | member | null | between

def Check.kind : Check → Kind
  | comparison _ _ => .comparison
  | member _ _ _ => .member
  | null _ => .null
  | between _ _ _ => .between

def Check.Kind.ofLexemes : List Lexeme → Kind
  | .keyword word :: rest =>
    if word = "IN" then .member
    else if word = "IS" then .null
    else if word = "BETWEEN" then .between
    else if word = "LIKE" then .comparison
    else if rest.head? = some (.keyword "IN") then .member
    else .between
  | _ => .comparison

/-- What a check starts with tells its kind. -/
theorem Check.Kind.ofLexemes_append (c : Check) (r : List Lexeme) :
    ofLexemes (c.lexemes ++ r) = c.kind := by
  cases c with
  | comparison comparator right => cases comparator <;> rfl
  | member negated first rest => cases negated <;> rfl
  | null negated => rfl
  | between negated low high => cases negated <;> rfl

theorem Check.cancel {a b : Check} {r s : List Lexeme} (h : a.lexemes ++ r = b.lexemes ++ s) :
    a = b ∧ r = s := by
  have same : a.kind = b.kind := by
    rw [← Kind.ofLexemes_append a r, h, Kind.ofLexemes_append]
  cases a with
  | comparison comparator right =>
    cases b with
    | comparison comparator' right' =>
      obtain ⟨first, later⟩ := List.cons.inj h
      obtain ⟨rfl, rfl⟩ := Operand.cancel later
      exact ⟨by rw [Comparator.lexeme_injective first], rfl⟩
    | _ => cases same
  | member negated first rest =>
    cases b with
    | member negated' first' rest' =>
      simp only [lexemes, List.append_assoc, List.cons_append] at h
      obtain ⟨rfl, inner⟩ := negation_cancel (by decide) h
      obtain ⟨rfl, later⟩ := Operand.cancel (List.cons.inj inner).2
      obtain ⟨rfl, rfl⟩ := Operand.remaining_cancel later
      exact ⟨rfl, rfl⟩
    | _ => cases same
  | null negated =>
    cases b with
    | null negated' =>
      simp only [lexemes, List.append_assoc, List.cons_append, List.nil_append, List.cons.injEq,
        true_and] at h
      obtain ⟨rfl, rfl⟩ := negation_cancel (by decide) h
      exact ⟨rfl, rfl⟩
    | _ => cases same
  | between negated low high =>
    cases b with
    | between negated' low' high' =>
      simp only [lexemes, List.append_assoc, List.cons_append] at h
      obtain ⟨rfl, inner⟩ := negation_cancel (by decide) h
      obtain ⟨rfl, later⟩ := Operand.cancel inner
      obtain ⟨rfl, rfl⟩ := Operand.cancel (List.cons.inj later).2
      exact ⟨rfl, rfl⟩
    | _ => cases same

theorem Test.cancel {a b : Test} {r s : List Lexeme} (h : a.lexemes ++ r = b.lexemes ++ s) :
    a = b ∧ r = s := by
  obtain ⟨operand, check⟩ := a
  obtain ⟨operand', check'⟩ := b
  simp only [lexemes, List.append_assoc] at h
  obtain ⟨rfl, later⟩ := Operand.cancel h
  obtain ⟨rfl, rfl⟩ := Check.cancel later
  exact ⟨rfl, rfl⟩

/-- Tests end where they end, whatever follows, and none starts with a parenthesis. -/
theorem spelling_legible :
    spelling.Legible (fun _ => True) (fun _ => True) (fun _ => True) fun _ => True where
  sign_ne_nil sign := by cases sign <;> exact List.cons_ne_nil _ _
  sign_inj {sign sign'} := by cases sign <;> cases sign' <;> simp [spelling]
  left_nil := trivial
  left_closing _ := trivial
  left_connective _ _ := trivial
  starts_opening _ := trivial
  starts_atom _ _ := trivial
  right_nil := trivial
  right_sign _ _ := trivial
  atom_atom _ _ _ same := Test.cancel same
  atom_group {a} _ _ _ _ _ _ same := by
    simp only [spelling, Test.lexemes, List.append_assoc] at same
    exact a.operand.head_ne_parenthesis _ _ same
  group_atom {_} b _ _ _ _ same := by
    simp only [spelling, Test.lexemes, List.append_assoc] at same
    exact b.operand.head_ne_parenthesis _ _ same.symm

/-- The grammar is unambiguous. -/
theorem Disjunction.lexemes_injective {a b : Disjunction} (h : a.lexemes = b.lexemes) : a = b :=
  Precedence.Disjunction.text_inj spelling_legible (fun _ _ => trivial) h

end SqlComposition.Grammar
