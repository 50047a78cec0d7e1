import SqlComposition.Proofs.Grouping
import SqlComposition.Proofs.Literals
import SqlComposition.Proofs.Spelling

/-!
Conditions mean what was asked for. Comparisons, list, null and range tests of columns with plain data are
written as text that the grammar reads in one way only, and what is read is the conditions that were
given: any of the groups holds in which all tests hold.
-/

namespace SqlComposition
open Grammar Quotes

/-- Plain data that conditions compare with. -/
inductive Constant where
  | null
  | bool (value : Bool)
  | int (value : Int)
  | text (value : String)

namespace Constant

def scalar : Constant → Scalar
  | null => .null
  | bool value => .bool value
  | int value => .int value
  | text value => .text value

def operand : Constant → Operand
  | null => .null
  | bool value => .bool value
  | int value => .number (decide (value < 0)) value.natAbs
  | text value => .text value

end Constant

/-- A column that is named without quotes. -/
abbrev ColumnName := { text : String // isName text = true }

/-- A test as it is asked for. -/
inductive Criterion where
  | comparison (column : ColumnName) (comparator : Comparator) (value : Constant)
  | member (column : ColumnName) (values : List Constant) (negated : Bool)
  | null (column : ColumnName) (negated : Bool)
  | between (column : ColumnName) (low high : Constant) (negated : Bool)

namespace Criterion

def predicate : Criterion → Predicate
  | comparison column comparator value =>
    .comparison column.val comparator.text (.scalar value.scalar)
  | member column values negated =>
    .member column.val (.listed (values.map fun v => .scalar v.scalar)) negated
  | null column negated => .null column.val negated
  | between column low high negated =>
    .between column.val (.scalar low.scalar) (.scalar high.scalar) negated

/-- The test that is asked for. Nothing is in an empty list. -/
def test : Criterion → Test
  | comparison column comparator value =>
    ⟨.column column.val, .comparison comparator value.operand⟩
  | member _ [] negated =>
    ⟨.number false 1, .comparison .equal (.number false (if negated then 1 else 0))⟩
  | member column (first :: rest) negated =>
    ⟨.column column.val, .member negated first.operand (rest.map Constant.operand)⟩
  | null column negated => ⟨.column column.val, .null negated⟩
  | between column low high negated =>
    ⟨.column column.val, .between negated low.operand high.operand⟩

def condition (connective : Connective) (c : Criterion) : Condition :=
  ⟨connective, c.predicate⟩

end Criterion

/-- Any of the groups holds in which all tests hold; a condition joined by OR starts a group. -/
def Formula.asked (conditions : List (Connective × Criterion)) : Formula :=
  .anyOf ((conditions.splitBy fun _ next => next.1 != .or).map fun group =>
    .allOf (group.map fun c => .test c.2.test))

theorem Constant.lex_literal (c : Constant) :
    ∃ literal, c.scalar.literal = .ok literal ∧ lex literal.toList = c.operand.lexemes := by
  cases c with
  | null => exact ⟨_, rfl, by decide⟩
  | bool value =>
    refine ⟨_, rfl, ?_⟩
    cases value <;> decide
  | int value =>
    refine ⟨_, rfl, ?_⟩
    cases value with
    | ofNat n =>
      have nonnegative : decide ((Int.ofNat n) < 0) = false := by simp
      rw [operand, nonnegative, Number.intText, Number.natText, String.toList_ofList, lex_digits]
      rfl
    | negSucc n =>
      have negative : decide (Int.negSucc n < 0) = true := by simp [Int.negSucc_lt_zero]
      have sign : lex ['-'] = [.symbol '-'] := by decide
      rw [operand, negative, Int.natAbs_negSucc, Number.intText, String.toList_ofList,
        lex_separator_append (by decide), sign, lex_digits]
      rfl
  | text value =>
    refine ⟨_, rfl, ?_⟩
    rw [Text.toList_quote, lex_quoteChars, String.ofList_toList]
    rfl

namespace Layout.Spells

theorem column (name : ColumnName) : Spells (verbatim name.val) [.name name.val] :=
  (text (isName.balanced name.property) (lex_name name.property)).2

theorem comparator (c : Comparator) : Spells (verbatim c.text) [c.lexeme] := by
  have balanced : Balanced c.text.toList := by cases c <;> decide
  exact (text balanced (lex_comparator c)).2

theorem constant (c : Constant) : Spells ((Value.scalar c.scalar).layout .full) c.operand.lexemes := by
  obtain ⟨literal, written, read⟩ := c.lex_literal
  rw [Value.layout]
  exact operand written (Scalar.isLiteral written).balanced read

/-- The members of a list, up to the parenthesis that closes it. -/
theorem members (first : Constant) (rest : List Constant) :
    ∃ lexemes, Spells (joined ", " ((first :: rest).map fun c => (Value.scalar c.scalar).layout .full))
        lexemes ∧
      lexemes ++ [.symbol ')'] =
        first.operand.lexemes ++ Operand.remaining (rest.map Constant.operand) := by
  induction rest generalizing first with
  | nil => exact ⟨_, (constant first).single, rfl⟩
  | cons second rest ih =>
    -- The grammar puts the comma before an operand and the text puts it behind one.
    obtain ⟨lexemes, written, closed⟩ := ih second
    have comma : lex ", ".toList = [.symbol ','] := by decide
    refine ⟨_, (constant first).joined_cons ", " (by decide) written, ?_⟩
    rw [comma, List.append_assoc, List.append_assoc, closed]
    rfl

end Layout.Spells

open Layout

theorem Criterion.spells (c : Criterion) : Spells (c.predicate.layout .full) c.test.lexemes := by
  cases c with
  | comparison column comparator value =>
    have blank : lex " ".toList = [] := by decide
    have right := (Spells.comparator comparator).divided " " (by decide) (Spells.constant value).single
    have whole := (Spells.column column).divided " " (by decide) right
    rw [blank] at whole
    rw [predicate, Predicate.layout]
    exact whole
  | member column values negated =>
    cases values with
    | nil =>
      rw [predicate, List.map_nil, Predicate.layout, Layout.negation]
      cases negated
      · exact (Spells.text (by decide) rfl).1
      · exact (Spells.text (by decide) rfl).1
    | cons first rest =>
      obtain ⟨lexemes, written, closed⟩ := Spells.members first rest
      have list := written.parenthesized.single
      rw [closed] at list
      rw [predicate, List.map_cons, Predicate.layout, Value.layouts_eq_map, List.map_map,
        Layout.negation]
      cases negated
      · exact (Spells.column column).divided " IN " (by decide) list
      · exact (Spells.column column).divided " NOT IN " (by decide) list
  | null column negated =>
    rw [predicate, Predicate.layout, Layout.negation]
    cases negated
    · exact (Spells.column column).ended rfl (by decide) (by decide)
    · exact (Spells.column column).ended rfl (by decide) (by decide)
  | between column low high negated =>
    have range := (Spells.constant low).divided " AND " (by decide) (Spells.constant high).single
    rw [predicate, Predicate.layout, Layout.negation]
    cases negated
    · exact (Spells.column column).divided " BETWEEN " (by decide) range
    · exact (Spells.column column).divided " NOT BETWEEN " (by decide) range

/-- A layout is read as a factor that says this. -/
def Layout.Means (layout : Layout) (formula : Formula) : Prop :=
  ∃ f : Factor, Spells layout f.lexemes ∧ f.formula = formula

namespace Layout.Means

variable {parts : List Layout} {formulas : List Formula}

theorem conjunction (h : List.Forall₂ Means parts formulas) (some : parts ≠ []) :
    ∃ c : Conjunction, Spells (joined " AND " parts) c.lexemes ∧ c.parts = formulas := by
  induction h with
  | nil => exact absurd rfl some
  | cons first others ih =>
    obtain ⟨f, written, rfl⟩ := first
    cases others with
    | nil => exact ⟨.single f, written.single, rfl⟩
    | cons second others =>
      obtain ⟨c, behind, said⟩ := ih (List.cons_ne_nil _ _)
      have word : lex " AND ".toList = [.keyword "AND"] := by decide
      have whole := written.joined_cons " AND " (by decide) behind
      rw [word] at whole
      exact ⟨.and f c, whole, by rw [Conjunction.parts, said]⟩

theorem disjunction (h : List.Forall₂ Means parts formulas) (some : parts ≠ []) :
    ∃ d : Disjunction, Spells (joined " OR " parts) d.lexemes ∧ d.parts = formulas := by
  induction h with
  | nil => exact absurd rfl some
  | cons first others ih =>
    obtain ⟨f, written, rfl⟩ := first
    cases others with
    | nil => exact ⟨.single (.single f), written.single, rfl⟩
    | cons second others =>
      obtain ⟨d, behind, said⟩ := ih (List.cons_ne_nil _ _)
      have word : lex " OR ".toList = [.keyword "OR"] := by decide
      have whole := written.joined_cons " OR " (by decide) behind
      have parts : Disjunction.parts (.or (.single f) d) = f.formula :: d.parts := rfl
      rw [word] at whole
      exact ⟨.or (.single f) d, whole, by rw [parts, said]⟩

theorem all : Grouping.JoinsRel Means (grouped " AND ") .allOf := by
  intro parts formulas several h
  have some : parts ≠ [] := by
    rintro rfl
    simp at several
  obtain ⟨c, written, rfl⟩ := conjunction h some
  exact ⟨.group (.single c), written.parenthesized, rfl⟩

theorem any : Grouping.JoinsRel Means (grouped " OR ") .anyOf := by
  intro parts formulas several h
  have some : parts ≠ [] := by
    rintro rfl
    simp at several
  obtain ⟨d, written, rfl⟩ := disjunction h some
  exact ⟨.group d, written.parenthesized, rfl⟩

end Layout.Means

def Formula.join (connective : String) (parts : List Formula) : Formula :=
  if connective = " OR " then .anyOf parts else .allOf parts

theorem Formula.assemble_tests {conditions : List (Connective × Criterion)} (h : conditions ≠ []) :
    Grouping.assemble join (conditions.map fun c => (c.1 == .or, .test c.2.test)) =
      some (asked conditions) := by
  have stands : ∀ connective x, join connective [x] = x := by
    intro connective x
    unfold join
    split <;> rfl
  rw [Grouping.assemble_eq_some _ _ stands h]
  rfl

theorem Condition.layouts_eq_map (nesting : Nesting) (conditions : List Condition) :
    Condition.layouts nesting conditions =
      conditions.map fun c => (c.connective, c.predicate.layout nesting) := by
  induction conditions with
  | nil => rw [Condition.layouts, List.map_nil]
  | cons c rest ih =>
    obtain ⟨connective, predicate⟩ := c
    rw [Condition.layouts, List.map_cons, ih, Condition.layout]

theorem Condition.means_asked {conditions : List (Connective × Criterion)} (h : conditions ≠ []) :
    (Grouping.layout (Condition.layouts .full (conditions.map fun c => c.2.condition c.1))).Means
      (Formula.asked conditions) := by
  have tests : List.Forall₂ (Grouping.Corresponds Means)
      ((Condition.layouts .full (conditions.map fun c => c.2.condition c.1)).map fun c =>
        (c.1 == .or, c.2))
      (conditions.map fun c => (c.1 == .or, .test c.2.test)) := by
    rw [layouts_eq_map, List.map_map, List.map_map, List.forall₂_map_left_iff,
      List.forall₂_map_right_iff, List.forall₂_same]
    exact fun c _ => ⟨rfl, .atom c.2.test, c.2.spells, rfl⟩
  have whole : Option.Rel Means (Grouping.assemble grouped _) (Grouping.assemble Formula.join _) :=
    Grouping.assemble_rel Means.all Means.any tests
  rw [Formula.assemble_tests h] at whole
  rw [Grouping.layout_eq]
  generalize Grouping.assemble grouped _ = made at whole ⊢
  cases whole with
  | some meant => exact meant

/-- Conditions are written as text of which there is one reading, and it is what was asked for. -/
theorem Condition.read_as_asked {conditions : List (Connective × Criterion)} (h : conditions ≠ []) :
    ∃ text, (Grouping.layout (Condition.layouts .full
        (conditions.map fun c => c.2.condition c.1))).inlined = .ok text ∧
      ∃ d : Disjunction, d.IsTree text ∧ (∀ other : Disjunction, other.IsTree text → other = d) ∧
        d.formula = Formula.asked conditions := by
  obtain ⟨f, ⟨cs, written, -, read⟩, meant⟩ := means_asked h
  have tree : Disjunction.IsTree (.single (.single f)) (String.ofList cs) := by
    rw [Disjunction.IsTree, String.toList_ofList, read]
    rfl
  exact ⟨String.ofList cs, written, .single (.single f), tree, fun _ other => other.unique tree, meant⟩

/-- A list with a quote and a connective in a text, a range, and an empty list. -/
def Criterion.sample : List (Connective × Criterion) :=
  [(.or, .member ⟨"status", by decide⟩ [.text "it's ' OR (1 = 1)", .null, .int (-5)] true),
    (.and, .between ⟨"price", by decide⟩ (.int 1) (.int 9) false),
    (.or, .member ⟨"id", by decide⟩ [] false),
    (.and, .comparison ⟨"flag", by decide⟩ .different (.bool true)),
    (.or, .null ⟨"note", by decide⟩ true)]

def Criterion.sampleText : String :=
  "((status NOT IN ('it''s '' OR (1 = 1)', NULL, -5) AND price BETWEEN 1 AND 9) OR " ++
    "(1 = 0 AND flag != TRUE) OR note IS NOT NULL)"

set_option maxRecDepth 10000 in
theorem Criterion.sample_inlined :
    (Grouping.layout (Condition.layouts .full
      (Criterion.sample.map fun c => c.2.condition c.1))).inlined = .ok sampleText := by
  rfl

theorem Criterion.sample_read_as_asked : Criterion.sample ≠ [] ∧
    ∃ d : Disjunction, d.IsTree sampleText ∧
      (∀ other : Disjunction, other.IsTree sampleText → other = d) ∧
      d.formula = .any [
        .all [
          .test ⟨.column "status",
            .member true (.text "it's ' OR (1 = 1)") [.null, .number true 5]⟩,
          .test ⟨.column "price", .between false (.number false 1) (.number false 9)⟩],
        .all [
          .test ⟨.number false 1, .comparison .equal (.number false 0)⟩,
          .test ⟨.column "flag", .comparison .different (.bool true)⟩],
        .test ⟨.column "note", .null true⟩] := by
  have some : Criterion.sample ≠ [] := List.cons_ne_nil _ _
  obtain ⟨text, written, tree⟩ := Condition.read_as_asked some
  rw [sample_inlined, Except.ok.injEq] at written
  subst written
  exact ⟨some, tree⟩

end SqlComposition
