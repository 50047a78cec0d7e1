import SqlComposition.Proofs.Given
import SqlComposition.Proofs.Grouping
import SqlComposition.Query.Layout

/-!
What the layout of a query is made of, and how its parts meet. Whatever holds of all that the query gives
holds of each part of its layout that is written as it is; beside those there are only words of SQL and
operands that are plain data. An operand comes right after a word, and after it there is another word or
nothing, except in a slot of a fragment, where it may touch the text of the fragment.
-/

namespace SqlComposition

/-- Data that stands for itself: neither trusted SQL nor a query. -/
def Value.IsPlain : Value → Prop
  | .fragment _ | .query _ => False
  | .scalar _ | .list _ | .tuple _ | .mapping _ | .part _ | .bound _ | .object _ => True

namespace Layout

def isWordChar (c : Char) : Bool :=
  c.isAlphanum || [' ', '\n', ',', '*', '='].contains c

/-- A word of SQL is not empty and has no quote, no parenthesis and no slot in it. -/
def isWord (text : String) : Bool :=
  !text.toList.isEmpty && text.toList.all isWordChar

/-- What stands right before a place: a word, anything but an operand, or anything at all. -/
inductive Edge where
  | clear | settled | loose
  deriving DecidableEq

namespace Edge

def rank : Edge → Nat
  | clear => 0
  | settled => 1
  | loose => 2

instance : LE Edge := ⟨fun a b => a.rank ≤ b.rank⟩

instance (a b : Edge) : Decidable (a ≤ b) :=
  inferInstanceAs (Decidable (a.rank ≤ b.rank))

end Edge

def isOperand : Layout → Bool
  | operand _ => true
  | _ => false

/-- The layouts made of words of SQL, pairs of parentheses, plain operands and what is given. The edges say
what such a layout may stand behind, and what may then be said of the place behind it. -/
inductive Composed (p : Given → Prop) : Edge → Layout → Edge → Prop where
  | keyword {before : Edge} {text : String} : isWord text = true →
      Composed p before (keyword text) .clear
  | parenthesized {a : Edge} {layout : Layout} : Composed p .clear layout .loose →
      Composed p a (Layout.parenthesized layout) .clear
  | verbatim {text : String} : p (.name text) → Composed p .clear (verbatim text) .loose
  | operand {v : Value} : v.IsPlain → Composed p .clear (operand v) .loose
  | filled {sql : String} {slots : List Layout} : p (.fragment sql slots.length) →
      (∀ v, Layout.operand v ∈ slots → v.IsPlain) →
      (∀ slot ∈ slots, slot.isOperand = false → Composed p .settled slot .settled) →
      Composed p .settled (filled sql slots) .settled
  | nil {edge : Edge} : Composed p edge (series []) edge
  | cons {a b c : Edge} {part : Layout} {rest : List Layout} : Composed p a part b →
      Composed p b (series rest) c → Composed p a (series (part :: rest)) c
  | bound {rows : Value} : p (.bound rows) → Composed p .clear (plainText rows) .loose
  | sourceless {edge : Edge} : Composed p edge sourceless edge
  | noSource {edge : Edge} : Composed p edge (failed .noSource) edge
  | weaken {a b c d : Edge} {layout : Layout} : a ≤ b → c ≤ d → Composed p b layout c →
      Composed p a layout d

/-- A part may stand behind a word, and a word has to follow it. -/
abbrev IsPart (p : Given → Prop) (layout : Layout) : Prop :=
  Composed p .clear layout .loose

/-- A tail may follow a part, and leaves open what a part leaves open. -/
abbrev IsTail (p : Given → Prop) (layout : Layout) : Prop :=
  Composed p .loose layout .loose

def Parts (p : Given → Prop) (parts : List Layout) : Prop :=
  ∀ part ∈ parts, IsPart p part

namespace Composed

variable {p : Given → Prop} {a b c : Edge} {layout : Layout}

theorem part (h : Composed p a layout b) : IsPart p layout :=
  .weaken (by cases a <;> decide) (by cases b <;> decide) h

theorem single (h : Composed p a layout b) : Composed p a (series [layout]) b :=
  .cons h .nil

theorem joined {separator : String} (hs : isWord separator = true) {parts : List Layout}
    (h : Parts p parts) : IsPart p (Layout.joined separator parts) := by
  rw [Layout.joined]
  induction parts with
  | nil => exact part (b := .clear) .nil
  | cons first rest ih =>
    obtain ⟨made, others⟩ := List.forall_mem_cons.1 h
    cases rest with
    | nil => exact .single made
    | cons second rest => exact .cons made (.cons (.keyword hs) (ih others))

theorem aliased (hi : IsPart p layout) {label : Option String}
    (h : ∀ g ∈ Given.label label, p g) : IsPart p (Layout.aliased layout label) := by
  cases label with
  | none => exact hi
  | some text =>
    have named : p (.name text) := h _ (by simp [Given.label, Given.names])
    rw [Layout.aliased]
    split
    · exact hi
    · exact .cons hi (.cons (.keyword (by decide)) (.single (.verbatim named)))

theorem negation (negated : Bool) {yes no : String} (hy : isWord yes = true)
    (hn : isWord no = true) : Composed p a (Layout.negation negated yes no) .clear := by
  cases negated
  · exact .keyword hn
  · exact .keyword hy

end Composed

namespace Parts

variable {p : Given → Prop}

theorem nil : Parts p [] := by
  simp [Parts]

theorem cons {first : Layout} {rest : List Layout} (h : IsPart p first) (others : Parts p rest) :
    Parts p (first :: rest) :=
  List.forall_mem_cons.2 ⟨h, others⟩

theorem append {a b : List Layout} (first : Parts p a) (rest : Parts p b) : Parts p (a ++ b) :=
  List.forall_mem_append.2 ⟨first, rest⟩

theorem single {only : Layout} (h : IsPart p only) : Parts p [only] :=
  cons h nil

theorem names {texts : List String} (h : ∀ g ∈ Given.names texts, p g) :
    Parts p (texts.map Layout.verbatim) := by
  simp only [Parts, Given.names, List.forall_mem_map] at h ⊢
  exact fun text ht => .verbatim (h text ht)

theorem clause {word separator : String} (hw : isWord word = true) (hs : isWord separator = true)
    {items : List Layout} (h : Parts p items) : Parts p (Layout.clause word separator items) := by
  cases items with
  | nil => exact nil
  | cons first rest => exact single (.cons (.keyword hw) (.single (.joined hs h)))

theorem plain {word : String} (hw : isWord word = true) {rows : Option Value}
    (h : ∀ g ∈ Given.bounds rows, p g) : Parts p (Layout.plain word rows) := by
  cases rows with
  | none => exact nil
  | some v =>
    have given : p (.bound v) := h _ (by simp [Given.bounds])
    exact single (.cons (.keyword hw) (.single (.bound given)))

end Parts

theorem Composed.columnList {p : Given → Prop} {columns : Option (List String)}
    (h : ∀ g ∈ Given.names (columns.getD []), p g) : IsTail p (Layout.columnList columns) := by
  match columns with
  | none => exact .nil
  | some [] => exact .nil
  | some (name :: others) =>
    have list : IsPart p (Layout.joined ", " ((name :: others).map Layout.verbatim)) :=
      joined (by decide) (.names h)
    exact .weaken (b := .loose) (c := .clear) (by decide) (by decide)
      (.cons (.keyword (by decide)) (.single (parenthesized list)))

end Layout

open Layout

def Layout.grouped (connective : String) (parts : List Layout) : Layout :=
  parenthesized (joined connective parts)

theorem Grouping.layout_eq (conditions : List (Connective × Layout)) :
    Grouping.layout conditions =
      (assemble grouped (conditions.map fun c => (c.1 == .or, c.2))).getD (series []) := rfl

section Layouts

variable {p : Given → Prop}

theorem Grouping.composed {conditions : List (Connective × Layout)}
    (h : ∀ c ∈ conditions, IsPart p c.2) : IsPart p (Grouping.layout conditions) := by
  have joins : ∀ connective ∈ [" AND ", " OR "], ∀ parts, (∀ x ∈ parts, IsPart p x) →
      IsPart p (grouped connective parts) := by
    intro connective hc parts hp
    have word : isWord connective = true := by revert connective; decide
    exact (Composed.parenthesized (a := .clear) (.joined word hp)).part
  have all := assemble_of_forall joins
    (List.forall_mem_map (f := fun c : Connective × Layout => (c.1 == .or, c.2)) |>.2 h)
  rw [layout_eq]
  cases whole : assemble grouped _ with
  | none => exact Composed.part (a := .clear) .nil
  | some made => exact all made whole

theorem Layout.Parts.groupedClause {word : String} (hw : isWord word = true)
    {conditions : List (Connective × Layout)} (h : ∀ c ∈ conditions, IsPart p c.2) :
    Parts p (Layout.groupedClause word conditions) := by
  cases conditions with
  | nil => exact .nil
  | cons first rest => exact .single (.cons (.keyword hw) (.single (Grouping.composed h)))

/-- What treats each item of a list by itself is a map. -/
theorem eq_map_of_cons {α β : Type} {f : α → β} {all : List α → List β} (nil : all [] = [])
    (cons : ∀ a rest, all (a :: rest) = f a :: all rest) (items : List α) : all items = items.map f := by
  induction items with
  | nil => rw [nil, List.map_nil]
  | cons a rest ih => rw [cons, List.map_cons, ih]

theorem Value.layouts_eq_map (nesting : Nesting) (values : List Value) :
    Value.layouts nesting values = values.map (Value.layout nesting) :=
  eq_map_of_cons (by rw [Value.layouts]) (fun _ _ => by rw [Value.layouts]) values

/-- What may fill a slot of a fragment: plain data, or what stands behind any text. -/
def Layout.IsSlot (p : Given → Prop) (slot : Layout) : Prop :=
  (∀ v, slot = operand v → v.IsPlain) ∧ (slot.isOperand = false → Composed p .settled slot .settled)

namespace Layout.IsSlot

theorem ofOperand {v : Value} (h : v.IsPlain) : IsSlot p (operand v) :=
  ⟨fun _ hv => (operand.inj hv) ▸ h, fun hn => nomatch hn⟩

theorem ofComposed {slot : Layout} (hs : slot.isOperand = false)
    (h : Composed p .settled slot .settled) : IsSlot p slot :=
  ⟨fun _ hv => absurd hs (by simp [hv, isOperand]), fun _ => h⟩

theorem part {slot : Layout} (h : IsSlot p slot) : IsPart p slot := by
  cases slot with
  | operand v => exact .operand (h.1 v rfl)
  | keyword _ | verbatim _ | filled _ _ | series _ | sourceless | failed _ => exact (h.2 rfl).part

end Layout.IsSlot

mutual

theorem Value.slot : (v : Value) → (∀ g ∈ v.given, p g) → IsSlot p (v.layout .full)
  | .fragment f, h => by
    have made := f.composed (by simpa [Value.given] using h)
    rw [Value.layout]
    exact .ofComposed (by cases f; rw [Fragment.layout]; rfl) made
  | .query q, h => by
    have made := q.composed (by simpa [Value.given] using h)
    rw [Value.layout]
    exact .ofComposed rfl (.weaken (by decide) (by decide) (.parenthesized (a := .settled) made))
  | .scalar _, _ | .list _, _ | .tuple _, _ | .mapping _, _ | .part _, _ | .bound _, _
  | .object _, _ => by
    rw [Value.layout]
    exact .ofOperand trivial

theorem Value.slots : (values : List Value) → (∀ g ∈ Value.allGiven values, p g) →
    ∀ slot ∈ Value.layouts .full values, IsSlot p slot
  | [], _ => by
    rw [Value.layouts]
    exact List.forall_mem_nil _
  | v :: rest, h => by
    simp only [Value.allGiven, List.forall_mem_append] at h
    rw [Value.layouts]
    exact List.forall_mem_cons.2 ⟨v.slot h.1, Value.slots rest h.2⟩

theorem Fragment.composed : (f : Fragment) → (∀ g ∈ f.given, p g) →
    Composed p .settled (f.layout .full) .settled
  | ⟨sql, bindings⟩, h => by
    simp only [Fragment.given, List.forall_mem_cons] at h
    have slots := Value.slots bindings h.2
    rw [Fragment.layout]
    refine .filled ?_ (fun v hv => (slots _ hv).1 v rfl) (fun slot hs => (slots slot hs).2)
    rw [Value.layouts_eq_map, List.length_map]
    exact h.1

theorem Predicate.composed : (x : Predicate) → (∀ g ∈ x.given, p g) → IsPart p (x.layout .full)
  | .comparison column operator value, h => by
    simp only [Predicate.given, List.forall_mem_append, Given.names, List.map_cons, List.map_nil,
      List.forall_mem_cons] at h
    rw [Predicate.layout]
    exact .cons (.verbatim h.1.1) (.cons (.keyword (by decide)) (.cons (.verbatim h.1.2.1)
      (.cons (.keyword (by decide)) (.single (value.slot h.2).part))))
  | .member column (.query q) negated, h => by
    simp only [Predicate.given, Members.given, List.forall_mem_cons] at h
    rw [Predicate.layout]
    exact .part (.cons (.verbatim h.1) (.cons (.negation negated (by decide) (by decide))
      (.single (.parenthesized (q.composed h.2)))))
  | .member column (.listed []) negated, _ => by
    rw [Predicate.layout]
    exact .part (a := .clear) (.negation negated (by decide) (by decide))
  | .member column (.listed (v :: rest)) negated, h => by
    simp only [Predicate.given, Members.given, Value.allGiven, List.forall_mem_cons,
      List.forall_mem_append] at h
    have items : Parts p (v.layout .full :: Value.layouts .full rest) :=
      .cons (v.slot h.2.1).part fun item hi => (Value.slots rest h.2.2 item hi).part
    rw [Predicate.layout]
    exact .part (.cons (.verbatim h.1) (.cons (.negation negated (by decide) (by decide))
      (.single (.parenthesized (.joined (by decide) items)))))
  | .null column negated, h => by
    simp only [Predicate.given, List.mem_singleton, forall_eq] at h
    rw [Predicate.layout]
    exact .part (.cons (.verbatim h) (.single (.negation negated (by decide) (by decide))))
  | .between column low high negated, h => by
    simp only [Predicate.given, List.forall_mem_cons, List.forall_mem_append] at h
    rw [Predicate.layout]
    exact .cons (.verbatim h.1) (.cons (.negation negated (by decide) (by decide))
      (.cons (low.slot h.2.1).part (.cons (.keyword (by decide)) (.single (high.slot h.2.2).part))))
  | .nonempty q negated, h => by
    have made := q.composed (by simpa [Predicate.given] using h)
    rw [Predicate.layout]
    exact .part (a := .clear) (.cons (.negation negated (by decide) (by decide))
      (.single (.parenthesized made)))
  | .raw fragment, h => by
    rw [Predicate.layout]
    exact (fragment.composed (by simpa [Predicate.given] using h)).part

theorem Condition.composed : (c : Condition) → (∀ g ∈ c.given, p g) → IsPart p (c.layout .full).2
  | ⟨connective, predicate⟩, h => by
    rw [Condition.layout]
    exact predicate.composed (by simpa [Condition.given] using h)

theorem Condition.allComposed : (conditions : List Condition) →
    (∀ g ∈ Condition.allGiven conditions, p g) →
    ∀ c ∈ Condition.layouts .full conditions, IsPart p c.2
  | [], _ => by simp [Condition.layouts]
  | c :: rest, h => by
    simp only [Condition.allGiven, List.forall_mem_append] at h
    simp only [Condition.layouts, List.forall_mem_cons]
    exact ⟨c.composed h.1, Condition.allComposed rest h.2⟩

theorem Expression.composed : (e : Expression) → (∀ g ∈ e.given, p g) → IsPart p e.layout
  | .name text, h => by
    rw [Expression.layout]
    exact .verbatim (by simpa [Expression.given] using h)
  | .raw fragment, h => by
    rw [Expression.layout]
    exact (fragment.composed (by simpa [Expression.given] using h)).part

theorem Expression.allComposed : (expressions : List Expression) →
    (∀ g ∈ Expression.allGiven expressions, p g) → Parts p (Expression.layouts expressions)
  | [], _ => by
    rw [Expression.layouts]
    exact .nil
  | e :: rest, h => by
    simp only [Expression.allGiven, List.forall_mem_append] at h
    rw [Expression.layouts]
    exact .cons (e.composed h.1) (Expression.allComposed rest h.2)

theorem SelectItem.composed : (item : SelectItem) → (∀ g ∈ item.given, p g) → IsPart p item.layout
  | ⟨expression, label⟩, h => by
    simp only [SelectItem.given, List.forall_mem_append] at h
    rw [SelectItem.layout]
    exact .aliased (expression.composed h.1) h.2

theorem SelectItem.allComposed : (items : List SelectItem) →
    (∀ g ∈ SelectItem.allGiven items, p g) → Parts p (SelectItem.layouts items)
  | [], _ => by
    rw [SelectItem.layouts]
    exact .nil
  | item :: rest, h => by
    simp only [SelectItem.allGiven, List.forall_mem_append] at h
    rw [SelectItem.layouts]
    exact .cons (item.composed h.1) (SelectItem.allComposed rest h.2)

theorem Source.composed : (s : Source) → (∀ g ∈ s.given, p g) → IsPart p s.layout
  | ⟨table, some q, label⟩, h => by
    simp only [Source.given, Query.optionGiven, List.forall_mem_append] at h
    rw [Source.layout]
    exact .aliased (Composed.parenthesized (a := .clear) (q.composed h.1.2)).part h.2
  | ⟨some table, none, label⟩, h => by
    simp only [Source.given, List.forall_mem_append] at h
    rw [Source.layout]
    split
    · exact .part (a := .clear) .noSource
    · exact .aliased (.verbatim (h.1.1 _ (by simp [Given.label, Given.names]))) h.2
  | ⟨none, none, label⟩, _ => by
    rw [Source.layout]
    exact .part (a := .clear) .noSource

theorem Source.lineComposed : (source : Option Source) →
    (∀ g ∈ Source.optionGiven source, p g) → IsTail p (Source.line source)
  | none, _ => by
    rw [Source.line]
    exact .sourceless
  | some s, h => by
    rw [Source.line]
    exact .cons (.keyword (by decide)) (.single (s.composed (by simpa [Source.optionGiven] using h)))

theorem JoinTarget.composed : (t : JoinTarget) → (∀ g ∈ t.given, p g) → IsPart p t.layout
  | .table name, h => by
    rw [JoinTarget.layout]
    exact .verbatim (by simpa [JoinTarget.given] using h)
  | .query q, h => by
    have made := q.composed (by simpa [JoinTarget.given] using h)
    rw [JoinTarget.layout]
    exact (Composed.parenthesized (a := .clear) made).part

theorem Join.composed : (j : Join) → (∀ g ∈ j.given, p g) → IsPart p j.layout
  | ⟨kind, target, label, on⟩, h => by
    simp only [Join.given, List.forall_mem_append] at h
    rw [Join.layout.eq_def]
    refine .cons (.keyword (by cases kind <;> decide))
      (.cons (.aliased (target.composed h.1.1) h.1.2) (.single (b := .loose) ?_))
    split
    · exact .nil
    · exact .nil
    · rename_i fragment _
      have made := fragment.composed (by simpa [Fragment.optionGiven] using h.2)
      exact .cons (.keyword (by decide)) (.single made.part)

theorem Join.allComposed : (joins : List Join) → (∀ g ∈ Join.allGiven joins, p g) →
    Parts p (Join.layouts joins)
  | [], _ => by
    rw [Join.layouts]
    exact .nil
  | j :: rest, h => by
    simp only [Join.allGiven, List.forall_mem_append] at h
    rw [Join.layouts]
    exact .cons (j.composed h.1) (Join.allComposed rest h.2)

theorem OrderItem.composed : (item : OrderItem) → (∀ g ∈ item.given, p g) → IsPart p item.layout
  | ⟨expression, none⟩, h => by
    simp only [OrderItem.given, List.forall_mem_append] at h
    rw [OrderItem.layout]
    exact expression.composed h.1
  | ⟨expression, some direction⟩, h => by
    simp only [OrderItem.given, List.forall_mem_append] at h
    have ordered := expression.composed h.1
    have named : p (.name direction) := h.2 _ (by simp [Given.label, Given.names])
    rw [OrderItem.layout]
    split
    · exact ordered
    · exact .cons ordered (.cons (.keyword (by decide)) (.single (.verbatim named)))

theorem OrderItem.allComposed : (items : List OrderItem) →
    (∀ g ∈ OrderItem.allGiven items, p g) → Parts p (OrderItem.layouts items)
  | [], _ => by
    rw [OrderItem.layouts]
    exact .nil
  | item :: rest, h => by
    simp only [OrderItem.allGiven, List.forall_mem_append] at h
    rw [OrderItem.layouts]
    exact .cons (item.composed h.1) (OrderItem.allComposed rest h.2)

theorem CteBody.composed : (body : CteBody) → (∀ g ∈ body.given, p g) → IsPart p body.layout
  | .query q, h => by
    rw [CteBody.layout]
    exact q.composed (by simpa [CteBody.given] using h)
  | .raw fragment, h => by
    rw [CteBody.layout]
    exact (fragment.composed (by simpa [CteBody.given] using h)).part

theorem Cte.composed : (c : Cte) → (∀ g ∈ c.given, p g) → IsPart p c.layout
  | ⟨name, columns, body, isRecursive⟩, h => by
    simp only [Cte.given, List.forall_mem_cons, List.forall_mem_append] at h
    rw [Cte.layout]
    exact .part (.cons (.verbatim h.1) (.cons (.columnList h.2.1) (.cons (.keyword (by decide))
      (.single (.parenthesized (body.composed h.2.2))))))

theorem Cte.allComposed : (ctes : List Cte) → (∀ g ∈ Cte.allGiven ctes, p g) →
    Parts p (Cte.layouts ctes)
  | [], _ => by
    rw [Cte.layouts]
    exact .nil
  | c :: rest, h => by
    simp only [Cte.allGiven, List.forall_mem_append] at h
    rw [Cte.layouts]
    exact .cons (c.composed h.1) (Cte.allComposed rest h.2)

theorem SetOperation.composed : (s : SetOperation) → (∀ g ∈ s.given, p g) → IsPart p s.layout
  | ⟨operator, q⟩, h => by
    rw [SetOperation.layout]
    exact .cons (.keyword (by cases operator <;> decide))
      (.single (q.composed (by simpa [SetOperation.given] using h)))

theorem SetOperation.allComposed : (operations : List SetOperation) →
    (∀ g ∈ SetOperation.allGiven operations, p g) →
    Parts p (SetOperation.layouts operations)
  | [], _ => by
    rw [SetOperation.layouts]
    exact .nil
  | s :: rest, h => by
    simp only [SetOperation.allGiven, List.forall_mem_append] at h
    rw [SetOperation.layouts]
    exact .cons (s.composed h.1) (SetOperation.allComposed rest h.2)

/-- What holds of all that a query gives holds of every part of its layout. -/
theorem Query.composed : (q : Query) → (∀ g ∈ q.given, p g) → IsPart p q.layout
  | ⟨ctes, distinct, selection, source, joins, conditions, grouping, having, setOperations,
      ordering, limit, offset⟩, h => by
    simp only [Query.given, List.forall_mem_append] at h
    obtain ⟨⟨⟨⟨⟨⟨⟨⟨⟨⟨hctes, hselection⟩, hsource⟩, hjoins⟩, hconditions⟩, hgrouping⟩, hhaving⟩,
      hoperations⟩, hordering⟩, hlimit⟩, hoffset⟩ := h
    have items := SelectItem.allComposed selection hselection
    have body : IsPart p (match SelectItem.layouts selection with
        | [] => .keyword "*"
        | items => .joined ", " items) := by
      split
      · exact .part (a := .clear) (.keyword (by decide))
      · exact .joined (by decide) items
    have withs : Parts p (Layout.clause
        (if ctes.any (·.isRecursive) then "WITH RECURSIVE " else "WITH ") ", " (Cte.layouts ctes)) :=
      .clause (by split <;> decide) (by decide) (Cte.allComposed ctes hctes)
    have word : isWord (if distinct then "SELECT DISTINCT " else "SELECT ") = true := by
      split <;> decide
    have start := Composed.cons (a := .clear) (.keyword word)
      (.cons body (.single (Source.lineComposed source hsource)))
    have filters : Parts p (Layout.groupedClause "WHERE " (Condition.layouts .full conditions)) :=
      .groupedClause (by decide) (Condition.allComposed conditions hconditions)
    have groups : Parts p (Layout.clause "GROUP BY " ", " (Expression.layouts grouping)) :=
      .clause (by decide) (by decide) (Expression.allComposed grouping hgrouping)
    have groupFilters : Parts p (Layout.groupedClause "HAVING " (Condition.layouts .full having)) :=
      .groupedClause (by decide) (Condition.allComposed having hhaving)
    have orders : Parts p (Layout.clause "ORDER BY " ", " (OrderItem.layouts ordering)) :=
      .clause (by decide) (by decide) (OrderItem.allComposed ordering hordering)
    rw [Query.layout]
    exact .joined (by decide) (withs |>.append (.single start)
      |>.append (Join.allComposed joins hjoins) |>.append filters |>.append groups
      |>.append groupFilters |>.append (SetOperation.allComposed setOperations hoperations)
      |>.append orders |>.append (.plain (by decide) hlimit) |>.append (.plain (by decide) hoffset))

end

end Layouts

end SqlComposition
