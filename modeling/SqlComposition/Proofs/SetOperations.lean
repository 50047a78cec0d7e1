import SqlComposition.Builder.Method

/-!
Members of set operations. A member is written as it stands, with nothing around it, so the lines at its
end are lines of the whole. Where it is the last member, its own ordering, limit, offset and set operations
read as those of the chain, and the two queries that say one or the other have one text.
-/

namespace SqlComposition

namespace Layout

theorem pieces_joined_cons (separator : String) (first : Layout) (rest : List Layout) :
    (joined separator (first :: rest)).pieces =
      first.pieces ++ rest.flatMap fun part => .text separator :: part.pieces := by
  induction rest generalizing first with
  | nil => simp [joined, separated]
  | cons next others ih =>
    have later := ih next
    simp only [joined, pieces_series] at later ⊢
    simp [separated, pieces, later]

/-- Lines at the end of the last of several parts are lines of the whole. -/
theorem pieces_joined_nested (separator word : String) {before own : List Layout}
    (hb : before ≠ []) (ho : own ≠ []) (last : List Layout) :
    (joined separator (before ++ [series [keyword word, joined separator (own ++ last)]])).pieces =
      (joined separator (before ++ [series [keyword word, joined separator own]] ++ last)).pieces := by
  have nested (lines : List Layout) : (series [keyword word, joined separator lines]).pieces =
      .text word :: (joined separator lines).pieces := by
    rw [pieces_series, List.flatMap_cons, List.flatMap_singleton, pieces, List.singleton_append]
  obtain ⟨first, others, rfl⟩ := List.exists_cons_of_ne_nil hb
  obtain ⟨line, lines, rfl⟩ := List.exists_cons_of_ne_nil ho
  simp only [List.cons_append, List.nil_append, List.append_assoc, pieces_joined_cons, nested,
    List.flatMap_append, List.flatMap_cons, List.flatMap_nil, List.append_nil]

end Layout

open Layout

theorem SetOperation.layouts_append (a b : List SetOperation) :
    SetOperation.layouts (a ++ b) = SetOperation.layouts a ++ SetOperation.layouts b := by
  induction a with
  | nil => rw [SetOperation.layouts, List.nil_append, List.nil_append]
  | cons s rest ih => rw [List.cons_append, layouts, ih, layouts, List.cons_append]

namespace Query

/-- The lines of a query up to its set operations. -/
def opening (q : Query) : List Layout :=
  clause (if q.ctes.any (·.isRecursive) then "WITH RECURSIVE " else "WITH ") ", "
      (Cte.layouts q.ctes) ++
    [series [
      keyword (if q.distinct then "SELECT DISTINCT " else "SELECT "),
      match SelectItem.layouts q.selection with
      | [] => keyword "*"
      | items => joined ", " items,
      Source.line q.source]] ++
    Join.layouts q.joins ++
    groupedClause "WHERE " (Condition.layouts .full q.conditions) ++
    clause "GROUP BY " ", " (Expression.layouts q.grouping) ++
    groupedClause "HAVING " (Condition.layouts .full q.having)

/-- The lines from the first set operation on. -/
def closing (q : Query) : List Layout :=
  SetOperation.layouts q.setOperations ++ clause "ORDER BY " ", " (OrderItem.layouts q.ordering) ++
    plain "LIMIT " q.limit ++ plain "OFFSET " q.offset

theorem opening_ne_nil (q : Query) : q.opening ≠ [] := by
  simp [opening]

theorem layout_eq_lines (q : Query) : q.layout = joined "\n" (q.opening ++ q.closing) := by
  cases q
  rw [layout, closing, ← List.append_assoc, ← List.append_assoc, ← List.append_assoc]
  rfl

/-- Two queries that neither form tells apart. -/
def SameText (q q' : Query) : Prop :=
  q.inlined = q'.inlined ∧ ∀ placeholder, q.bound placeholder = q'.bound placeholder

theorem SameText.of_pieces {q q' : Query} (h : q.layout.pieces = q'.layout.pieces) :
    SameText q q' := by
  refine ⟨?_, fun placeholder => ?_⟩
  · rw [inlined, inlined, Layout.inlined, Layout.inlined, h]
  · rw [bound, bound, Layout.bound, Layout.bound, h]

/-- A query that nothing orders, limits or shifts. -/
structure IsOpen (q : Query) : Prop where
  ordering : q.ordering = []
  limit : q.limit = none
  offset : q.offset = none

theorem IsOpen.closing {q : Query} (h : q.IsOpen) :
    q.closing = SetOperation.layouts q.setOperations := by
  simp [Query.closing, h.ordering, h.limit, h.offset, OrderItem.layouts, clause, plain]

/-- A change that puts lines at the end of every open query. -/
def Appends (change : Query → Query) (last : List Layout) : Prop :=
  ∀ q : Query, q.IsOpen →
    (change q).opening = q.opening ∧ (change q).closing = q.closing ++ last

theorem Appends.layout {change : Query → Query} {last : List Layout} (h : Appends change last)
    {q : Query} (hq : q.IsOpen) :
    (change q).layout = joined "\n" (q.opening ++ q.closing ++ last) := by
  obtain ⟨opening, closing⟩ := h q hq
  rw [layout_eq_lines, opening, closing, List.append_assoc]

namespace Appends
open Edit

theorem setLimit (rows : Value) : Appends (setLimit rows) (plain "LIMIT " (bound? rows)) := by
  intro q hq
  refine ⟨rfl, ?_⟩
  rw [hq.closing]
  simp [Query.closing, Edit.setLimit, hq.ordering, hq.offset, OrderItem.layouts, clause,
    plain]

theorem setOffset (rows : Value) : Appends (setOffset rows) (plain "OFFSET " (bound? rows)) := by
  intro q hq
  refine ⟨rfl, ?_⟩
  rw [hq.closing]
  simp [Query.closing, Edit.setOffset, hq.ordering, hq.limit, OrderItem.layouts, clause,
    plain]

theorem addOrdering (item : OrderItem) :
    Appends (addOrdering item) (clause "ORDER BY " ", " (OrderItem.layouts [item])) := by
  intro q hq
  refine ⟨rfl, ?_⟩
  rw [hq.closing]
  simp [Query.closing, Edit.addOrdering, hq.ordering, hq.limit, hq.offset, plain]

theorem addSetOperation (operator : SetOperator) (member : Query) :
    Appends (addSetOperation operator member)
      [series [keyword (operator.keyword ++ "\n"), member.layout]] := by
  intro q hq
  refine ⟨rfl, ?_⟩
  rw [hq.closing]
  simp [Query.closing, Edit.addSetOperation, SetOperation.layouts_append, hq.ordering,
    hq.limit, hq.offset, SetOperation.layouts, SetOperation.layout, OrderItem.layouts, clause, plain]

end Appends

open Edit

/-- What is put at the end of the last member of a chain is put at the end of the chain. -/
theorem SameText.of_appends {change : Query → Query} {last : List Layout}
    (h : Appends change last) {a b : Query} (ha : a.IsOpen) (hb : b.IsOpen)
    (operator : SetOperator) :
    SameText (addSetOperation operator (change b) a) (change (addSetOperation operator b a)) := by
  have chain : (addSetOperation operator b a).IsOpen := ⟨ha.ordering, ha.limit, ha.offset⟩
  have before : a.opening ++ a.closing ≠ [] := by simp [a.opening_ne_nil]
  have own : b.opening ++ b.closing ≠ [] := by simp [b.opening_ne_nil]
  have nested := pieces_joined_nested "\n" (operator.keyword ++ "\n") before own last
  obtain ⟨opening, closing⟩ := Appends.addSetOperation operator b a ha
  apply SameText.of_pieces
  rw [(Appends.addSetOperation operator (change b)).layout ha, h.layout hb, h.layout chain, opening,
    closing, layout_eq_lines b, ← List.append_assoc]
  simpa using nested

/-- Where nothing else orders, limits or shifts a chain or its last member, what the member has at its end
cannot be told from what the chain has at its end: a limit, an offset, an ordering and a set operation of
the member are all written as those of the chain. -/
theorem member_ends_chain {a b : Query} (ha : a.IsOpen) (hb : b.IsOpen) (c : Query)
    (operator inner : SetOperator) (rows : Value) (item : OrderItem) :
    SameText (addSetOperation operator (setLimit rows b) a)
        (setLimit rows (addSetOperation operator b a)) ∧
      SameText (addSetOperation operator (setOffset rows b) a)
        (setOffset rows (addSetOperation operator b a)) ∧
      SameText (addSetOperation operator (addOrdering item b) a)
        (addOrdering item (addSetOperation operator b a)) ∧
      SameText (addSetOperation operator (addSetOperation inner c b) a)
        (addSetOperation inner c (addSetOperation operator b a)) :=
  ⟨.of_appends (.setLimit rows) ha hb operator, .of_appends (.setOffset rows) ha hb operator,
    .of_appends (.addOrdering item) ha hb operator,
    .of_appends (.addSetOperation inner c) ha hb operator⟩

def namesOf (table : String) : Query :=
  { selection := [⟨.name "name", none⟩], source := some ⟨some table, none, none⟩ }

theorem namesOf_isOpen (table : String) : (namesOf table).IsOpen :=
  ⟨rfl, rfl, rfl⟩

theorem member_limit_ends_chain :
    SameText (addSetOperation .union (setLimit (.int 1) (namesOf "u")) (namesOf "t"))
        (setLimit (.int 1) (addSetOperation .union (namesOf "u") (namesOf "t"))) ∧
      (addSetOperation .union (setLimit (.int 1) (namesOf "u")) (namesOf "t")).inlined =
        .ok "SELECT name\nFROM t\nUNION\nSELECT name\nFROM u\nLIMIT 1" :=
  ⟨(member_ends_chain (namesOf_isOpen "t") (namesOf_isOpen "u") .empty .union .union (.int 1)
    ⟨.name "name", none⟩).1, rfl⟩

end Query

end SqlComposition
