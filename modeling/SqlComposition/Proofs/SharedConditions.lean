import SqlComposition.Proofs.Interleaving
import SqlComposition.Proofs.SetOperations
import SqlComposition.Session.Call

/-!
Conditions are one thing wherever they are called for. The same calls with the same arguments, made on a
builder, an UPDATE or a DELETE, or made as conditions for the groups of a builder, leave the same list of
conditions, and it is written as the same text. What stands around that text does not depend on it.
-/

namespace SqlComposition
open SqlComposition.Action Store

/-! ## Text around a clause -/

/-- A text in three parts, written from left to right. -/
def around (front clause back : Except Failure String) : Except Failure String := do
  let before ← front
  let text ← clause
  let behind ← back
  return before ++ text ++ behind

namespace Piece

theorem inlined_around (a b c : List Piece) :
    inlined (a ++ (b ++ c)) = around (inlined a) (inlined b) (inlined c) := by
  rw [inlined_append_eq, inlined_append_eq, around]
  cases inlined a <;> cases inlined b <;> cases inlined c <;>
    simp [bind, Except.bind, pure, Except.pure, String.append_assoc]

end Piece

/-- Lines are written from top to bottom. -/
theorem Layout.inlined_joined {before : List Layout} (hb : before ≠ []) (middle behind : List Layout) :
    (joined "\n" (before ++ middle ++ behind)).inlined =
      around (joined "\n" before).inlined
        (Piece.inlined (middle.flatMap fun part => .text "\n" :: part.pieces))
        (Piece.inlined (behind.flatMap fun part => .text "\n" :: part.pieces)) := by
  obtain ⟨first, rest, rfl⟩ := List.exists_cons_of_ne_nil hb
  rw [Layout.inlined, List.append_assoc, List.cons_append, pieces_joined_cons, List.flatMap_append,
    List.flatMap_append, ← List.append_assoc, ← pieces_joined_cons, Piece.inlined_around]
  rfl

namespace Condition

/-- The text of conditions, as it stands after the word for them. -/
def written (conditions : List Condition) : Except Failure String :=
  (Grouping.layout (layouts .full conditions)).inlined

/-- Without conditions there is neither word nor text. -/
def clause (word : String) (conditions : List Condition) : Except Failure String :=
  if conditions.isEmpty then .ok "" else (written conditions).map (word ++ ·)

end Condition

/-- What can have conditions: the rows of a query, its groups, an UPDATE and a DELETE. -/
inductive Filtered where
  | rows | groups | update | delete
  deriving DecidableEq, Repr

namespace Filtered

/-- A call by this name adds a condition of this filter. -/
def HasFilter (x : Filtered) (name : String) (f : Filter) : Prop :=
  match x with
  | rows => Method.ofName? name = some (.filter f)
  | groups => Method.ofName? name = some (.having f)
  | update => Statement.Method.ofName? .update name = some (.filter f)
  | delete => Statement.Method.ofName? .delete name = some (.filter f)

instance (x : Filtered) (name : String) (f : Filter) : Decidable (x.HasFilter name f) :=
  match x with
  | rows | groups | update | delete => inferInstanceAs (Decidable (_ = _))

/-- The name that a filter is called by: the groups of a query have names of their own, for some filters. -/
def nameOf? (x : Filtered) (name : String) : Option String :=
  match x with
  | groups =>
    match name with
    | "where" => some "having"
    | "or_where" => some "or_having"
    | "where_raw" => some "having_raw"
    | "or_where_raw" => some "or_having_raw"
    | _ => none
  | rows | update | delete => some name

theorem hasFilter_of_name {x : Filtered} {name own : String} {f : Filter}
    (h : Filter.ofName? name = some f) (ho : x.nameOf? name = some own) : x.HasFilter own f := by
  have other {word : String} (none : Filter.ofName? word = none) : name ≠ word := by
    rintro rfl
    cases h.symm.trans none
  have statement (kind : StatementKind) (hk : kind ≠ .insert) :
      Statement.Method.ofName? kind name = some (.filter f) := by
    unfold Statement.Method.ofName?
    split
    · exact absurd rfl (other (by decide +kernel))
    · exact absurd rfl (other (by decide +kernel))
    · exact absurd rfl hk
    · exact absurd rfl (other (by decide +kernel))
    · rw [h]
      rfl
  cases x with
  | rows =>
    obtain rfl := Option.some.inj ho
    rw [HasFilter, Method.ofName?, h]
  | groups =>
    have same (g : Filter) {word : String} (hg : Filter.ofName? name = some g) (hw : groups.HasFilter word g)
        (ho : some word = some own) : groups.HasFilter own f := by
      obtain rfl := Option.some.inj ho
      exact Option.some.inj (hg.symm.trans h) ▸ hw
    unfold nameOf? at ho
    dsimp only at ho
    split at ho
    · exact same ⟨.and, .compare⟩ (by decide +kernel) (by decide +kernel) ho
    · exact same ⟨.or, .compare⟩ (by decide +kernel) (by decide +kernel) ho
    · exact same ⟨.and, .raw⟩ (by decide +kernel) (by decide +kernel) ho
    · exact same ⟨.or, .raw⟩ (by decide +kernel) (by decide +kernel) ho
    · cases ho
  | update =>
    obtain rfl := Option.some.inj ho
    exact statement .update (by decide)
  | delete =>
    obtain rfl := Option.some.inj ho
    exact statement .delete (by decide)

/-- Calls by their names, of filters with the same arguments. -/
def Asks (x : Filtered) : List (String × List Value) → List (Filter × List Value) → Prop :=
  List.Forall₂ fun c a => x.HasFilter c.1 a.1 ∧ c.2 = a.2

/-- Calls by the names of filters ask for these filters. -/
theorem asks_of_names {x : Filtered} {asked : List (Filter × List Value)} {names own : List String}
    (h : List.Forall₂ (fun name a => Filter.ofName? name = some a.1) names asked)
    (ho : List.Forall₂ (fun name word => x.nameOf? name = some word) names own) :
    x.Asks (own.zip (asked.map Prod.snd)) asked := by
  induction h generalizing own with
  | nil =>
    cases ho
    exact .nil
  | cons first _ ih =>
    cases ho with
    | cons named others => exact .cons ⟨hasFilter_of_name first named, rfl⟩ (ih others)

def call (x : Filtered) (number : Nat) (name : String) (arguments : List Value) : Action Unit :=
  match x with
  | rows | groups => Action.callBuilder number name arguments
  | update => Statement.call .update number name arguments
  | delete => Statement.call .delete number name arguments

/-- Calls of one object, each with its name and its arguments. -/
def callAll (x : Filtered) (number : Nat) (calls : List (String × List Value)) : Action Unit :=
  calls.forM fun c => x.call number c.1 c.2

def conditions? : Filtered → Content → Option (List Condition)
  | rows, .builder b => some b.query.conditions
  | groups, .builder b => some b.query.having
  | update, .statement s => if s.kind = .update then some s.conditions else none
  | delete, .statement s => if s.kind = .delete then some s.conditions else none
  | _, _ => none

/-- The contents with other conditions. -/
def put (x : Filtered) (conditions : List Condition) (c : Content) : Content :=
  match x, c with
  | rows, .builder b => .builder { b with query := { b.query with conditions } }
  | groups, .builder b => .builder { b with query := { b.query with having := conditions } }
  | update, .statement s => .statement { s with conditions }
  | delete, .statement s => .statement { s with conditions }
  | _, other => other

/-- What is written before the text of the conditions. -/
def word : Filtered → String
  | rows => "\nWHERE "
  | groups => "\nHAVING "
  | update | delete => " WHERE "

variable {x : Filtered} {content : Content} {conditions : List Condition}

theorem put_conditions (h : x.conditions? content = some conditions) :
    x.put conditions content = content := by
  cases x <;> cases content <;> simp only [conditions?, Option.some.injEq, reduceCtorEq,
    Option.ite_none_right_eq_some] at h
  case rows.builder b =>
    obtain ⟨_, ⟨⟩⟩ := b
    subst h
    rfl
  case groups.builder b =>
    obtain ⟨_, ⟨⟩⟩ := b
    subst h
    rfl
  · obtain ⟨-, rfl⟩ := h
    rfl
  · obtain ⟨-, rfl⟩ := h
    rfl

theorem conditions_put (h : x.conditions? content = some conditions) (others : List Condition) :
    x.conditions? (x.put others content) = some others := by
  cases x <;> cases content <;> simp_all [conditions?, put]

theorem put_put (others more : List Condition) :
    x.put more (x.put others content) = x.put more content := by
  cases x <;> cases content <;> rfl

/-- Looked at, an object has its conditions with all that is in them looked at. -/
theorem conditions_shownBy (h : x.conditions? content = some conditions)
    (inside : Nat → Option Content) :
    x.conditions? (content.shownBy inside) =
      some (conditions.map (·.mapObjects (·.shownBy inside))) := by
  cases x <;> cases content <;> simp [conditions?] at h
  · rw [Content.shownBy, conditions?, Query.mapObjects_eq, h]
  · rw [Content.shownBy, conditions?, Query.mapObjects_eq, h]
  · rw [Content.shownBy, conditions?, Statement.mapData, if_pos h.1, h.2]
  · rw [Content.shownBy, conditions?, Statement.mapData, if_pos h.1, h.2]

/-! ## How conditions are written -/

open Layout

/-- Lines before the conditions, those of the conditions and lines behind. -/
theorem inlined_lines {before : List Layout} (hb : before ≠ []) (word : String)
    (conditions : List Condition) (behind : List Layout) :
    (joined "\n" (before ++ groupedClause word (Condition.layouts .full conditions) ++ behind)).inlined =
      around (joined "\n" before).inlined (Condition.clause ("\n" ++ word) conditions)
        (Piece.inlined (behind.flatMap fun part => .text "\n" :: part.pieces)) := by
  have clause : Piece.inlined ((groupedClause word (Condition.layouts .full conditions)).flatMap
      fun part => .text "\n" :: part.pieces) = Condition.clause ("\n" ++ word) conditions := by
    cases conditions with
    | nil => rfl
    | cons c others =>
      have some : groupedClause word (Condition.layouts .full (c :: others)) =
          [series [keyword word, Grouping.layout (Condition.layouts .full (c :: others))]] := by
        rw [Condition.layouts]
        rfl
      rw [some, List.flatMap_singleton, pieces_series, List.flatMap_cons, List.flatMap_singleton, pieces,
        List.singleton_append, Piece.inlined_text, Piece.inlined_text]
      change ((Condition.written (c :: others)).map _).map _ = (Condition.written (c :: others)).map _
      cases Condition.written (c :: others) <;> simp [Except.map, String.append_assoc]
  rw [inlined_joined hb, clause]

/-- The lines of a query before its conditions. -/
def heading (q : Query) : List Layout :=
  clause (if q.ctes.any (·.isRecursive) then "WITH RECURSIVE " else "WITH ") ", " (Cte.layouts q.ctes) ++
    [series [
      keyword (if q.distinct then "SELECT DISTINCT " else "SELECT "),
      match SelectItem.layouts q.selection with
      | [] => keyword "*"
      | items => joined ", " items,
      Source.line q.source]] ++
    Join.layouts q.joins

theorem heading_ne_nil (q : Query) : heading q ≠ [] := by
  simp [heading]

theorem rows_around (q : Query) : ∃ front back, ∀ conditions,
    Query.inlined { q with conditions } =
      around front (Condition.clause "\nWHERE " conditions) back := by
  let behind := clause "GROUP BY " ", " (Expression.layouts q.grouping) ++
    (groupedClause "HAVING " (Condition.layouts .full q.having) ++ q.closing)
  have lines (conditions : List Condition) : Query.layout { q with conditions } =
      joined "\n" (heading q ++ groupedClause "WHERE " (Condition.layouts .full conditions) ++ behind) := by
    rw [Query.layout_eq_lines, Query.opening, List.append_assoc, List.append_assoc]
    rfl
  exact ⟨_, _, fun conditions => (congrArg Layout.inlined (lines conditions)).trans
    (inlined_lines (heading_ne_nil q) "WHERE " conditions behind)⟩

theorem groups_around (q : Query) : ∃ front back, ∀ conditions,
    Query.inlined { q with having := conditions } =
      around front (Condition.clause "\nHAVING " conditions) back := by
  let before := heading q ++ groupedClause "WHERE " (Condition.layouts .full q.conditions) ++
    clause "GROUP BY " ", " (Expression.layouts q.grouping)
  have some : before ≠ [] := by simp [before, heading_ne_nil]
  have lines (conditions : List Condition) : Query.layout { q with having := conditions } =
      joined "\n" (before ++ groupedClause "HAVING " (Condition.layouts .full conditions) ++ q.closing) := by
    rw [Query.layout_eq_lines, Query.opening]
    rfl
  exact ⟨_, _, fun conditions => (congrArg Layout.inlined (lines conditions)).trans
    (inlined_lines some "HAVING " conditions q.closing)⟩

theorem conditionsText_eq (conditions : List Condition) (count : Nat) :
    ∃ count', Statement.conditionsText conditions count =
      Writing.ofExcept (Condition.clause " WHERE " conditions) count' := by
  cases conditions with
  | nil => exact ⟨count, rfl⟩
  | cons c others =>
    exact ⟨_, Statement.conditionsText_run c others count⟩

/-- Writing that comes to a text around conditions. -/
theorem outcome_around (front : Writing String) (conditions : List Condition) (back : Except Failure String) :
    (Writing.outcome do
      let before ← front
      let text ← Statement.conditionsText conditions
      let behind ← Writing.ofExcept back
      return before ++ text ++ behind).1 =
      around (Writing.outcome front).1 (Condition.clause " WHERE " conditions) back := by
  have run : (do
      let before ← front
      let text ← Statement.conditionsText conditions
      let behind ← Writing.ofExcept back
      return before ++ text ++ behind : Writing String) =
      EStateM.bind front fun before => EStateM.bind (Statement.conditionsText conditions) fun text =>
        EStateM.bind (Writing.ofExcept back) fun behind => EStateM.pure (before ++ text ++ behind) := rfl
  rw [run, Writing.outcome, Writing.outcome, EStateM.bind]
  cases front 0 with
  | error failure count => rfl
  | ok before count =>
    obtain ⟨count', text⟩ := conditionsText_eq conditions count
    simp only [EStateM.bind, text]
    cases Condition.clause " WHERE " conditions <;> cases back <;> rfl

theorem update_around (s : Statement) : ∃ front back, ∀ conditions,
    (Writing.outcome (Statement.updateText { s with conditions })).1 =
      around front (Condition.clause " WHERE " conditions) back := by
  let front : Writing String := do
    if s.assignments.isEmpty then throw (.noData "update")
    let assignments ← s.assignments.mapM Statement.assignmentText
    let table ← s.table.write
    return "UPDATE " ++ table ++ " SET " ++ ", ".intercalate assignments
  refine ⟨(Writing.outcome front).1, Statement.returningText s.returning, fun conditions => ?_⟩
  rw [← outcome_around]
  cases none : s.assignments.isEmpty
  · simp only [Statement.updateText, front, none, Bool.false_eq_true, if_false, bind_assoc, pure_bind]
  · simp only [Statement.updateText, front, none, if_true]
    rfl

theorem delete_around (s : Statement) : ∃ front back, ∀ conditions,
    (Writing.outcome (Statement.deleteText { s with conditions })).1 =
      around front (Condition.clause " WHERE " conditions) back := by
  let front : Writing String := do
    let table ← s.table.write
    return "DELETE FROM " ++ table
  refine ⟨(Writing.outcome front).1, Statement.returningText s.returning, fun conditions => ?_⟩
  rw [← outcome_around]
  simp only [Statement.deleteText, front, bind_assoc, pure_bind]

/-- What stands around the text of the conditions does not depend on them. -/
theorem rendition_around (h : x.conditions? content = some conditions) : ∃ front back, ∀ others,
    (x.put others content).rendition.text = around front (Condition.clause x.word others) back := by
  cases x <;> cases content <;> simp only [conditions?, reduceCtorEq, Option.ite_none_right_eq_some] at h
  case rows.builder b =>
    simpa only [put, word, Content.rendition, Query.rendition_eq] using rows_around b.query
  case groups.builder b =>
    simpa only [put, word, Content.rendition, Query.rendition_eq] using groups_around b.query
  case update.statement s =>
    obtain ⟨front, back, text⟩ := update_around s
    refine ⟨front, back, fun others => (Eq.trans ?_ (text others))⟩
    rw [put, Content.rendition, Statement.rendition, Statement.text, h.1]
  case delete.statement s =>
    obtain ⟨front, back, text⟩ := delete_around s
    refine ⟨front, back, fun others => (Eq.trans ?_ (text others))⟩
    rw [put, Content.rendition, Statement.rendition, Statement.text, h.1]

/-- With all that is in it as it is written, an object has these conditions, and it is written as their
text with what stands around it. -/
def Shows (x : Filtered) (s : Store) (number : Nat) (conditions : List Condition) : Prop :=
  ∃ c front back, s.shown number = some c ∧ x.conditions? c = some conditions ∧
    (∀ others, (x.put others c).rendition.text = around front (Condition.clause x.word others) back) ∧
    (s.rendition number).text = around front (Condition.clause x.word conditions) back

theorem shows_of_content {s : Store} {number : Nat} (hc : s.content? number = some content)
    (h : x.conditions? content = some conditions) :
    x.Shows s number (conditions.map (·.mapObjects (s.lookFrom number))) := by
  have shown : s.shown number =
      some (content.shownBy (s.shownWithin s.contents.length [number])) := by
    rw [Store.shown, shownWithin, if_neg (by simp), hc]
    rfl
  have looked : x.conditions? (content.shownBy (s.shownWithin s.contents.length [number])) =
      some (conditions.map (·.mapObjects (s.lookFrom number))) := conditions_shownBy h _
  obtain ⟨front, back, text⟩ := rendition_around looked
  refine ⟨_, front, back, shown, looked, text, ?_⟩
  rw [rendition, shown, ← text, put_conditions looked]
  rfl

end Filtered

/-! ## Runs of calls -/

theorem Test.predicate_ok {call : String} {test : Test} {arguments : List Value} {setting : Setting}
    {stage after : Stage} {p : Predicate}
    (h : test.predicate call arguments setting stage = .ok p after) (other : String) :
    test.predicate other arguments setting stage = .ok p after := by
  unfold Test.predicate at h ⊢
  split at h <;> first | exact h | cases h

/-- The name of a call counts for nothing but for why it fails. -/
theorem Filter.condition_ok {call : String} {f : Filter} {arguments : List Value} {setting : Setting}
    {stage after : Stage} {c : Condition}
    (h : f.condition call arguments setting stage = .ok c after) (other : String) :
    f.condition other arguments setting stage = .ok c after := by
  obtain ⟨p, worked, tested, made⟩ := of_run_bind h
  rw [condition, run_bind (Test.predicate_ok tested other)]
  exact made

namespace Filtered

variable {x y : Filtered} {setting : Setting} {number : Nat} {stage stage' after after' : Stage}
  {content content' : Content} {conditions conditions' : List Condition}

theorem of_run_change {f : Filter} {call : String} {arguments : List Value}
    {add : Condition → Query → Query}
    (h : (Edit.change do return add (← f.condition call arguments)).apply number setting stage =
      .ok () after) :
    ∃ c worked b, f.condition call arguments setting stage = .ok c worked ∧
      worked.store.content? number = some (.builder b) ∧
      after.store = worked.store.set number (.builder { b with query := add c b.query }) := by
  rw [Edit.change, Edit.apply_cons] at h
  obtain ⟨_, _, step, rest⟩ := of_run_bind h
  obtain ⟨-, rfl⟩ := of_run_pure rest
  obtain ⟨change, worked, b, made, found, set⟩ := Edit.of_run_step step
  obtain ⟨c, _, tested, returned⟩ := of_run_bind made
  obtain ⟨rfl, rfl⟩ := of_run_pure returned
  exact ⟨c, _, b, tested, content?_of_builder? found, set⟩

theorem of_run_statement {f : Filter} {kind : StatementKind} {name : String} {arguments : List Value}
    (hm : Statement.Method.ofName? kind name = some (.filter f))
    (h : Statement.call kind number name arguments setting stage = .ok () after) :
    ∃ c worked s, f.condition (Filter.callName name) arguments setting stage = .ok c worked ∧
      worked.store.content? number = some (.statement s) ∧
      after.store = worked.store.set number (.statement (s.addCondition c)) := by
  rw [Statement.call, hm] at h
  obtain ⟨_, _, step, rest⟩ := of_run_bind h
  obtain ⟨-, rfl⟩ := of_run_pure rest
  obtain ⟨change, _, made, step⟩ := of_run_bind step
  obtain ⟨s, _, looked, step⟩ := of_run_bind step
  obtain ⟨c, _, tested, returned⟩ := of_run_bind made
  obtain ⟨rfl, rfl⟩ := of_run_pure returned
  obtain ⟨found, rfl⟩ := of_run_known looked
  cases step
  exact ⟨c, _, s, tested, content?_of_statement? found, rfl⟩

/-- A call that succeeds has worked out a condition and added it. -/
theorem of_run_call (hs : setting.Adds) {f : Filter} {name : String} {arguments : List Value}
    (hf : x.HasFilter name f) (hc : stage.store.content? number = some content)
    (own : x.conditions? content = some conditions)
    (h : x.call number name arguments setting stage = .ok () after) :
    ∃ c worked, f.condition "" arguments setting stage = .ok c worked ∧
      after.store = worked.store.set number (x.put (conditions ++ [c]) content) := by
  have still {call : String} {c : Condition} {worked : Stage}
      (h : f.condition call arguments setting stage = .ok c worked) :
      worked.store.content? number = some content := by
    have grown := (grown_of_run (fun _ => f.condition_adds hs call arguments) h).1
    rw [grown.content?_eq (List.getElem?_eq_some_iff.1 hc).1, hc]
  cases x with
  | rows =>
    rw [call, Action.callBuilder, show Method.ofName? name = _ from hf] at h
    obtain ⟨c, worked, b, tested, found, set⟩ := of_run_change h
    obtain rfl := Option.some.inj ((still tested).symm.trans found)
    obtain rfl := Option.some.inj own
    exact ⟨c, worked, Filter.condition_ok tested "", set⟩
  | groups =>
    rw [call, Action.callBuilder, show Method.ofName? name = _ from hf] at h
    obtain ⟨c, worked, b, tested, found, set⟩ := of_run_change h
    obtain rfl := Option.some.inj ((still tested).symm.trans found)
    obtain rfl := Option.some.inj own
    exact ⟨c, worked, Filter.condition_ok tested "", set⟩
  | update =>
    obtain ⟨c, worked, s, tested, found, set⟩ := of_run_statement hf h
    obtain rfl := Option.some.inj ((still tested).symm.trans found)
    obtain rfl := Option.some.inj (Option.ite_none_right_eq_some.1 own).2
    exact ⟨c, worked, Filter.condition_ok tested "", set⟩
  | delete =>
    obtain ⟨c, worked, s, tested, found, set⟩ := of_run_statement hf h
    obtain rfl := Option.some.inj ((still tested).symm.trans found)
    obtain rfl := Option.some.inj (Option.ite_none_right_eq_some.1 own).2
    exact ⟨c, worked, Filter.condition_ok tested "", set⟩

/-- What is put in the place of an object is there. -/
theorem content?_of_set {s t u : Store} (grown : s.Grown t) (hc : s.content? number = some content)
    {c : Content} (h : u = t.set number c) : u.content? number = some c := by
  have there := (List.getElem?_eq_some_iff.1 hc).1
  rw [h, content?_set t c (Nat.lt_of_lt_of_le there grown.length_le)]

/-- What one call leaves: a condition is added to the object that is called, and objects were added. -/
theorem changed_of_call (hs : setting.Adds) {f : Filter} {name : String} {arguments : List Value}
    (hf : x.HasFilter name f) (hc : stage.store.content? number = some content)
    (own : x.conditions? content = some conditions)
    (h : x.call number name arguments setting stage = .ok () after) :
    ∃ c worked, f.condition "" arguments setting stage = .ok c worked ∧
      after.store.content? number = some (x.put (conditions ++ [c]) content) ∧
      ChangedAt number stage.store after.store ∧ ChangedAt number worked.store after.store := by
  obtain ⟨c, worked, tested, set⟩ := of_run_call hs hf hc own h
  have grown := (grown_of_run (fun _ => f.condition_adds hs "" arguments) tested).1
  have changed : ChangedAt number worked.store after.store := set ▸ .set _ _ _
  exact ⟨c, worked, tested, content?_of_set grown hc set, .trans (.of_grown grown) changed, changed⟩

/-- Calls of one filter with the same arguments add conditions that look alike in the end. -/
theorem call_alike (hs : setting.Adds) {s t : Store} {f : Filter} {name name' : String}
    {arguments : List Value} (hf : x.HasFilter name f) (hf' : y.HasFilter name' f)
    (steady : ∀ v ∈ arguments, v.IsSteadyArgument setting number s t)
    (hb : ChangedAt number s stage.store) (hb' : ChangedAt number t stage'.store)
    (hc : stage.store.content? number = some content)
    (hc' : stage'.store.content? number = some content')
    (own : x.conditions? content = some conditions) (own' : y.conditions? content' = some conditions')
    (h : x.call number name arguments setting stage = .ok () after)
    (h' : y.call number name' arguments setting stage' = .ok () after') :
    ∃ c c', after.store.content? number = some (x.put (conditions ++ [c]) content) ∧
      after'.store.content? number = some (y.put (conditions' ++ [c']) content') ∧
      ChangedAt number stage.store after.store ∧ ChangedAt number stage'.store after'.store ∧
      Eventually number after.store after'.store fun f g => c.mapObjects f = c'.mapObjects g := by
  obtain ⟨c, worked, tested, held, changed, later⟩ := changed_of_call hs hf hc own h
  obtain ⟨c', worked', tested', held', changed', later'⟩ := changed_of_call hs hf' hc' own' h'
  have made := f.condition_alike hs "" steady hb hb' tested tested'
  exact ⟨c, c', held, held', changed, changed', made.later later later'⟩

theorem callAll_cons (c : String × List Value) (rest : List (String × List Value)) :
    x.callAll number (c :: rest) = x.call number c.1 c.2 >>= fun _ => x.callAll number rest := rfl

/-- By induction on the calls, side by side. What one of them has added stays alike, because later calls add
objects and change nothing but the object that is called. -/
theorem callAll_alike (hs : setting.Adds) {s t : Store} {asked : List (Filter × List Value)}
    {calls others : List (String × List Value)} (hx : x.Asks calls asked) (hy : y.Asks others asked)
    (steady : ∀ a ∈ asked, ∀ v ∈ a.2, v.IsSteadyArgument setting number s t)
    (hb : ChangedAt number s stage.store) (hb' : ChangedAt number t stage'.store)
    (hc : stage.store.content? number = some content)
    (hc' : stage'.store.content? number = some content')
    (own : x.conditions? content = some conditions) (own' : y.conditions? content' = some conditions')
    (h : x.callAll number calls setting stage = .ok () after)
    (h' : y.callAll number others setting stage' = .ok () after') :
    ∃ more more', more.length = asked.length ∧
      after.store.content? number = some (x.put (conditions ++ more) content) ∧
      after'.store.content? number = some (y.put (conditions' ++ more') content') ∧
      ChangedAt number stage.store after.store ∧ ChangedAt number stage'.store after'.store ∧
      Eventually number after.store after'.store fun f g =>
        more.map (·.mapObjects f) = more'.map (·.mapObjects g) := by
  induction hx generalizing others stage stage' content content' conditions conditions' with
  | nil =>
    cases hy
    obtain ⟨-, rfl⟩ := of_run_pure h
    obtain ⟨-, rfl⟩ := of_run_pure h'
    refine ⟨[], [], rfl, ?_, ?_, .refl _ _, .refl _ _, .of_forall fun _ _ => rfl⟩
    · rw [List.append_nil, put_conditions own, hc]
    · rw [List.append_nil, put_conditions own', hc']
  | @cons call a calls asked one _ ih =>
    obtain ⟨name, _⟩ := call
    obtain ⟨f, _⟩ := a
    obtain ⟨hf, rfl⟩ := one
    cases hy with
    | @cons call' _ others _ one' later =>
      obtain ⟨name', arguments⟩ := call'
      obtain ⟨hf', rfl⟩ := one'
      obtain ⟨now, rest⟩ := List.forall_mem_cons.1 steady
      rw [callAll_cons] at h h'
      obtain ⟨_, next, first, h⟩ := of_run_bind h
      obtain ⟨_, next', first', h'⟩ := of_run_bind h'
      obtain ⟨c, c', held, held', before, before', made⟩ :=
        call_alike hs hf hf' now hb hb' hc hc' own own' first first'
      obtain ⟨more, more', count, kept, kept', behind, behind', alike⟩ :=
        ih later rest (hb.trans before) (hb'.trans before') held held' (conditions_put own _)
          (conditions_put own' _) h h'
      rw [put_put, List.append_assoc] at kept kept'
      refine ⟨c :: more, c' :: more', congrArg (· + 1) count, kept, kept', before.trans behind,
        before'.trans behind', ?_⟩
      exact (made.later behind behind').mp
        (alike.imp fun f g others first => congrArg₂ List.cons first others)

/-- With all that is in them as it is written, the conditions are the same. -/
theorem callAll_looked (hs : setting.Adds) {asked : List (Filter × List Value)}
    {calls others : List (String × List Value)} (hx : x.Asks calls asked) (hy : y.Asks others asked)
    (steady : ∀ a ∈ asked, ∀ v ∈ a.2, v.IsSteadyArgument setting number stage.store stage'.store)
    (start : ∃ c, stage.store.content? number = some c ∧ x.conditions? c = some [])
    (start' : ∃ c, stage'.store.content? number = some c ∧ y.conditions? c = some [])
    (h : x.callAll number calls setting stage = .ok () after)
    (h' : y.callAll number others setting stage' = .ok () after') :
    ∃ conditions, conditions.length = asked.length ∧ x.Shows after.store number conditions ∧
      y.Shows after'.store number conditions := by
  obtain ⟨c, hc, own⟩ := start
  obtain ⟨c', hc', own'⟩ := start'
  obtain ⟨more, more', count, kept, kept', -, -, alike⟩ :=
    callAll_alike hs hx hy steady (.refl _ _) (.refl _ _) hc hc' own own' h h'
  have shows := shows_of_content kept (conditions_put own _)
  have shows' := shows_of_content kept' (conditions_put own' _)
  rw [List.nil_append] at shows shows'
  rw [← alike _ _ (.refl _ _) (.refl _ _)] at shows'
  exact ⟨_, by rw [List.length_map, count], shows, shows'⟩

/-- The conditions that an object shows are determined. -/
theorem Shows.unique {s : Store} {others : List Condition} (h : x.Shows s number conditions)
    (h' : x.Shows s number others) : others = conditions := by
  obtain ⟨c, _, _, shown, own, -⟩ := h
  obtain ⟨c', _, _, shown', own', -⟩ := h'
  obtain rfl := Option.some.inj (shown.symm.trans shown')
  exact Option.some.inj (own'.symm.trans own)

/-- Objects of several sessions, one in each, that are asked for the same conditions from nothing, show one
list of conditions, with one condition for each call. As long as all that is given stands for the same in
these sessions, each object is written as the text of that list, the same for all of them, with what stands
around it; and it is written without any where there was no call. The calls that ask for them are those by
the names of the filters. -/
theorem one_list_of_conditions (scope : Scope) (depth : Nat) (asked : List (Filter × List Value))
    {ι : Type} {number : Nat} {x : ι → Filtered} {stage after : ι → Stage}
    {calls : ι → List (String × List Value)} (same : ∀ i, (x i).Asks (calls i) asked)
    (start : ∀ i, ∃ c, (stage i).store.content? number = some c ∧ (x i).conditions? c = some [])
    (steady : ∀ i j, ∀ a ∈ asked, ∀ v ∈ a.2,
      v.IsSteadyArgument (scope.settingWithin depth) number (stage i).store (stage j).store)
    (ran : ∀ i, (x i).callAll number (calls i) (scope.settingWithin depth) (stage i) = .ok () (after i)) :
    (∃ conditions : List Condition, conditions.length = asked.length ∧
      ∀ i, (x i).Shows (after i).store number conditions) ∧
    ∀ (y : Filtered) (names own : List String),
      List.Forall₂ (fun name a => Filter.ofName? name = some a.1) names asked →
      List.Forall₂ (fun name word => y.nameOf? name = some word) names own →
        y.Asks (own.zip (asked.map Prod.snd)) asked := by
  refine ⟨?_, fun y names own => asks_of_names⟩
  have hs := scope.settingWithin_adds depth
  have pair (i j : ι) := callAll_looked hs (same i) (same j) (steady i j) (start i) (start j) (ran i) (ran j)
  rcases isEmpty_or_nonempty ι with none | ⟨⟨i⟩⟩
  · exact ⟨List.replicate asked.length ⟨.and, .null "" false⟩, List.length_replicate, none.elim⟩
  · obtain ⟨conditions, count, shows, -⟩ := pair i i
    refine ⟨conditions, count, fun j => ?_⟩
    obtain ⟨others, -, first, second⟩ := pair i j
    exact shows.unique first ▸ second

/-- Conditions with a function, with a builder, and with a builder among the values of a fragment. -/
def given : List (Filter × List Value) :=
  [(⟨.and, .compare⟩, [.text "id", .text "in", .object ⟨2, .function, .endless⟩]),
    (⟨.or, .compare⟩, [.text "a", Action.builderValue 1]),
    (⟨.and, .raw⟩, [.text "b < ? + ?", .list [Action.builderValue 1, .int 7]])]

def names : List String :=
  ["where", "or_where", "where_raw"]

def namesOf : Filtered → List String
  | groups => ["having", "or_having", "having_raw"]
  | rows | update | delete => names

def contents : Filtered → Content
  | rows | groups => .builder ⟨.null, .ofTable "t"⟩
  | update =>
    .statement { kind := .update, executor := 3, table := .text "t", assignments := [(.text "c", .int 1)] }
  | delete => .statement { kind := .delete, executor := 3, table := .text "t" }

/-- One object, with another builder and a function beside it. -/
def session (x : Filtered) : Stage :=
  { store := { contents := [x.contents, .builder ⟨.null, .ofTable "u"⟩,
      .function ⟨[.mk "from_" [.scalar (.text "v")]], none⟩, .executor {}] } }

theorem given_steady (x y : Filtered) {a : Filter × List Value} (ha : a ∈ given) {v : Value}
    (hv : v ∈ a.2) : v.IsSteadyArgument (Scope.settingWithin {} 1) 0 x.session.store y.session.store := by
  have data (u : Scalar) : (Value.scalar u).IsSteadyArgument (Scope.settingWithin {} 1) 0
      x.session.store y.session.store := (Value.settled_scalar u).isSteadyArgument
  have builder : (Action.builderValue 1).IsSteadyArgument (Scope.settingWithin {} 1) 0
      x.session.store y.session.store :=
    Value.steadyArgument_builder (by decide) rfl rfl (Query.settled_ofTable "u")
  have function : (Value.object ⟨2, .function, .endless⟩).IsSteadyArgument (Scope.settingWithin {} 1) 0
      x.session.store y.session.store :=
    Value.steadyArgument_function (by decide) rfl rfl (Query.settled_ofTable "v")
      fun _ _ _ called => Function.of_run_table called
  simp only [given, List.mem_cons, List.not_mem_nil, or_false] at ha
  rcases ha with rfl | rfl | rfl <;> simp only [List.mem_cons, List.not_mem_nil, or_false] at hv
  · rcases hv with rfl | rfl | rfl
    · exact data _
    · exact data _
    · exact function
  · rcases hv with rfl | rfl
    · exact data _
    · exact builder
  · rcases hv with rfl | rfl
    · exact data _
    · exact Value.steadyArgument_items (.inl rfl) (List.forall_mem_cons.2 ⟨builder.toIsSteady,
        List.forall_mem_singleton.2 (data _).toIsSteady⟩)

def succeeds (work : EStateM.Result Failure Stage Unit) : Bool :=
  match work with
  | .ok _ _ => true
  | .error _ _ => false

theorem of_succeeds {work : EStateM.Result Failure Stage Unit} (h : succeeds work) :
    ∃ after, work = .ok () after := by
  cases work with
  | ok _ after => exact ⟨after, rfl⟩
  | error _ _ => cases h

theorem given_named (x : Filtered) : x.Asks (x.namesOf.zip (given.map Prod.snd)) given := by
  have filters : List.Forall₂ (fun name a => Filter.ofName? name = some a.1) names given :=
    .cons (by decide +kernel) (.cons (by decide +kernel) (.cons (by decide +kernel) .nil))
  exact asks_of_names filters (by cases x <;> exact .cons rfl (.cons rfl (.cons rfl .nil)))

/-- A query, its groups, an UPDATE and a DELETE. -/
theorem given_one_list :
    ∃ after : Filtered → Stage,
      (∀ x : Filtered, x.callAll 0 (x.namesOf.zip (given.map Prod.snd)) (Scope.settingWithin {} 1) x.session =
        .ok () (after x)) ∧
      ∃ conditions : List Condition, conditions.length = 3 ∧
        ∀ x : Filtered, x.Shows (after x).store 0 conditions := by
  have runs (x : Filtered) : ∃ after, x.callAll 0 (x.namesOf.zip (given.map Prod.snd))
      (Scope.settingWithin {} 1) x.session = .ok () after := of_succeeds (by cases x <;> decide +kernel)
  choose after ran using runs
  refine ⟨after, ran, (one_list_of_conditions {} 1 given given_named (fun x => ?_)
    (fun x y a ha v hv => given_steady x y ha hv) ran).1⟩
  cases x <;> exact ⟨_, rfl, rfl⟩

end Filtered

end SqlComposition
