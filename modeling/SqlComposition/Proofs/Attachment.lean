import SqlComposition.Proofs.Shown
import SqlComposition.Proofs.Takings

/-!
Attached queries. A call that takes a query in some way adds a clause to its builder, with the query in a
place of the clause. As long as the builder has that clause, the query is written in it as it is written
alone.
-/

namespace SqlComposition
open SqlComposition.Action

/-- How the arguments of a call of a builder are taken. -/
inductive Method.Takes (s : Store) : Method → List Value → Taking → Value → Prop where
  | cte {isRecursive : Bool} {name v : Value} {rest : List Value} {way : Taking} : way ≠ .operand →
      Takes s (.cte isRecursive) (name :: v :: rest) way v
  | select {columns : List Value} {v : Value} : v ∈ columns → Takes s .select columns .fragment v
  | selectRaw {sql v : Value} {way : Taking} : Fragment.Takes sql none way v →
      Takes s .selectRaw [sql] way v
  | selectBindings {sql bindings v : Value} {way : Taking} : Fragment.Takes sql (some bindings) way v →
      Takes s .selectRaw [sql, bindings] way v
  | subquery {v label : Value} : Takes s .subquery [v, label] .query v
  | join {kind : JoinKind} {v : Value} {rest : List Value} : Takes s (.join kind) (v :: rest) .query v
  | joinCondition {kind : JoinKind} {target v : Value} {rest : List Value} : kind ≠ .cross →
      Takes s (.join kind) (target :: v :: rest) .fragment v
  | filter {f : Filter} {arguments : List Value} {way : Taking} {v : Value} :
      f.test.Takes s arguments way v → Takes s (.filter f) arguments way v
  | groupByRaw {sql v : Value} {way : Taking} : Fragment.Takes sql none way v →
      Takes s .groupByRaw [sql] way v
  | groupByBindings {sql bindings v : Value} {way : Taking} : Fragment.Takes sql (some bindings) way v →
      Takes s .groupByRaw [sql, bindings] way v
  | having {f : Filter} {arguments : List Value} {way : Taking} {v : Value} :
      f.test.Takes s arguments way v → Takes s (.having f) arguments way v
  | orderBy {v : Value} {rest : List Value} : Takes s .orderBy (v :: rest) .fragment v
  | orderByRaw {sql v : Value} {way : Taking} : Fragment.Takes sql none way v →
      Takes s .orderByRaw [sql] way v
  | orderByBindings {sql bindings v : Value} {way : Taking} : Fragment.Takes sql (some bindings) way v →
      Takes s .orderByRaw [sql, bindings] way v
  | combine {operator : SetOperator} {v : Value} : Takes s (.combine operator) [v] .query v

/-- Members of set operations stand without parentheses. -/
def Method.encloses : Method → Bool
  | combine _ => false
  | _ => true

/-- A builder has a clause. -/
def Store.HasClause (s : Store) (number : Nat) (c : Clause) : Prop :=
  ∃ b, s.builder? number = some b ∧ b.query.Has c

/-- A builder has a clause with one of some queries in a place of it. -/
def Store.Holds (s : Store) (number : Nat) (enclosed : Bool) (P : Query → Prop) : Prop :=
  ∃ put q, Clause.IsPlace enclosed put ∧ P q ∧ s.HasClause number (put q)

section Runs

variable {scope : Scope} {depth : Nat} {stage after : Stage} {way : Taking} {v : Value}
  {P : Query → Prop} {number : Nat}

namespace Edit

/-- A change that adds a clause, with one of some queries in a place of it. -/
def Attaches (enclosed : Bool) (P : Query → Prop) (change : Query → Query) : Prop :=
  ∃ put q, Clause.IsPlace enclosed put ∧ P q ∧ ∀ outer, (change outer).Has (put q)

theorem of_run_reading {α : Type} {setting : Setting} {record : String} {checked : Checked α} {a : α}
    (h : reading record checked setting stage = .ok a after) : checked = .valid a ∧ stage = after := by
  obtain ⟨read, same⟩ := of_run_ofExcept h
  exact ⟨Checked.of_orReject_eq_ok read, same⟩

/-- Where a name or a fragment is asked for, a fragment stays what it is. -/
theorem expression_fragment (f : Fragment) : Schema.expression (.fragment f) = .valid (.raw f) := rfl

/-- One step of an edit: the change is worked out, and made on the builder as it is then. -/
theorem of_run_cons {setting : Setting} {work : Action (Query → Query)} {rest : Edit}
    (h : apply number (work :: rest) setting stage = .ok () after) :
    ∃ change worked b changed, work setting stage = .ok change worked ∧
      worked.store.builder? number = some b ∧
      changed.store.builder? number = some { b with query := change b.query } ∧
      apply number rest setting changed = .ok () after := by
  rw [apply_cons] at h
  obtain ⟨_, changed, first, others⟩ := of_run_bind h
  obtain ⟨change, worked, b, made, found, set⟩ := of_run_step first
  exact ⟨change, worked, b, changed, made, found, by rw [set, Store.builder?_set found], others⟩

theorem holds_of_change {setting : Setting} {enclosed : Bool} {work : Action (Query → Query)}
    (hw : ∀ change worked, work setting stage = .ok change worked → Attaches enclosed P change)
    (h : apply number (change work) setting stage = .ok () after) :
    after.store.Holds number enclosed P := by
  obtain ⟨change, worked, b, changed, made, -, kept, done⟩ := of_run_cons h
  obtain ⟨-, rfl⟩ := of_run_pure done
  obtain ⟨put, q, place, may, added⟩ := hw change worked made
  exact ⟨put, q, place, may, _, kept, added b.query⟩

variable {sql : Value} {given : Option Value}

theorem holds_subquery {label : Value} (ho : Offers scope depth stage.store .query v P)
    (h : apply number (subquery v label) (scope.settingWithin (depth + 1)) stage = .ok () after) :
    after.store.Holds number true P := by
  refine holds_of_change (fun change worked h => ?_) h
  obtain ⟨q, _, taken, h⟩ := of_run_bind h
  obtain ⟨s, _, read, h⟩ := of_run_bind h
  obtain ⟨rfl, -⟩ := of_run_pure h
  obtain ⟨label, -, rfl⟩ := Checked.of_map_eq_valid (of_run_reading read).1
  exact ⟨fun q => .source ⟨none, some q, label⟩, q, .source, of_run_query ho taken, fun _ => rfl⟩

theorem of_run_joinTarget (ho : Offers scope depth stage.store .query v P) {target : JoinTarget}
    (h : joinTarget v (scope.settingWithin (depth + 1)) stage = .ok target after) :
    ∃ q, P q ∧ target = .query q := by
  have taken : joinTarget v = JoinTarget.query <$> Action.query v := by
    cases ho with
    | builder _ _ | function _ => rfl
    | fragment away _ => exact absurd rfl away
  rw [taken] at h
  obtain ⟨q, made, rfl⟩ := of_run_map h
  exact ⟨q, of_run_query ho made, rfl⟩

theorem holds_join {kind : JoinKind} {on label : Option Value}
    (ho : Offers scope depth stage.store .query v P)
    (h : apply number (join kind v on label) (scope.settingWithin (depth + 1)) stage = .ok () after) :
    after.store.Holds number true P := by
  refine holds_of_change (fun change worked h => ?_) h
  obtain ⟨target, _, taken, h⟩ := of_run_bind h
  obtain ⟨on, _, -, h⟩ := of_run_bind h
  obtain ⟨j, _, read, h⟩ := of_run_bind h
  obtain ⟨rfl, -⟩ := of_run_pure h
  obtain ⟨label, -, rfl⟩ := Checked.of_map_eq_valid (of_run_reading read).1
  obtain ⟨q, may, rfl⟩ := of_run_joinTarget ho taken
  exact ⟨fun q => .join ⟨kind, .query q, label, on⟩, q, .join, may,
    fun outer => List.mem_append_right outer.joins List.mem_cons_self⟩

theorem holds_joinCondition {kind : JoinKind} (hk : kind ≠ .cross) {target : Value}
    {label : Option Value} (ho : Offers scope depth stage.store .fragment v P)
    (h : apply number (join kind target (some v) label) (scope.settingWithin (depth + 1)) stage =
      .ok () after) : after.store.Holds number true P := by
  cases ho with
  | builder away _ => exact absurd rfl away
  | @fragment _ put q _ place =>
    refine holds_of_change (fun change worked h => ?_) h
    obtain ⟨target, _, -, h⟩ := of_run_bind h
    obtain ⟨on, _, taken, h⟩ := of_run_bind h
    obtain ⟨j, _, read, h⟩ := of_run_bind h
    obtain ⟨rfl, -⟩ := of_run_pure h
    obtain ⟨label, -, rfl⟩ := Checked.of_map_eq_valid (of_run_reading read).1
    obtain ⟨f, made, rfl⟩ := of_run_map taken
    obtain ⟨rfl, -⟩ := of_run_pure made
    exact ⟨fun q => .join ⟨kind, target, label, some (put q)⟩, q, .joinCondition hk place, rfl,
      fun outer => List.mem_append_right outer.joins List.mem_cons_self⟩

theorem of_run_cteBody (ho : Offers scope depth stage.store way v P) (hw : way ≠ .operand)
    {body : CteBody} (h : cteBody v (scope.settingWithin (depth + 1)) stage = .ok body after) :
    ∃ put q, CteBody.IsPlace put ∧ P q ∧ body = put q := by
  have whole (ho : Offers scope depth stage.store .query v P)
      (taken : cteBody v = CteBody.query <$> Action.query v) :
      ∃ put q, CteBody.IsPlace put ∧ P q ∧ body = put q := by
    rw [taken] at h
    obtain ⟨q, made, rfl⟩ := of_run_map h
    exact ⟨.query, q, .query, of_run_query ho made, rfl⟩
  cases ho with
  | builder away found =>
    cases way with
    | query => exact whole (.builder nofun found) rfl
    | operand => exact absurd rfl hw
    | fragment => exact absurd rfl away
  | function found => exact whole (.function found) rfl
  | @fragment _ put q _ place =>
    obtain ⟨rfl, -⟩ := of_run_pure h
    exact ⟨fun q => .raw (put q), q, .raw place, rfl, rfl⟩

theorem holds_cte {isRecursive : Bool} {name : Value} {columns : Option Value}
    (ho : Offers scope depth stage.store way v P) (hw : way ≠ .operand)
    (h : apply number (cte isRecursive name v columns) (scope.settingWithin (depth + 1)) stage =
      .ok () after) : after.store.Holds number true P := by
  refine holds_of_change (fun change worked h => ?_) h
  obtain ⟨body, _, taken, h⟩ := of_run_bind h
  obtain ⟨columns, _, -, h⟩ := of_run_bind h
  obtain ⟨c, _, read, h⟩ := of_run_bind h
  obtain ⟨rfl, -⟩ := of_run_pure h
  obtain ⟨make, columns, named, -, rfl⟩ := Checked.of_seq_eq_valid (of_run_reading read).1
  obtain ⟨name, -, rfl⟩ := Checked.of_map_eq_valid named
  obtain ⟨put, q, place, may, rfl⟩ := of_run_cteBody ho hw taken
  exact ⟨fun q => .cte ⟨name, columns, put q, isRecursive⟩, q, .cte place, may,
    fun outer => List.mem_append_right outer.ctes List.mem_cons_self⟩

theorem holds_combine {operator : SetOperator} (ho : Offers scope depth stage.store .query v P)
    (h : apply number (combine operator v) (scope.settingWithin (depth + 1)) stage = .ok () after) :
    after.store.Holds number false P := by
  refine holds_of_change (fun change worked h => ?_) h
  obtain ⟨q, _, taken, h⟩ := of_run_bind h
  obtain ⟨rfl, -⟩ := of_run_pure h
  exact ⟨fun q => .setOperation ⟨operator, q⟩, q, .setOperation, of_run_query ho taken,
    fun outer => List.mem_append_right outer.setOperations List.mem_cons_self⟩

/-- What is made with a place in it is added as a clause with that place. -/
theorem holds_of_added {setting : Setting} {α : Type} {IsPlace : (Query → α) → Prop} {work : Action α}
    {add : α → Query → Query} {c : α → Clause}
    (hw : ∀ a worked, work setting stage = .ok a worked → ∃ put q, IsPlace put ∧ P q ∧ a = put q)
    (hp : ∀ put, IsPlace put → Clause.IsPlace true fun q => c (put q))
    (ha : ∀ a outer, (add a outer).Has (c a))
    (h : apply number (change do return add (← work)) setting stage = .ok () after) :
    after.store.Holds number true P := by
  refine holds_of_change (fun change worked h => ?_) h
  obtain ⟨a, _, made, h⟩ := of_run_bind h
  obtain ⟨rfl, -⟩ := of_run_pure h
  obtain ⟨put, q, place, may, rfl⟩ := hw a _ made
  exact ⟨_, q, hp put place, may, ha (put q)⟩

theorem holds_filter {call : String} {f : Filter} {arguments : List Value}
    (ho : Offers scope depth stage.store way v P) (ht : f.test.Takes stage.store arguments way v)
    (h : apply number (filter call f arguments) (scope.settingWithin (depth + 1)) stage = .ok () after) :
    after.store.Holds number true P :=
  holds_of_added (fun _ _ => Filter.of_run_condition ho ht) (fun _ => .condition)
    (fun _ outer => List.mem_append_right outer.conditions List.mem_cons_self) h

theorem holds_having {call : String} {f : Filter} {arguments : List Value}
    (ho : Offers scope depth stage.store way v P) (ht : f.test.Takes stage.store arguments way v)
    (h : apply number (having call f arguments) (scope.settingWithin (depth + 1)) stage = .ok () after) :
    after.store.Holds number true P :=
  holds_of_added (fun _ _ => Filter.of_run_condition ho ht) (fun _ => .having)
    (fun _ outer => List.mem_append_right outer.having List.mem_cons_self) h

variable {sql : Value} {given : Option Value}

theorem holds_selectRaw (ho : Offers scope depth stage.store way v P)
    (ht : Fragment.Takes sql given way v)
    (h : apply number (selectRaw sql given) (scope.settingWithin (depth + 1)) stage = .ok () after) :
    after.store.Holds number true P :=
  holds_of_added (c := fun f => .selectItem ⟨.raw f, none⟩) (fun _ _ => of_run_fragment ho ht)
    (fun _ => .selectItem)
    (fun _ outer => List.mem_append_right outer.selection List.mem_cons_self) h

theorem holds_groupByRaw (ho : Offers scope depth stage.store way v P)
    (ht : Fragment.Takes sql given way v)
    (h : apply number (groupByRaw sql given) (scope.settingWithin (depth + 1)) stage = .ok () after) :
    after.store.Holds number true P :=
  holds_of_added (c := fun f => .grouping (.raw f)) (fun _ _ => of_run_fragment ho ht)
    (fun _ => .grouping)
    (fun _ outer => List.mem_append_right outer.grouping List.mem_cons_self) h

theorem holds_orderByRaw (ho : Offers scope depth stage.store way v P)
    (ht : Fragment.Takes sql given way v)
    (h : apply number (orderByRaw sql given) (scope.settingWithin (depth + 1)) stage = .ok () after) :
    after.store.Holds number true P :=
  holds_of_added (c := fun f => .ordering ⟨.raw f, none⟩) (fun _ _ => of_run_fragment ho ht)
    (fun _ => .ordering)
    (fun _ outer => List.mem_append_right outer.ordering List.mem_cons_self) h

theorem holds_orderBy (ho : Offers scope depth stage.store .fragment v P)
    (h : apply number (orderBy v given) (scope.settingWithin (depth + 1)) stage = .ok () after) :
    after.store.Holds number true P := by
  cases ho with
  | builder away _ => exact absurd rfl away
  | @fragment _ put q _ place =>
    refine holds_of_change (fun change worked h => ?_) h
    obtain ⟨direction, _, -, h⟩ := of_run_bind h
    obtain ⟨item, _, read, h⟩ := of_run_bind h
    obtain ⟨rfl, -⟩ := of_run_pure h
    obtain ⟨make, direction, named, -, rfl⟩ := Checked.of_seq_eq_valid (of_run_reading read).1
    obtain ⟨e, found, rfl⟩ := Checked.of_map_eq_valid named
    obtain rfl := Checked.valid.inj ((expression_fragment (put q)).symm.trans
      (Checked.of_under_eq_valid found))
    exact ⟨fun q => .ordering ⟨.raw (put q), direction⟩, q, .ordering place, rfl,
      fun outer => List.mem_append_right outer.ordering List.mem_cons_self⟩

theorem of_run_selectItem {setting : Setting} {column : Value} {change : Query → Query}
    (h : (do return addSelection (← selectItem (Schema.expression column) none) :
      Action (Query → Query)) setting stage = .ok change after) :
    stage = after ∧ ∃ e, Schema.expression column = .valid e ∧ ∃ label, change = addSelection ⟨e, label⟩ := by
  obtain ⟨item, _, read, h⟩ := of_run_bind h
  obtain ⟨rfl, rfl⟩ := of_run_pure h
  obtain ⟨checked, rfl⟩ := of_run_reading read
  obtain ⟨make, label, named, -, rfl⟩ := Checked.of_seq_eq_valid checked
  obtain ⟨e, found, rfl⟩ := Checked.of_map_eq_valid named
  exact ⟨rfl, e, Checked.of_under_eq_valid found, label, rfl⟩

/-- What is selected stays selected. -/
theorem selection_kept {setting : Setting} {columns : List Value} {item : SelectItem} {b : Builder}
    (hb : stage.store.builder? number = some b) (hi : item ∈ b.query.selection)
    (h : apply number (select columns) setting stage = .ok () after) :
    ∃ c, after.store.builder? number = some c ∧ item ∈ c.query.selection := by
  induction columns generalizing stage b with
  | nil =>
    obtain ⟨-, rfl⟩ := of_run_pure h
    exact ⟨b, hb, hi⟩
  | cons column rest ih =>
    obtain ⟨change, worked, c, changed, made, found, kept, h⟩ := of_run_cons h
    obtain ⟨rfl, e, -, label, rfl⟩ := of_run_selectItem made
    obtain rfl := Option.some.inj (hb.symm.trans found)
    exact ih kept (List.mem_append_left _ hi) h

theorem holds_select {columns : List Value} (hv : v ∈ columns)
    (ho : Offers scope depth stage.store .fragment v P)
    (h : apply number (select columns) (scope.settingWithin (depth + 1)) stage = .ok () after) :
    after.store.Holds number true P := by
  cases ho with
  | builder away _ => exact absurd rfl away
  | @fragment _ put q _ place =>
    induction columns generalizing stage with
    | nil => cases hv
    | cons column rest ih =>
      obtain ⟨change, worked, b, changed, made, -, kept, others⟩ := of_run_cons h
      obtain ⟨rfl, e, found, label, rfl⟩ := of_run_selectItem made
      rcases List.mem_cons.1 hv with rfl | later
      · -- the columns after it only add items, so the one with the place is still there at the end
        obtain rfl := Checked.valid.inj ((expression_fragment (put q)).symm.trans found)
        obtain ⟨c, there, has⟩ :=
          selection_kept kept (List.mem_append_right _ List.mem_cons_self) others
        exact ⟨fun q => .selectItem ⟨.raw (put q), label⟩, q, .selectItem place, rfl, c, there, has⟩
      · exact ih others later

end Edit

/-- Whatever is taken by a call of a builder comes to stand in one of its clauses. -/
theorem Method.holds_of_takes {m : Method} {name : String} {arguments : List Value}
    (ho : Offers scope depth stage.store way v P) (ht : m.Takes stage.store arguments way v)
    (h : Edit.apply number (m.edit name arguments) (scope.settingWithin (depth + 1)) stage =
      .ok () after) : after.store.Holds number m.encloses P := by
  cases ht with
  | @cte isRecursive cteName v rest way allowed =>
    match rest with
    | [] | [_] => exact Edit.holds_cte ho allowed h
    | _ :: _ :: _ => cases h
  | select member => exact Edit.holds_select member ho h
  | selectRaw taken => exact Edit.holds_selectRaw ho taken h
  | selectBindings taken => exact Edit.holds_selectRaw ho taken h
  | subquery => exact Edit.holds_subquery ho h
  | @join kind v rest =>
    cases kind with
    | cross =>
      match rest with
      | [] | [_] => exact Edit.holds_join ho h
      | _ :: _ :: _ => cases h
    | inner | left | right | full =>
      match rest with
      | [] | [_] | [_, _] => exact Edit.holds_join ho h
      | _ :: _ :: _ :: _ => cases h
  | @joinCondition kind target v rest written =>
    cases kind with
    | cross => exact absurd rfl written
    | inner | left | right | full =>
      match rest with
      | [] | [_] => exact Edit.holds_joinCondition written ho h
      | _ :: _ :: _ => cases h
  | filter taken => exact Edit.holds_filter ho taken h
  | groupByRaw taken => exact Edit.holds_groupByRaw ho taken h
  | groupByBindings taken => exact Edit.holds_groupByRaw ho taken h
  | having taken => exact Edit.holds_having ho taken h
  | @orderBy v rest =>
    match rest with
    | [] | [_] => exact Edit.holds_orderBy ho h
    | _ :: _ :: _ => cases h
  | orderByRaw taken => exact Edit.holds_orderByRaw ho taken h
  | orderByBindings taken => exact Edit.holds_orderByRaw ho taken h
  | combine => exact Edit.holds_combine ho h

end Runs

/-! ## What is written -/

namespace Store

/-- A query is written in a builder as it is written alone, in its place in a clause of the builder. The
objects are in both as they are written now. What is around the place is written in one way whatever query
stands there. -/
def WritesInPlace (s : Store) (number : Nat) (enclosed : Bool) (put : Query → Clause) (q : Query) : Prop :=
  ∃ (b : Builder) (look : Object → Object) (place : Query → Clause) (change : Query → Query)
      (front back : List Piece),
    s.builder? number = some b ∧
    s.shown number = some (.builder { b with query := change (q.mapObjects look) }) ∧
    (q.IsSettled → q.mapObjects look = q) ∧ (∀ r, (put r).mapObjects look = place (r.mapObjects look)) ∧
    ∀ r, (change r).Has (place r) ∧ Query.WrittenIn enclosed front back r (change r)

/-- As long as a builder has a clause, a query in a place of the clause is written in place. -/
theorem HasClause.writesInPlace {s : Store} {number : Nat} {enclosed : Bool} {put : Query → Clause}
    {q : Query} (h : s.HasClause number (put q)) (hp : Clause.IsPlace enclosed put) :
    s.WritesInPlace number enclosed put q := by
  obtain ⟨b, found, has⟩ := h
  have shown := shown_of_builder? found
  let look := s.lookFrom number
  obtain ⟨put', place, same⟩ := hp.mapObjects look
  have still : (b.query.mapObjects look).Has (put' (q.mapObjects look)) :=
    same q ▸ Query.Has.mapObjects look has
  obtain ⟨change, front, back, around, written⟩ := (place.isAround still).writtenIn
  exact ⟨b, look, put', change, front, back, found, around ▸ shown,
    fun settled => settled.mapObjects look, same, written⟩

end Store

/-- A query that is taken by a call is written in place by the builder that it is a call of, and by any
other, as long as the builder has the clause. A fragment that takes a query has a place for it, so it brings
the query along wherever it is taken itself. -/
theorem Taking.written_in_place {scope : Scope} {depth : Nat} {stage : Stage} {way : Taking} {v : Value}
    {P : Query → Prop} (offered : Offers scope depth stage.store way v P) :
    (∀ sql given f after, Fragment.Takes sql given way v →
      Action.fragment sql given (scope.settingWithin (depth + 1)) stage = .ok f after →
      ∃ put q, Fragment.IsPlace put ∧ P q ∧ f = put q) ∧
    ∀ number name m arguments after, Method.ofName? name = some m →
      m.Takes stage.store arguments way v →
      Action.callBuilder number name arguments (scope.settingWithin (depth + 1)) stage = .ok () after →
      ∃ put q, Clause.IsPlace m.encloses put ∧ P q ∧ after.store.HasClause number (put q) ∧
        ∀ (t : Store) (k : Nat), t.HasClause k (put q) → t.WritesInPlace k m.encloses put q := by
  refine ⟨fun sql given f after takes made => Action.of_run_fragment offered takes made,
    fun number name m arguments after known takes called => ?_⟩
  rw [Action.callBuilder, known] at called
  obtain ⟨put, q, place, may, has⟩ := Method.holds_of_takes offered takes called
  exact ⟨put, q, place, may, has, fun t k still => still.writesInPlace place⟩

def Query.memberSample : Query :=
  { selection := [⟨.name "id", none⟩], source := some ⟨some "t", none, none⟩,
    conditions := [⟨.and, .comparison "n" "=" (.text "x")⟩] }

/-- Two builders for the same dialect, each with a value of its own. -/
def Stage.sample : Stage :=
  let dialect : Value := .object ⟨0, .dialect .numbered, .endless⟩
  let outer : Query :=
    { source := some ⟨some "u", none, none⟩, conditions := [⟨.and, .comparison "m" "=" (.int 1)⟩] }
  { store := ⟨[.dialect .numbered, .builder ⟨dialect, .memberSample⟩, .builder ⟨dialect, outer⟩], 0⟩ }

set_option maxRecDepth 10000 in
theorem Taking.sample_written_in_place :
    ∃ after put,
      Action.callBuilder 2 "where_in" [.text "id", Action.builderValue 1] (({} : Scope).settingWithin 1)
        .sample = .ok () after ∧
      Clause.IsPlace true put ∧ after.store.WritesInPlace 2 true put .memberSample ∧
      (after.store.rendition 2).text =
        .ok "SELECT *\nFROM u\nWHERE (m = 1 AND id IN (SELECT id\nFROM t\nWHERE n = 'x'))" := by
  have offered : Offers {} 0 Stage.sample.store .query (Action.builderValue 1)
      (Query.IsCopy Stage.sample.store .memberSample) :=
    .builder (b := ⟨_, .memberSample⟩) nofun rfl
  have settled : Query.memberSample.IsSettled := by
    simp [Query.memberSample, Query.IsSettled, Cte.AllSettled, SelectItem.AllSettled, SelectItem.IsSettled,
      Expression.IsSettled, Source.OptionSettled, Source.IsSettled, Query.OptionSettled, Join.AllSettled,
      Condition.AllSettled, Condition.IsSettled, Predicate.IsSettled, Value.text, Value.IsSettled,
      Expression.AllSettled, SetOperation.AllSettled, OrderItem.AllSettled, Value.OptionSettled]
  obtain ⟨put, q, place, copy, has, written⟩ :=
    (written_in_place offered).2 2 "where_in" (.filter ⟨.and, .member false⟩)
      [.text "id", Action.builderValue 1] _ rfl (.filter (.member .object)) rfl
  obtain rfl := copy.same settled
  exact ⟨_, put, rfl, place, written _ _ has, rfl⟩

end SqlComposition
