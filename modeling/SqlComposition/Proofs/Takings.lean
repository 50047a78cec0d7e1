import SqlComposition.Proofs.Places
import SqlComposition.Proofs.Readings

/-!
How calls take what they are given. A builder is taken as a copy of its query, a function as a copy of what
its calls make of a fresh builder, and a fragment as it is, with the queries in its slots. Whatever way a
call takes such a value, the query comes to stand in a place of what the call makes of its arguments.
-/

namespace SqlComposition

/-! ## Copies -/

/-- Seen from an earlier store, objects were only added. -/
def Store.Grown (s t : Store) : Prop :=
  ∃ more, t.contents = s.contents ++ more

namespace Store.Grown

variable {s t u : Store}

theorem refl (s : Store) : s.Grown s :=
  ⟨[], (List.append_nil _).symm⟩

theorem trans (h : s.Grown t) (h' : t.Grown u) : s.Grown u := by
  obtain ⟨more, ht⟩ := h
  obtain ⟨others, hu⟩ := h'
  exact ⟨more ++ others, by rw [hu, ht, List.append_assoc]⟩

theorem copyQuery (s : Store) (q : Query) : s.Grown (s.copyQuery q).2 :=
  ⟨_, rfl⟩

theorem builder? (h : s.Grown t) {number : Nat} {b : Builder} (hb : s.builder? number = some b) :
    t.builder? number = some b := by
  obtain ⟨more, ht⟩ := h
  have there := content?_of_builder? hb
  rw [Store.builder?, content?, ht, List.getElem?_append_left (List.getElem?_eq_some_iff.1 there).1,
    ← content?, there]

end Store.Grown

/-- A copy of a query that is made when objects may have been added. A query without objects is its own
copy. -/
structure Query.IsCopy (s : Store) (q copy : Query) : Prop where
  made : ∃ t, s.Grown t ∧ copy = (t.copyQuery q).1
  same : q.IsSettled → copy = q

theorem Query.IsCopy.of_grown {s t : Store} (h : s.Grown t) (q : Query) :
    IsCopy s q (t.copyQuery q).1 where
  made := ⟨t, h, rfl⟩
  same := fun hq => by rw [t.copyQuery_settled hq]

/-! ## What is given -/

/-- The ways in which calls take what they are given. -/
inductive Taking where
  | query | operand | fragment

/-- A value that brings along a query when it is taken in some way, and what that query may be. The calls
of a function are those of a term that makes a builder. -/
inductive Offers (scope : Scope) (depth : Nat) (s : Store) : Taking → Value → (Query → Prop) → Prop where
  | builder {way : Taking} {number : Nat} {form : Rendition} {b : Builder} : way ≠ .fragment →
      s.builder? number = some b →
      Offers scope depth s way (.object ⟨number, .builder, form⟩) (Query.IsCopy s b.query)
  | function {number : Nat} {form : Rendition} {calls : List Call} :
      s.function? number = some ⟨calls, none⟩ →
      Offers scope depth s .query (.object ⟨number, .function, form⟩) fun q =>
        ∃ before after number b, before.store = s ∧
          (Term.builder none calls).eval (scope.settingWithin depth) before =
            .ok (Action.builderValue number) after ∧
          after.store.builder? number = some b ∧ Query.IsCopy after.store b.query q
  | fragment {way : Taking} {put : Query → Fragment} {q : Query} : way ≠ .query →
      Fragment.IsPlace put → Offers scope depth s way (.fragment (put q)) (· = q)

namespace Action

variable {setting : Setting} {stage after : Stage} {q : Query}

theorem of_run_snapshot {number : Nat} (h : snapshot number setting stage = .ok q after) :
    ∃ b, stage.store.builder? number = some b ∧ q = (stage.store.copyQuery b.query).1 ∧
      after.store = (stage.store.copyQuery b.query).2 := by
  obtain ⟨b, _, looked, h⟩ := of_run_bind h
  obtain ⟨found, rfl⟩ := of_run_known looked
  have here : store setting stage = .ok stage.store stage := rfl
  rw [run_bind here] at h
  cases h
  exact ⟨b, found, rfl, rfl⟩

theorem grown_of_snapshot {number : Nat} (h : snapshot number setting stage = .ok q after) :
    stage.store.Grown after.store := by
  obtain ⟨b, -, -, copied⟩ := of_run_snapshot h
  rw [copied]
  exact .copyQuery _ _

/-- A function that gives back what it was given makes what a term with its calls makes. -/
theorem eval_of_run {calls : List Call} {number : Nat}
    (h : Function.run ⟨calls, none⟩ setting stage = .ok number after) :
    (Term.builder none calls).eval setting stage = .ok (builderValue number) after := by
  obtain ⟨dialect, chosen, hd, h⟩ := of_run_bind h
  obtain ⟨fresh, made, hn, h⟩ := of_run_bind h
  obtain ⟨_, called, hc, h⟩ := of_run_bind h
  obtain ⟨returned, last, hr, h⟩ := of_run_bind h
  rw [Term.evalOption] at hr
  obtain ⟨rfl, rfl⟩ := of_run_pure hr
  obtain ⟨rfl, rfl⟩ := of_run_pure h
  have given : Term.evalOption none setting stage = .ok none stage := by
    rw [Term.evalOption]
    rfl
  rw [Term.eval, run_bind given, Option.getD_none, run_bind hd, run_bind hn, run_bind hc]
  rfl

variable {scope : Scope} {depth : Nat} {s : Store} {v : Value} {P : Query → Prop}

/-- What is taken as a query, before anything else is done, comes to a query that it may be. -/
theorem of_run_query (ho : Offers scope depth stage.store .query v P)
    (h : query v (scope.settingWithin (depth + 1)) stage = .ok q after) : P q := by
  cases ho with
  | builder _ found =>
    obtain ⟨b, here, rfl, -⟩ := of_run_snapshot h
    obtain rfl := Option.some.inj (found.symm.trans here)
    exact .of_grown (.refl _) _
  | @function number form calls found =>
    have within : (MonadReader.read : Action Setting) (scope.settingWithin (depth + 1)) stage =
        .ok (scope.settingWithin (depth + 1)) stage := rfl
    rw [query, run_bind (run_known found), run_bind within] at h
    obtain ⟨made, called, run, copied⟩ := of_run_bind h
    obtain ⟨b, here, rfl, -⟩ := of_run_snapshot copied
    exact ⟨stage, called, made, b, rfl, eval_of_run run, here, .of_grown (.refl _) _⟩
  | fragment away _ => exact absurd rfl away

/-- What is taken as an operand, when objects may have been added, is put in its place as a query. -/
theorem of_run_operand (ho : Offers scope depth s .operand v P) (hs : s.Grown stage.store) {w : Value}
    (h : operand v setting stage = .ok w after) :
    ∃ put q, Value.IsPlace put ∧ P q ∧ w = put q := by
  cases ho with
  | builder _ found =>
    obtain ⟨q, copied, rfl⟩ := of_run_map h
    obtain ⟨b, here, rfl, -⟩ := of_run_snapshot copied
    obtain rfl := Option.some.inj ((hs.builder? found).symm.trans here)
    exact ⟨.query, _, .query, .of_grown hs _, rfl⟩
  | @fragment _ put q _ place =>
    obtain ⟨rfl, -⟩ := of_run_pure h
    exact ⟨fun q => .fragment (put q), q, .fragment place, rfl, rfl⟩

theorem grown_of_operand {w : Value} (h : operand v setting stage = .ok w after) :
    stage.store.Grown after.store := by
  unfold operand at h
  split at h
  · obtain ⟨q, copied, -⟩ := of_run_map h
    exact grown_of_snapshot copied
  · obtain ⟨-, rfl⟩ := of_run_pure h
    exact .refl _

/-- Each of several operands keeps its place among them. -/
theorem of_run_operands (ho : Offers scope depth s .operand v P) (hs : s.Grown stage.store)
    {before rest values : List Value}
    (h : (before ++ v :: rest).mapM operand setting stage = .ok values after) :
    ∃ first last put q, first.length = before.length ∧ Value.IsPlace put ∧ P q ∧
      values = first ++ put q :: last := by
  induction before generalizing stage values with
  | nil =>
    rw [List.nil_append, List.mapM_cons] at h
    obtain ⟨w, _, taken, h⟩ := of_run_bind h
    obtain ⟨others, _, -, h⟩ := of_run_bind h
    obtain ⟨rfl, -⟩ := of_run_pure h
    obtain ⟨put, q, place, may, rfl⟩ := of_run_operand ho hs taken
    exact ⟨[], others, put, q, rfl, place, may, rfl⟩
  | cons item before ih =>
    rw [List.cons_append, List.mapM_cons] at h
    obtain ⟨w, middle, taken, h⟩ := of_run_bind h
    obtain ⟨others, _, later, h⟩ := of_run_bind h
    obtain ⟨rfl, rfl⟩ := of_run_pure h
    obtain ⟨first, last, put, q, same, place, may, rfl⟩ := ih (hs.trans (grown_of_operand taken)) later
    exact ⟨w :: first, last, put, q, by rw [List.length_cons, List.length_cons, same], place, may, rfl⟩

end Action

/-! ## Fragments -/

/-- How a value is taken where a fragment is asked for: a fragment as it is, and the bindings of a text as
operands as long as there are slots. -/
inductive Fragment.Takes : Value → Option Value → Taking → Value → Prop where
  | whole {f : Fragment} {given : Option Value} :
      Takes (.fragment f) given .fragment (.fragment f)
  | binding {sql bindings v : Value} {text : String} {before rest : List Value} :
      Schema.text sql = .valid text → bindings.items? = some (before ++ v :: rest) →
      before.length < Slot.count text.toList → Takes sql (some bindings) .operand v

/-- What can be gone through and has something in it counts as true. -/
theorem Value.isTruthy_of_items? {v item : Value} {before rest : List Value}
    (h : v.items? = some (before ++ item :: rest)) : v.isTruthy = true := by
  have some {α : Type} (f : α → Value) {items : List α} (hi : items.map f = before ++ item :: rest) :
      items ≠ [] := by
    rintro rfl
    simp at hi
  cases v with
  | scalar s =>
    cases s with
    | text s =>
      have chars := some _ (Option.some.inj h)
      simpa [Value.isTruthy, Scalar.isTruthy] using chars
    | bytes bytes =>
      have chars := some _ (Option.some.inj h)
      simpa [Value.isTruthy, Scalar.isTruthy] using chars
    | null | bool _ | int _ | float _ | decimal _ | date _ | time _ | dateTime _ | duration _ | uuid _ =>
      cases h
  | list items | tuple items =>
    obtain rfl := Option.some.inj h
    simp [Value.isTruthy]
  | mapping entries =>
    have keys := some _ (Option.some.inj h)
    simpa [Value.isTruthy] using keys
  | fragment _ | query _ | part _ | bound _ | object _ => rfl

/-- How a value is taken on the right side of an IN test: as a query, or as one of several operands. -/
inductive Members.Takes : Value → Taking → Value → Prop where
  | object {o : Object} : Takes (.object o) .query (.object o)
  | fragment {f : Fragment} : Takes (.fragment f) .fragment (.fragment f)
  | listed {items : List Value} {v : Value} : v ∈ items → Takes (.list items) .operand v
  | tupled {items : List Value} {v : Value} : v ∈ items → Takes (.tuple items) .operand v
  | key {entries : List (Value × Value)} {entry : Value × Value} : entry ∈ entries →
      Takes (.mapping entries) .operand entry.1

section Runs

variable {scope : Scope} {depth : Nat} {stage after : Stage} {way : Taking} {v : Value}
  {P : Query → Prop}

namespace Action

theorem of_run_fragment {sql : Value} {given : Option Value}
    (ho : Offers scope depth stage.store way v P) (ht : Fragment.Takes sql given way v) {f : Fragment}
    (h : fragment sql given (scope.settingWithin (depth + 1)) stage = .ok f after) :
    ∃ put q, Fragment.IsPlace put ∧ P q ∧ f = put q := by
  cases ht with
  | @whole f given =>
    obtain ⟨rfl, -⟩ := of_run_pure h
    cases ho with
    | @fragment _ put q _ place => exact ⟨put, q, place, rfl, rfl⟩
  | @binding _ bindings _ text before rest read items slot =>
    -- the bindings are taken before the text is checked, so the text is not yet known to be one
    have made : fragment sql (some bindings) = (do
        let values ← Action.bindings (some bindings)
        let text ← ofExcept ((Checked.under "sql" (Schema.text sql)).orReject "RawSQL")
        return ⟨text, values⟩) := by
      cases sql with
      | fragment f => cases read
      | scalar _ | list _ | tuple _ | mapping _ | query _ | part _ | bound _ | object _ => rfl
    rw [made] at h
    obtain ⟨values, _, taken, h⟩ := of_run_bind h
    obtain ⟨written, _, checked, h⟩ := of_run_bind h
    obtain ⟨rfl, -⟩ := of_run_pure h
    have same := Checked.of_under_eq_valid (Checked.of_orReject_eq_ok (of_run_ofExcept checked).1)
    obtain rfl := Checked.valid.inj (read.symm.trans same)
    rw [Action.bindings, if_pos (Value.isTruthy_of_items? items)] at taken
    obtain ⟨found, _, opened, several⟩ := of_run_bind taken
    obtain ⟨listed, rfl⟩ := of_run_ofExcept opened
    rw [Value.items, items] at listed
    obtain rfl := Except.ok.inj listed
    obtain ⟨first, last, put, q, same, place, may, rfl⟩ := of_run_operands ho (.refl _) several
    exact ⟨fun q => ⟨text, first ++ put q :: last⟩, q, .slot (by rwa [same]) place, may, rfl⟩

theorem of_run_members {values : Value} (ho : Offers scope depth stage.store way v P)
    (ht : Members.Takes values way v) {m : Members}
    (h : members values (scope.settingWithin (depth + 1)) stage = .ok m after) :
    ∃ put q, Members.IsPlace put ∧ P q ∧ m = put q := by
  have several {items : List Value} {found : Members} {last : Stage}
      (ho : Offers scope depth stage.store .operand v P) (member : v ∈ items)
      (h : (do return .listed (← items.mapM operand) : Action Members)
        (scope.settingWithin (depth + 1)) stage = .ok found last) :
      ∃ put q, Members.IsPlace put ∧ P q ∧ found = put q := by
    obtain ⟨before, rest, rfl⟩ := List.append_of_mem member
    obtain ⟨values, _, taken, h⟩ := of_run_bind h
    obtain ⟨rfl, -⟩ := of_run_pure h
    obtain ⟨first, others, put, q, -, place, may, rfl⟩ := of_run_operands ho (.refl _) taken
    exact ⟨fun q => .listed (first ++ put q :: others), q, .item place, may, rfl⟩
  have whole {o : Object} (ho : Offers scope depth stage.store .query (.object o) P)
      (h : (do return .query (← query (.object o)) : Action Members)
        (scope.settingWithin (depth + 1)) stage = .ok m after) :
      ∃ put q, Members.IsPlace put ∧ P q ∧ m = put q := by
    obtain ⟨q, _, taken, h⟩ := of_run_bind h
    obtain ⟨rfl, -⟩ := of_run_pure h
    exact ⟨.query, q, .query, of_run_query ho taken, rfl⟩
  cases ht with
  | object =>
    cases ho with
    | builder away found => exact whole (.builder away found) h
    | function found => exact whole (.function found) h
  | fragment =>
    obtain ⟨rfl, -⟩ := of_run_pure h
    cases ho with
    | @fragment _ put q _ place =>
      exact ⟨_, q, @Members.IsPlace.item [] [] _ (.fragment place), rfl, rfl⟩
  | listed member => exact several ho member h
  | tupled member => exact several ho member h
  | key member => exact several ho (List.mem_map_of_mem member) h

theorem of_run_write {text : String} (h : write v (scope.settingWithin depth) stage = .ok text after) :
    (stage.store.look v).plainText = .ok text ∧ after.store = stage.store := by
  have run : write v (scope.settingWithin depth) stage =
      ofExcept (stage.store.look v).write.outcome.1 (scope.settingWithin depth)
        { stage with log := stage.log ++ Emission.lines (stage.store.look v).write.outcome.2 } := rfl
  rw [run, Value.write_outcome] at h
  obtain ⟨written, rfl⟩ := of_run_ofExcept h
  exact ⟨written, rfl⟩

end Action

namespace Filter
open SqlComposition.Action

/-- What an operator is written as when the objects are as they are in the store. -/
def IsWritten (s : Store) (operator : Value) (text : String) : Prop :=
  if operator.isTruthy then (s.look operator).plainText = .ok text else text = "="

/-- How a value is taken on the right side of a comparison, by what the comparison is taken for. -/
inductive Routing.Takes : Routing → Value → Taking → Value → Prop where
  | comparison {v : Value} : Takes .comparison v .operand v
  | member {negated : Bool} {values v : Value} {way : Taking} : Members.Takes values way v →
      Takes (.member negated) values way v
  | low {negated : Bool} {value : Value} : Takes (.between negated) value .operand (ends value).1
  | high {negated : Bool} {value : Value} : Takes (.between negated) value .operand (ends value).2

variable {p : Predicate}

theorem of_run_member {negated : Bool} {column values : Value}
    (ho : Offers scope depth stage.store way v P) (ht : Members.Takes values way v)
    (h : member negated column values (scope.settingWithin (depth + 1)) stage = .ok p after) :
    ∃ put q, Predicate.IsPlace put ∧ P q ∧ p = put q := by
  obtain ⟨m, _, taken, h⟩ := of_run_bind h
  obtain ⟨name, _, -, h⟩ := of_run_bind h
  obtain ⟨rfl, -⟩ := of_run_pure h
  obtain ⟨put, q, place, may, rfl⟩ := of_run_members ho ht taken
  exact ⟨fun q => .member name (put q) negated, q, .member place, may, rfl⟩

theorem of_run_low {negated : Bool} {column high : Value}
    (ho : Offers scope depth stage.store .operand v P)
    (h : between negated column v high (scope.settingWithin (depth + 1)) stage = .ok p after) :
    ∃ put q, Predicate.IsPlace put ∧ P q ∧ p = put q := by
  obtain ⟨low, _, taken, h⟩ := of_run_bind h
  obtain ⟨high, _, -, h⟩ := of_run_bind h
  obtain ⟨name, _, -, h⟩ := of_run_bind h
  obtain ⟨rfl, -⟩ := of_run_pure h
  obtain ⟨put, q, place, may, rfl⟩ := of_run_operand ho (.refl _) taken
  exact ⟨fun q => .between name (put q) high negated, q, .low place, may, rfl⟩

theorem of_run_high {negated : Bool} {column low : Value}
    (ho : Offers scope depth stage.store .operand v P)
    (h : between negated column low v (scope.settingWithin (depth + 1)) stage = .ok p after) :
    ∃ put q, Predicate.IsPlace put ∧ P q ∧ p = put q := by
  obtain ⟨low, _, first, h⟩ := of_run_bind h
  obtain ⟨high, _, taken, h⟩ := of_run_bind h
  obtain ⟨name, _, -, h⟩ := of_run_bind h
  obtain ⟨rfl, -⟩ := of_run_pure h
  -- the copy for the lower end is in the store when the upper end is taken
  obtain ⟨put, q, place, may, rfl⟩ := of_run_operand ho (grown_of_operand first) taken
  exact ⟨fun q => .between name low (put q) negated, q, .high place, may, rfl⟩

theorem of_run_routed {operator : String} {column value : Value}
    (ho : Offers scope depth stage.store way v P) (ht : (route operator).Takes value way v)
    (h : routed operator column value (scope.settingWithin (depth + 1)) stage = .ok p after) :
    ∃ put q, Predicate.IsPlace put ∧ P q ∧ p = put q := by
  rw [routed] at h
  generalize route operator = routing at ht h
  cases ht with
  | comparison =>
    obtain ⟨w, _, taken, h⟩ := of_run_bind h
    obtain ⟨name, _, -, h⟩ := of_run_bind h
    obtain ⟨rfl, -⟩ := of_run_pure h
    obtain ⟨put, q, place, may, rfl⟩ := of_run_operand ho (.refl _) taken
    exact ⟨fun q => .comparison name operator (put q), q, .comparison place, may, rfl⟩
  | member ht => exact of_run_member ho ht h
  | low => exact of_run_low ho h
  | high => exact of_run_high ho h

theorem of_run_compare {column operator value : Value} {text : String}
    (ho : Offers scope depth stage.store way v P) (hw : IsWritten stage.store operator text)
    (ht : (route (normalize text)).Takes value way v)
    (h : compare column operator value (scope.settingWithin (depth + 1)) stage = .ok p after) :
    ∃ put q, Predicate.IsPlace put ∧ P q ∧ p = put q := by
  rw [IsWritten] at hw
  rw [compare] at h
  split at h
  · rename_i truthy
    rw [if_pos truthy] at hw
    obtain ⟨written, middle, wrote, h⟩ := of_run_bind h
    obtain ⟨same, kept⟩ := of_run_write wrote
    obtain rfl := Except.ok.inj (hw.symm.trans same)
    exact of_run_routed (kept ▸ ho) ht h
  · rename_i falsy
    rw [if_neg falsy] at hw
    subst hw
    exact of_run_routed ho ht h

theorem of_run_nonempty {negated : Bool} (ho : Offers scope depth stage.store .query v P)
    (h : nonempty negated v (scope.settingWithin (depth + 1)) stage = .ok p after) :
    ∃ put q, Predicate.IsPlace put ∧ P q ∧ p = put q := by
  obtain ⟨q, _, taken, h⟩ := of_run_bind h
  obtain ⟨rfl, -⟩ := of_run_pure h
  exact ⟨fun q => .nonempty q negated, q, .nonempty, of_run_query ho taken, rfl⟩

theorem of_run_raw {sql : Value} {given : Option Value} (ho : Offers scope depth stage.store way v P)
    (ht : Fragment.Takes sql given way v)
    (h : raw sql given (scope.settingWithin (depth + 1)) stage = .ok p after) :
    ∃ put q, Predicate.IsPlace put ∧ P q ∧ p = put q := by
  obtain ⟨f, _, taken, h⟩ := of_run_bind h
  obtain ⟨rfl, -⟩ := of_run_pure h
  obtain ⟨put, q, place, may, rfl⟩ := of_run_fragment ho ht taken
  exact ⟨fun q => .raw (put q), q, .raw place, may, rfl⟩

end Filter

/-- How the arguments of a test are taken. -/
inductive Test.Takes (s : Store) : Test → List Value → Taking → Value → Prop where
  | equal {column v : Value} : Takes s .compare [column, v] .operand v
  | compare {column operator value v : Value} {text : String} {way : Taking} :
      Filter.IsWritten s operator text → (Filter.route (Filter.normalize text)).Takes value way v →
      Takes s .compare [column, operator, value] way v
  | member {negated : Bool} {column values v : Value} {way : Taking} : Members.Takes values way v →
      Takes s (.member negated) [column, values] way v
  | low {negated : Bool} {column v high : Value} :
      Takes s (.between negated) [column, v, high] .operand v
  | high {negated : Bool} {column low v : Value} :
      Takes s (.between negated) [column, low, v] .operand v
  | nonempty {negated : Bool} {v : Value} : Takes s (.nonempty negated) [v] .query v
  | raw {sql v : Value} {way : Taking} : Fragment.Takes sql none way v → Takes s .raw [sql] way v
  | rawBindings {sql bindings v : Value} {way : Taking} : Fragment.Takes sql (some bindings) way v →
      Takes s .raw [sql, bindings] way v

theorem Test.of_run_predicate {call : String} {test : Test} {arguments : List Value}
    (ho : Offers scope depth stage.store way v P) (ht : test.Takes stage.store arguments way v)
    {p : Predicate}
    (h : test.predicate call arguments (scope.settingWithin (depth + 1)) stage = .ok p after) :
    ∃ put q, Predicate.IsPlace put ∧ P q ∧ p = put q := by
  cases ht with
  | @equal column v =>
    have compared : (Filter.route "=").Takes v .operand v := .comparison
    exact Filter.of_run_routed ho compared h
  | compare written routed => exact Filter.of_run_compare ho written routed h
  | member found => exact Filter.of_run_member ho found h
  | low => exact Filter.of_run_low ho h
  | high => exact Filter.of_run_high ho h
  | nonempty => exact Filter.of_run_nonempty ho h
  | raw taken => exact Filter.of_run_raw ho taken h
  | rawBindings taken => exact Filter.of_run_raw ho taken h

theorem Filter.of_run_condition {call : String} {f : Filter} {arguments : List Value}
    (ho : Offers scope depth stage.store way v P) (ht : f.test.Takes stage.store arguments way v)
    {c : Condition}
    (h : f.condition call arguments (scope.settingWithin (depth + 1)) stage = .ok c after) :
    ∃ put q, Condition.IsPlace put ∧ P q ∧ c = put q := by
  obtain ⟨p, _, made, h⟩ := Action.of_run_bind h
  obtain ⟨rfl, -⟩ := Action.of_run_pure h
  obtain ⟨put, q, place, may, rfl⟩ := Test.of_run_predicate ho ht made
  exact ⟨fun q => ⟨f.connective, put q⟩, q, .test place, may, rfl⟩

end Runs

end SqlComposition
