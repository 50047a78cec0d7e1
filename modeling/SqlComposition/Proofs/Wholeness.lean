import SqlComposition.Evaluation
import SqlComposition.Proofs.Copies

/-!
Work that leaves stores whole. In a whole store nothing is missing that is held, and what is given to a call
is there as well; then the call leaves a whole store, what it comes to is there, and so is all that it has put
into the query it is made on.
-/

namespace SqlComposition
open HasObjects

namespace Action

/-- A whole store with `count` objects or more is left, and what there is of a result is as `gives` says of
the number of objects. -/
def IsProvided {α : Type} (count : Nat) (gives : Nat → α → Prop) : EStateM.Result Failure Stage α → Prop
  | .ok a after => (after.store.IsWhole ∧ count ≤ after.store.contents.length) ∧
      gives after.store.contents.length a
  | .error _ after => after.store.IsWhole ∧ count ≤ after.store.contents.length

/-- From a whole store with `count` objects or more the work comes to a whole store that has no fewer than
there were, and to a result as `gives` says. -/
structure Provides {α : Type} (setting : Setting) (count : Nat) (gives : Nat → α → Prop) (work : Action α) :
    Prop where
  outcome : ∀ stage : Stage, stage.store.IsWhole → count ≤ stage.store.contents.length →
    IsProvided stage.store.contents.length gives (work setting stage)

variable {α β : Type} {setting : Setting} {count : Nat} {g : Nat → α → Prop} {r : Nat → β → Prop}

theorem IsProvided.mono {less : Nat → α → Prop} {more : Nat} {result : EStateM.Result Failure Stage α}
    (h : IsProvided more g result) (le : count ≤ more) (hw : ∀ a n, g n a → less n a) :
    IsProvided count less result := by
  cases result with
  | ok a after => exact ⟨⟨h.1.1, le.trans h.1.2⟩, hw a _ h.2⟩
  | error failure after => exact ⟨h.1, le.trans h.2⟩

namespace Provides

theorem pure {a : α} (h : ∀ more, count ≤ more → g more a) : Provides setting count g (pure a) :=
  ⟨fun _ whole le => ⟨⟨whole, le_rfl⟩, h _ le⟩⟩

theorem throw (failure : Failure) : Provides setting count g (throw failure) :=
  ⟨fun _ whole _ => ⟨whole, le_rfl⟩⟩

theorem bind {work : Action α} {next : α → Action β} (h : Provides setting count g work)
    (hn : ∀ a more, count ≤ more → g more a → Provides setting more r (next a)) :
    Provides setting count r (work >>= next) := by
  refine ⟨fun stage whole le => ?_⟩
  have first := h.outcome stage whole le
  change IsProvided _ r ((EStateM.bind (work setting) fun a => next a setting) stage)
  rw [EStateM.bind]
  cases done : work setting stage with
  | ok a middle =>
    rw [done] at first
    obtain ⟨⟨whole, grown⟩, given⟩ := first
    exact ((hn a _ (le.trans grown) given).outcome middle whole le_rfl).mono grown fun _ _ hb => hb
  | error failure after =>
    rw [done] at first
    exact first

theorem later {work : Action α} (h : Provides setting count g work) {more : Nat} (le : count ≤ more) :
    Provides setting more g work :=
  ⟨fun stage whole le' => h.outcome stage whole (le.trans le')⟩

theorem weaken {work : Action α} {less : Nat → α → Prop} (h : Provides setting count g work)
    (hw : ∀ a more, g more a → less more a) : Provides setting count less work :=
  ⟨fun stage whole le => (h.outcome stage whole le).mono le_rfl hw⟩

theorem map {work : Action α} {f : α → β} (h : Provides setting count g work)
    (hf : ∀ a more, g more a → r more (f a)) : Provides setting count r (f <$> work) := by
  refine ⟨fun stage whole le => ?_⟩
  have kept := h.outcome stage whole le
  change IsProvided _ r ((EStateM.bind (work setting) fun a => EStateM.pure (f a)) stage)
  rw [EStateM.bind]
  cases done : work setting stage with
  | ok a after =>
    rw [done] at kept
    exact ⟨kept.1, hf a _ kept.2⟩
  | error failure after =>
    rw [done] at kept
    exact kept

theorem discard {work : Action α} (h : Provides setting count g work) :
    Provides setting count (fun _ _ => True) (Functor.discard work) :=
  map h fun _ _ _ => trivial

theorem forM {items : List α} {work : α → Action Unit}
    (h : ∀ a ∈ items, Provides setting count (fun _ _ => True) (work a)) :
    Provides setting count (fun _ _ => True) (items.forM work) := by
  induction items generalizing count with
  | nil => exact pure fun _ _ => trivial
  | cons a rest ih =>
    obtain ⟨first, others⟩ := List.forall_mem_cons.1 h
    exact bind first fun _ _ le _ => ih fun b hb => (others b hb).later le

theorem mapM {items : List α} {work : α → Action β} (mono : ∀ b n m, n ≤ m → r n b → r m b)
    (h : ∀ a ∈ items, Provides setting count r (work a)) :
    Provides setting count (fun more results => ∀ b ∈ results, r more b) (items.mapM work) := by
  induction items generalizing count with
  | nil =>
    rw [List.mapM_nil]
    exact pure fun _ _ => List.forall_mem_nil _
  | cons a rest ih =>
    obtain ⟨first, others⟩ := List.forall_mem_cons.1 h
    rw [List.mapM_cons]
    refine bind first fun b _ le hb => bind (ih fun c hc => (others c hc).later le) fun results more le' hr =>
      pure fun last le'' => List.forall_mem_cons.2 ⟨?_, fun c hc => mono c _ _ le'' (hr c hc)⟩
    exact mono b _ _ (le'.trans le'') hb

theorem ofExcept {result : Except Failure α} (h : ∀ a more, count ≤ more → result = .ok a → g more a) :
    Provides setting count g (Action.ofExcept result) := by
  cases result with
  | ok a => exact pure fun more le => h a more le rfl
  | error failure => exact throw failure

theorem anyOf (result : Except Failure α) :
    Provides setting count (fun _ _ => True) (Action.ofExcept result) :=
  ofExcept fun _ _ _ _ => trivial

theorem changed {f : Stage → Stage} (h : ∀ stage : Stage, stage.store.IsWhole →
      count ≤ stage.store.contents.length →
        (f stage).store.IsWhole ∧ stage.store.contents.length ≤ (f stage).store.contents.length) :
    Provides setting count (fun _ _ => True) (modify f : Action Unit) :=
  ⟨fun stage whole le => ⟨h stage whole le, trivial⟩⟩

/-- Logging leaves the objects alone. -/
theorem logged {f : Stage → Stage} (h : ∀ stage, (f stage).store = stage.store) :
    Provides setting count (fun _ _ => True) (modify f : Action Unit) :=
  changed fun stage whole _ => by
    rw [h]
    exact ⟨whole, le_rfl⟩

theorem read : Provides setting count (fun _ s => s = setting) (read : Action Setting) :=
  ⟨fun _ whole _ => ⟨⟨whole, le_rfl⟩, rfl⟩⟩

theorem update {f : Store → Store} (h : ∀ s : Store, s.IsWhole → count ≤ s.contents.length →
      (f s).IsWhole ∧ s.contents.length ≤ (f s).contents.length) :
    Provides setting count (fun _ _ => True) (Action.update f) :=
  changed fun stage => h stage.store

theorem set (number : Nat) {c : Content} (hc : c.IsPresent count) :
    Provides setting count (fun _ _ => True) (Action.update (·.set number c)) :=
  update fun s whole le => ⟨whole.set number (hc.mono le), by rw [Store.set, List.length_set]⟩

/-- What is looked up is found in a whole store. -/
theorem known {find : Store → Nat → Option α} {number : Nat}
    (h : ∀ s a, s.IsWhole → find s number = some a → g s.contents.length a) :
    Provides setting count g (Action.known find number) := by
  refine ⟨fun stage whole _ => ?_⟩
  cases found : find stage.store number with
  | some a =>
    rw [run_known found]
    exact ⟨⟨whole, le_rfl⟩, h _ a whole found⟩
  | none =>
    have run : Action.known find number setting stage = .error (.noEntry (Number.natText number)) stage := by
      have here : Action.store setting stage = .ok stage.store stage := rfl
      rw [Action.known, run_bind here, found]
      rfl
    rw [run]
    exact ⟨whole, le_rfl⟩

theorem anyKnown (find : Store → Nat → Option α) (number : Nat) :
    Provides setting count (fun _ _ => True) (Action.known find number) :=
  known fun _ _ _ _ => trivial

theorem write (v : Value) : Provides setting count (fun _ _ => True) (Action.write v) :=
  bind (g := fun _ _ => True) ⟨fun _ whole _ => ⟨⟨whole, le_rfl⟩, trivial⟩⟩ fun _ _ _ _ =>
    bind (logged fun _ => rfl) fun _ _ _ _ => anyOf _

/-! ## New objects -/

theorem add {c : Content} (hc : c.IsPresent count) :
    Provides setting count (fun more number => number < more) (Action.add c) := by
  refine ⟨fun stage whole le => ?_⟩
  have longer : (stage.store.add c).contents.length = stage.store.contents.length + 1 := by
    rw [Store.add, List.length_append, List.length_singleton]
  change ((stage.store.add c).IsWhole ∧ _ ≤ (stage.store.add c).contents.length) ∧
    _ < (stage.store.add c).contents.length
  rw [longer]
  exact ⟨⟨whole.add (hc.mono le), Nat.le_succ _⟩, Nat.lt_succ_self _⟩

theorem make (kind : ObjectKind) {c : Content} (hc : c.IsPresent count) :
    Provides setting count IsPresent (Action.make kind c) :=
  bind (add hc) fun _ _ _ below => pure fun _ le => Value.isPresent_object.2 (below.trans_le le)

theorem mark : Provides setting count (fun _ _ => True) Action.mark :=
  ⟨fun _ whole _ => ⟨⟨whole, le_rfl⟩, trivial⟩⟩

theorem newBuilder {dialect : Value} (h : IsPresent count dialect) :
    Provides setting count (fun more number => number < more) (Action.newBuilder dialect .empty) :=
  add ⟨h, fun _ _ _ => rfl⟩

theorem chooseDialect {v : Value} (h : IsPresent count v) :
    Provides setting count IsPresent (Action.chooseDialect v) := by
  have create (name : String) : Provides setting count IsPresent
      (do Action.makeDialect (← Action.ofExcept ((← MonadReader.read).registry.create name))) :=
    bind read fun _ _ _ _ => bind (anyOf _) fun d _ _ _ => make _ trivial
  unfold Action.chooseDialect
  split
  · exact create _
  · exact create _
  · exact pure fun _ le => h.mono le

/-! ## Copies -/

theorem builder (number : Nat) : Provides setting count
    (fun more b => number < more ∧ IsPresent more b.dialect ∧ IsPresent more b.query)
    (Action.known Store.builder? number) :=
  known fun _ _ whole found => ⟨Store.lt_length_of_builder? found, whole.builder found⟩

theorem statement (number : Nat) : Provides setting count
    (fun more x => (Content.statement x).IsPresent more) (Action.known Store.statement? number) :=
  known fun _ _ whole found => whole.content (Store.content?_of_statement? found)

theorem factory (number : Nat) : Provides setting count
    (fun more f => (Content.factory f).IsPresent more) (Action.known Store.factory? number) :=
  known fun s f whole found => by
    rw [Store.factory?] at found
    split at found
    · rename_i here
      exact Option.some.inj found ▸ whole.content here
    · cases found

theorem table (number : Nat) : Provides setting count
    (fun more t => (Content.table t).IsPresent more) (Action.known Store.table? number) :=
  known fun s t whole found => by
    rw [Store.table?] at found
    split at found
    · rename_i here
      exact Option.some.inj found ▸ whole.content here
    · cases found

theorem snapshot (number : Nat) : Provides setting count IsPresent (Action.snapshot number) := by
  refine bind (builder number) fun b more _ there => ⟨fun stage whole le => ?_⟩
  obtain ⟨copied, grown, present⟩ := whole.copyQuery (there.2.2.mono le)
  exact ⟨⟨copied, grown⟩, present⟩

theorem clone (number : Nat) :
    Provides setting count (fun more copy => copy < more) (Action.clone number) := by
  refine bind (builder number) fun b more _ ⟨below, dialect, query⟩ => ⟨fun stage whole le => ?_⟩
  obtain ⟨copied, grown⟩ := whole.copyBuilder (below.trans_le le) (dialect.mono le) (query.mono le)
  exact ⟨⟨copied, grown.le⟩, grown⟩

end Provides

end Action

/-- What names stand for is there, and functions leave whole stores. -/
structure Setting.Provides (setting : Setting) (count : Nat) : Prop where
  resolved : ∀ name v, setting.resolve name = .ok v → IsPresent count v
  calls : ∀ (f : Function) (more : Nat), count ≤ more →
    Action.Provides setting more (fun _ _ => True) fun _ => setting.call f

theorem Setting.Provides.later {setting : Setting} {count more : Nat} (hs : setting.Provides count)
    (le : count ≤ more) : setting.Provides more :=
  ⟨fun name v hv => (hs.resolved name v hv).mono le, fun f last le' => hs.calls f last (le.trans le')⟩

def GivenPresent (count : Nat) (given : Option Value) : Prop :=
  ∀ v, given = some v → IsPresent count v

variable {setting : Setting} {count : Nat} {v : Value} {given : Option Value}

namespace Action.Provides

theorem query (hs : setting.Provides count) (v : Value) :
    Provides setting count IsPresent (Action.query v) := by
  unfold Action.query
  split
  · exact snapshot _
  · refine bind (anyKnown _ _) fun f more le _ => bind read ?_
    rintro _ last le' rfl
    exact bind (hs.calls f last (le.trans le')) fun number _ _ _ => snapshot number
  · exact throw _

theorem operand (h : IsPresent count v) : Provides setting count IsPresent (Action.operand v) := by
  unfold Action.operand
  split
  · exact map (snapshot _) fun _ _ there => Value.isPresent_query.2 there
  · exact pure fun _ le => h.mono le

theorem operands {items : List Value} (h : ∀ item ∈ items, IsPresent count item) :
    Provides setting count IsPresent (items.mapM Action.operand) :=
  weaken (mapM (fun _ _ _ le there => there.mono le) fun item hi => operand (h item hi))
    fun _ _ all => Value.isPresent_all.2 all

theorem bindings (h : GivenPresent count given) :
    Provides setting count IsPresent (Action.bindings given) := by
  have none : Provides setting count IsPresent (Pure.pure [] : Action (List Value)) :=
    pure fun _ _ _ _ _ => rfl
  cases given with
  | none => exact none
  | some v =>
    rw [Action.bindings]
    split
    · refine bind (ofExcept (g := fun more items => ∀ item ∈ items, IsPresent more item)
        fun items more le found => ?_) fun items _ _ there => operands there
      exact Value.isPresent_listed ((h v rfl).mono le) found
    · exact none

theorem fragment {sql : Value} (hsql : IsPresent count sql) (h : GivenPresent count given) :
    Provides setting count IsPresent (Action.fragment sql given) := by
  unfold Action.fragment
  split
  · exact pure fun _ le => (Value.isPresent_fragment.1 hsql).mono le
  · exact bind (bindings h) fun values _ _ there => bind (anyOf _) fun text _ le _ =>
      pure fun _ le' => Fragment.isPresent_mk.2 (there.mono (le.trans le'))

theorem members (hs : setting.Provides count) (h : IsPresent count v) :
    Provides setting count IsPresent (Action.members v) := by
  have single : IsPresent count (Members.listed [v]) :=
    Members.isPresent_listed (Value.isPresent_all.2 (List.forall_mem_singleton.2 h))
  unfold Action.members
  split
  · exact bind (query hs _) fun _ _ _ there => pure fun _ le => Members.isPresent_query (there.mono le)
  · exact bind (query hs _) fun _ _ _ there => pure fun _ le => Members.isPresent_query (there.mono le)
  · exact pure fun _ le => single.mono le
  · exact pure fun _ le => single.mono le
  · split
    · exact pure fun _ le => single.mono le
    · rename_i items found
      exact bind (operands (Value.isPresent_items h found)) fun _ _ _ there =>
        pure fun _ le => Members.isPresent_listed (there.mono le)

end Action.Provides

open Action

/-! ## Conditions -/

namespace Filter

theorem ends_isPresent (h : IsPresent count v) : IsPresent count (ends v).1 ∧ IsPresent count (ends v).2 := by
  have both {items : List Value} (found : v.items? = some items) := Value.isPresent_items h found
  unfold ends
  split
  · exact ⟨both rfl _ (by simp), both rfl _ (by simp)⟩
  · exact ⟨both rfl _ (by simp), both rfl _ (by simp)⟩
  · exact ⟨h, h⟩

variable {column value low high : Value}

theorem member_provides (hs : setting.Provides count) (negated : Bool) (h : IsPresent count value) :
    Provides setting count IsPresent (member negated column value) :=
  .bind (.members hs h) fun _ _ _ there => .bind (.anyOf _) fun _ _ le _ => .pure fun _ le' =>
    Predicate.isPresent_member (there.mono (le.trans le'))

theorem null_provides (negated : Bool) : Provides setting count IsPresent (null negated column) :=
  .bind (.anyOf _) fun _ _ _ _ => .pure fun _ _ => Predicate.isPresent_null _ _

theorem between_provides (negated : Bool) (hl : IsPresent count low) (hh : IsPresent count high) :
    Provides setting count IsPresent (between negated column low high) :=
  .bind (.operand hl) fun _ _ le there => .bind (.operand (hh.mono le)) fun _ _ le' there' =>
    .bind (.anyOf _) fun _ _ lt _ => .pure fun _ lt' =>
      Predicate.isPresent_between (there.mono (le'.trans (lt.trans lt'))) (there'.mono (lt.trans lt'))

theorem routed_provides (hs : setting.Provides count) (operator : String) (h : IsPresent count value) :
    Provides setting count IsPresent (routed operator column value) := by
  unfold routed
  split
  · exact member_provides hs _ h
  · exact null_provides _
  · exact between_provides _ (ends_isPresent h).1 (ends_isPresent h).2
  · exact .bind (.operand h) fun _ _ _ there => .bind (.anyOf _) fun _ _ le _ => .pure fun _ le' =>
      Predicate.isPresent_comparison (there.mono (le.trans le'))

theorem compare_provides (hs : setting.Provides count) (operator : Value) (h : IsPresent count value) :
    Provides setting count IsPresent (compare column operator value) := by
  rw [compare]
  split
  · exact .bind (.write _) fun _ _ le _ => routed_provides (hs.later le) _ (h.mono le)
  · exact .bind (g := fun _ _ => True) (.pure fun _ _ => trivial) fun _ _ le _ =>
      routed_provides (hs.later le) _ (h.mono le)

end Filter

theorem Test.predicate_provides (hs : setting.Provides count) (call : String) (test : Test)
    {arguments : List Value} (h : ∀ a ∈ arguments, IsPresent count a) :
    Provides setting count IsPresent (test.predicate call arguments) := by
  unfold Test.predicate
  split
  · exact Filter.routed_provides hs _ (h _ (by simp))
  · exact Filter.compare_provides hs _ (h _ (by simp))
  · exact Filter.member_provides hs _ (h _ (by simp))
  · exact Filter.null_provides _
  · exact Filter.between_provides _ (h _ (by simp)) (h _ (by simp))
  · exact .bind (.query hs _) fun _ _ _ there => .pure fun _ le =>
      Predicate.isPresent_nonempty (there.mono le)
  · exact .bind (.fragment (h _ (by simp)) nofun) fun _ _ _ there => .pure fun _ le =>
      Predicate.isPresent_raw (there.mono le)
  · refine .bind (.fragment (h _ (by simp)) fun v hv => ?_) fun _ _ _ there => .pure fun _ le =>
      Predicate.isPresent_raw (there.mono le)
    exact Option.some.inj hv ▸ h _ (by simp)
  · exact .throw _

theorem Filter.condition_provides (hs : setting.Provides count) (call : String) (f : Filter)
    {arguments : List Value} (h : ∀ a ∈ arguments, IsPresent count a) :
    Provides setting count IsPresent (f.condition call arguments) :=
  .bind (f.test.predicate_provides hs call h) fun _ _ _ there => .pure fun _ le =>
    Condition.isPresent_mk (there.mono le)

end SqlComposition
