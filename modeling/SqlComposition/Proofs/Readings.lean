import SqlComposition.Proofs.Isolation
import SqlComposition.Proofs.Runs

/-!
What is read of an object. Where builders and statements hold no objects, what is written of one of them
is made of its own contents alone, so it stays the same as long as these do. In a session, a step
therefore changes nothing that can be read of any object but the one that it is a call of.
-/

namespace SqlComposition
open SqlComposition.Action Store

/-- What a statement has of its own, beside its conditions, holds no object. -/
structure Statement.DataSettled (x : Statement) : Prop where
  table : x.table.IsSettled
  rows : Value.AllSettled x.rows
  assignments : Value.EntriesSettled x.assignments
  returning : Value.AllSettled x.returning

structure Statement.IsSettled (x : Statement) : Prop extends x.DataSettled where
  conditions : Condition.AllSettled x.conditions

theorem Value.entriesSettled_iff {entries : List (Value × Value)} :
    Value.EntriesSettled entries ↔ ∀ e ∈ entries, e.1.IsSettled ∧ e.2.IsSettled :=
  forall_mem_iff_of_cons (by rw [Value.EntriesSettled]; trivial)
    (fun _ _ => by rw [Value.EntriesSettled, and_assoc]) entries

theorem Value.IsSettled.cellBy {v : Value} (h : v.IsSettled) (inside : Nat → Option Content) :
    v.cellBy inside = v := by
  cases v with
  | object _ => rw [Value.IsSettled] at h; exact h.elim
  | scalar _ | list _ | tuple _ | mapping _ | fragment _ | query _ | part _ | bound _ =>
    exact h.mapObjects _

namespace Statement

theorem mapRow_settled {key content : Value → Value} (hk : ∀ v : Value, v.IsSettled → key v = v)
    (hc : ∀ v : Value, v.IsSettled → content v = v) {row : Value} (h : row.IsSettled) :
    mapRow key content row = row := by
  cases row with
  | mapping entries =>
    rw [Value.IsSettled, Value.entriesSettled_iff] at h
    have same : ∀ e ∈ entries, (fun e : Value × Value => (key e.1, content e.2)) e = id e :=
      fun e he => Prod.ext (hk _ (h e he).1) (hc _ (h e he).2)
    rw [mapRow, List.map_congr_left same, List.map_id]
  | scalar _ | list _ | tuple _ | fragment _ | query _ | part _ | bound _ | object _ => exact hk _ h

theorem IsSettled.mapData {x : Statement} (h : x.IsSettled) {f : Object → Object}
    {content : Value → Value} (hc : ∀ v : Value, v.IsSettled → content v = v) :
    x.mapData f content = x := by
  have rows : ∀ row ∈ x.rows, mapRow (·.mapObjects f) content row = id row := fun row hr =>
    mapRow_settled (fun v hv => hv.mapObjects f) hc (Value.allSettled_iff.1 h.rows row hr)
  have assignments : ∀ e ∈ x.assignments,
      (fun e : Value × Value => (e.1.mapObjects f, content e.2)) e = id e := fun e he =>
    have settled := Value.entriesSettled_iff.1 h.assignments e he
    Prod.ext (settled.1.mapObjects f) (hc _ settled.2)
  have conditions : ∀ c ∈ x.conditions, c.mapObjects f = id c := fun c hm =>
    (Condition.allSettled_iff.1 h.conditions c hm).mapObjects f
  have returning : ∀ v ∈ x.returning, v.mapObjects f = id v := fun v hv =>
    (Value.allSettled_iff.1 h.returning v hv).mapObjects f
  rw [Statement.mapData, h.table.mapObjects, List.map_congr_left rows, List.map_congr_left assignments,
    List.map_congr_left conditions, List.map_congr_left returning]
  simp only [List.map_id]

end Statement

namespace Store

variable {s : Store} {number : Nat}

/-- An object as it is written inside of another. -/
def lookFrom (s : Store) (number : Nat) (o : Object) : Object :=
  o.shownBy (s.shownWithin s.contents.length [number])

/-- A builder is written with the objects in its query as they are written inside of it. -/
theorem shown_of_builder? {b : Builder} (h : s.builder? number = some b) :
    s.shown number = some (.builder { b with query := b.query.mapObjects (s.lookFrom number) }) := by
  rw [shown, shownWithin, if_neg (by simp), content?_of_builder? h]
  rfl

/-- Where nothing is held, what is written is what is there. -/
theorem shown_builder {b : Builder} (h : s.builder? number = some b) (hb : b.query.IsSettled) :
    s.shown number = some (.builder b) := by
  rw [shown_of_builder? h, hb.mapObjects]

theorem shown_statement {x : Statement} (h : s.statement? number = some x) (hx : x.IsSettled) :
    s.shown number = some (.statement x) := by
  rw [shown, shownWithin, if_neg (by simp), content?_of_statement? h, Option.map_some, Content.shownBy,
    hx.mapData fun v hv => hv.cellBy _]

theorem look_object {o : Object} (h : o.kind.isWritten = true) :
    s.look (.object o) = .object { o with form := s.rendition o.number } := by
  rw [look, Value.mapObjects_object, Object.shownBy, if_pos h]
  rfl

theorem rendition_statement {x : Statement} (h : s.statement? number = some x) (hx : x.IsSettled) :
    s.rendition number = x.rendition := by
  rw [rendition, shown_statement h hx]
  rfl

end Store

theorem Value.write_outcome (v : Value) : v.write.outcome = (v.plainText, v.sourceless) := by
  have counted : v.write 0 = (Writing.ofExcept v.plainText) (0 + v.sourceless) := rfl
  rw [Writing.outcome, counted, Nat.zero_add]
  cases v.plainText <;> rfl

namespace Session

/-- What some work comes to in a state, and the lines it logs. Nothing else is kept of it. -/
def World.outcome {α : Type} (w : World) (work : Action α) : Except Failure α × List String :=
  match work w.scope.setting { store := w.store } with
  | .ok a stage => (.ok a, stage.log)
  | .error failure stage => (.error failure, stage.log)

namespace World

variable {α β : Type} {w : World} {number : Nat}

theorem outcome_map (f : α → β) (work : Action α) :
    w.outcome (f <$> work) = ((w.outcome work).1.map f, (w.outcome work).2) := by
  have run : (f <$> work) w.scope.setting { store := w.store } =
      EStateM.map f (work w.scope.setting) { store := w.store } := rfl
  simp only [outcome, run, EStateM.map]
  cases work w.scope.setting { store := w.store } <;> rfl

theorem outcome_write (v : Value) :
    w.outcome (Action.write v) =
      ((w.store.look v).plainText, Emission.lines (w.store.look v).sourceless) := by
  have run : Action.write v w.scope.setting { store := w.store } =
      Action.ofExcept (w.store.look v).write.outcome.1 w.scope.setting
        { store := w.store, log := Emission.lines (w.store.look v).write.outcome.2 } := rfl
  rw [outcome, run, Value.write_outcome]
  cases (w.store.look v).plainText <;> rfl

theorem outcome_write_object {o : Object} (h : o.kind.isWritten = true) :
    w.outcome (Action.write (.object o)) =
      ((w.store.rendition o.number).text, Emission.lines (w.store.rendition o.number).sourceless) := by
  rw [outcome_write, look_object h, Value.plainText, Value.sourceless, if_pos h, if_pos h]

theorem outcome_text (number : Nat) :
    w.outcome (Reading.text.perform number) =
      ((w.store.rendition number).text.map .text, Emission.lines (w.store.rendition number).sourceless) := by
  have written : (ObjectKind.builder).isWritten = true := rfl
  rw [Reading.perform, outcome_map, Action.builderValue, outcome_write_object written]

theorem outcome_boundForm {b : Builder} (h : w.store.shown number = some (.builder b)) :
    w.outcome (Reading.boundForm number) = (b.bound, Emission.lines b.sourcelessBound) := by
  have shown : Action.shownBuilder number w.scope.setting { store := w.store } =
      .ok b { store := w.store } :=
    run_known (by rw [h])
  have logged : Action.logSourceless b.sourcelessBound w.scope.setting { store := w.store } =
      .ok () { store := w.store, log := Emission.lines b.sourcelessBound } := rfl
  rw [outcome, Reading.boundForm, run_bind shown, run_bind logged]
  cases b.bound <;> rfl

theorem outcome_values (number : Nat) :
    w.outcome (Reading.values.perform number) =
      ((w.outcome (Reading.boundForm number)).1.map fun form => .list form.values,
        (w.outcome (Reading.boundForm number)).2) := by
  have listed : Reading.perform number .values =
      (fun form : BoundQuery => Value.list form.values) <$> Reading.boundForm number := rfl
  rw [listed, outcome_map]

/-- What the forms of a builder are depends on what the builder is with all in it as it is written. -/
theorem outcome_of_shown {v : World} {b : Builder} (hw : w.store.shown number = some (.builder b))
    (hv : v.store.shown number = some (.builder b)) {r : Reading} (hr : r = .text ∨ r = .bound ∨ r = .values) :
    v.outcome (r.perform number) = w.outcome (r.perform number) := by
  have bound : v.outcome (Reading.boundForm number) = w.outcome (Reading.boundForm number) := by
    rw [outcome_boundForm hv, outcome_boundForm hw]
  obtain rfl | rfl | rfl := hr
  · rw [outcome_text, outcome_text, rendition, rendition, hv, hw]
  · rw [Reading.perform, outcome_map, outcome_map, bound]
  · rw [outcome_values, outcome_values, bound]

theorem outcome_snapshot {b : Builder} (h : w.store.builder? number = some b) (hb : b.query.IsSettled) :
    w.outcome (Action.snapshot number) = (.ok b.query, []) := by
  have found : Action.known Store.builder? number w.scope.setting { store := w.store } =
      .ok b { store := w.store } := run_known h
  have here : Action.store w.scope.setting { store := w.store } =
      .ok w.store { store := w.store } := rfl
  rw [outcome, Action.snapshot, run_bind found, run_bind here, copyQuery_settled _ hb]
  rfl

/-- What is read of a builder without objects is made of its query and its dialect alone. -/
theorem outcome_perform {v : World} {b : Builder} (hw : w.store.builder? number = some b)
    (hv : v.store.builder? number = some b) (hb : b.query.IsSettled) {r : Reading} (hr : r ≠ .copy) :
    v.outcome (r.perform number) = w.outcome (r.perform number) := by
  cases r with
  | text => exact outcome_of_shown (shown_builder hw hb) (shown_builder hv hb) (.inl rfl)
  | bound => exact outcome_of_shown (shown_builder hw hb) (shown_builder hv hb) (.inr (.inl rfl))
  | values => exact outcome_of_shown (shown_builder hw hb) (shown_builder hv hb) (.inr (.inr rfl))
  | query =>
    rw [Reading.perform, outcome_map, outcome_map, outcome_snapshot hw hb, outcome_snapshot hv hb]
  | copy => exact absurd rfl hr

theorem outcome_use_text {v : World} {x : Statement} (hw : w.store.statement? number = some x)
    (hv : v.store.statement? number = some x) (hx : x.IsSettled) :
    v.outcome (use x.kind number .text) = w.outcome (use x.kind number .text) := by
  have written : (ObjectKind.statement x.kind).isWritten = true := rfl
  rw [use, outcome_map, outcome_map, Statement.valueOf, outcome_write_object written,
    outcome_write_object written, rendition_statement hw hx, rendition_statement hv hx]

end World

/-! ## Isolation -/

/-- What one state has of an object the other has as well: its contents, and what is read of it if it is a
builder, or a statement whose own data hold no object. -/
structure World.Undisturbed (w next : World) (number : Nat) : Prop where
  content : number < w.store.contents.length → next.store.content? number = w.store.content? number
  builder : ∀ b, w.store.builder? number = some b → ∀ r : Reading, r ≠ .copy →
    next.outcome (r.perform number) = w.outcome (r.perform number)
  statement : ∀ x, w.store.statement? number = some x → x.DataSettled →
    next.outcome (use x.kind number .text) = w.outcome (use x.kind number .text)

/-- A call that reads a builder or writes a statement, or a look at a text or a property. -/
def Task.IsReading (resolve : String → Except Failure Value) : Task → Prop
  | call receiver method _ =>
    (∃ number form, resolve receiver = .ok (.object ⟨number, .builder, form⟩) ∧
        (Reading.ofName? method).isSome) ∨
      ∃ number kind form, resolve receiver = .ok (.object ⟨number, .statement kind, form⟩) ∧
        method = "build"
  | text _ | property _ _ => True
  | make _ _ _ | evaluate _ | await _ => False

theorem method_of_reading {name : String} (h : (Reading.ofName? name).isSome) :
    SqlComposition.Method.ofName? name = none := by
  unfold Reading.ofName? at h
  split at h <;> first | decide +kernel | cases h

theorem method_of_build (kind : StatementKind) : Statement.Method.ofName? kind "build" = none := by
  cases kind <;> decide +kernel

theorem Task.IsReading.target? {resolve : String → Except Failure Value} {t : Task}
    (h : t.IsReading resolve) : t.target? resolve = none := by
  cases t with
  | call receiver method terms =>
    rcases h with ⟨number, form, found, reading⟩ | ⟨number, kind, form, found, rfl⟩
    · rw [Task.target?, found]
      exact if_neg (by simp [method_of_reading reading])
    · rw [Task.target?, found]
      exact if_neg (by simp [method_of_build kind])
  | text _ | property _ _ => rfl
  | make _ _ _ | evaluate _ | await _ => exact h.elim

/-- In every session of sound steps a step leaves alone what it is not a call of: a call that changes a
builder or a statement changes that one only, and a call that reads changes nothing at all. Builders that
were attached, and those they were attached to, are objects like any other. -/
theorem objects_isolated {registry : Registry} {w : World} (hw : Reaches registry w) {s : Step}
    (hs : s.IsSound w) {number : Nat}
    (ht : s.task.target? w.resolve ≠ some number ∨ s.task.IsReading w.resolve) :
    w.Undisturbed (perform w s).1 number := by
  obtain ⟨resolve, settled⟩ := hw.settled
  have closed : s.task.target? w.resolve ≠ some number := by
    rcases ht with other | reading
    · exact other
    · simp [reading.target?]
  have same (h : number < w.store.contents.length) :
      (perform w s).1.store.content? number = w.store.content? number :=
    (hw.apart hs).same number h closed
  have there {c : Content} (hc : w.store.content? number = some c) :
      (perform w s).1.store.content? number = some c := by
    rw [same (List.getElem?_eq_some_iff.1 hc).1, hc]
  refine ⟨same, fun b hb r hr => ?_, fun x hx data => ?_⟩
  · have found := content?_of_builder? hb
    have after : (perform w s).1.store.builder? number = some b := by rw [builder?, there found]
    exact World.outcome_perform hb after (settled number _ found) hr
  · have found := content?_of_statement? hx
    have after : (perform w s).1.store.statement? number = some x := by rw [statement?, there found]
    exact World.outcome_use_text hx after ⟨data, settled number _ found⟩

def making (name : String) : Step :=
  ⟨.make "QueryBuilder" [] {}, some name⟩

def attaching : Step :=
  ⟨.call "outer" "where_in" [.scalar (.text "id"), .variable "inner"], none⟩

def selecting : Step :=
  ⟨.call "inner" "select" [.scalar (.text "id")], none⟩

def twoBuilders : World :=
  World.after {} [making "inner", making "outer", attaching]

theorem functions_of_none {w : World} (h : w.store.contents.any Content.isFunction = false) (number : Nat)
    (f : Function) (hf : w.store.function? number = some f) : f.IsSound w.resolve := by
  have member := List.mem_of_getElem? (content?_of_function? hf)
  exact absurd rfl (List.any_eq_false.1 h _ member)

theorem making_sound {w : World} (name : String)
    (h : w.store.contents.any Content.isFunction = false) : (making name).IsSound w := by
  refine ⟨⟨by rw [Term.AllSound]; trivial, fun values hv c hm => ?_⟩, functions_of_none h⟩
  obtain rfl : Construction.builder = c := Option.some.inj hm
  rw [Term.AllYield] at hv
  rw [hv]
  trivial

theorem call_sound {w : World} {receiver method : String} {terms : List Term} {name : Option String}
    {v : Value} (hf : w.store.contents.any Content.isFunction = false) (hr : w.resolve receiver = .ok v)
    (ht : Term.AllSound w.resolve terms)
    (h : ∀ values, Term.AllYield w.resolve terms values → Admits v method values) :
    (⟨.call receiver method terms, name⟩ : Step).IsSound w := by
  refine ⟨⟨ht, fun values hv u hu => ?_⟩, functions_of_none hf⟩
  obtain rfl := Except.ok.inj (hr.symm.trans hu)
  exact h values hv

theorem attaching_sound :
    attaching.IsSound (World.after {} [making "inner", making "outer"]) := by
  refine call_sound (v := Action.builderValue 3) rfl rfl (by simp [Term.AllSound, Term.IsSound])
    fun values hv m hm => ?_
  obtain rfl : SqlComposition.Method.filter ⟨.and, .member false⟩ = m := Option.some.inj hm
  simp only [Term.AllYield, Term.Yields] at hv
  obtain ⟨_, _, rfl, -, _, _, rfl, found, rfl⟩ := hv
  obtain rfl : Action.builderValue 1 = _ := Except.ok.inj found
  exact .inl rfl

theorem selecting_sound : selecting.IsSound twoBuilders := by
  have select : SqlComposition.Method.ofName? "select" = some .select := by decide +kernel
  refine call_sound (v := Action.builderValue 1) rfl rfl (by simp [Term.AllSound, Term.IsSound])
    fun values hv m hm => ?_
  obtain rfl := Option.some.inj (select.symm.trans hm)
  simp only [Term.AllYield, Term.Yields] at hv
  obtain ⟨column, _, rfl, text | ⟨mark, text⟩, rfl⟩ := hv <;> subst text <;>
    exact List.forall_mem_singleton.2 trivial

/-- The builder that another one was given to is read as before when that one is changed. -/
theorem outer_isolated : twoBuilders.Undisturbed (perform twoBuilders selecting).1 3 := by
  have reached : Reaches .standard twoBuilders :=
    Reaches.start.after ⟨making_sound "inner" rfl, making_sound "outer" rfl, attaching_sound, trivial⟩
  have select : SqlComposition.Method.ofName? "select" = some .select := by decide +kernel
  have inner : twoBuilders.resolve "inner" = .ok (Action.builderValue 1) := rfl
  have target : selecting.task.target? twoBuilders.resolve = some 1 := by
    rw [selecting, Task.target?, inner]
    exact if_pos (by rw [select]; rfl)
  exact objects_isolated reached selecting_sound (.inl (by simp [target]))

end Session

end SqlComposition
