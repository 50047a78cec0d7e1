import SqlComposition.Proofs.Readings

/-!
Builders in the cells of statements. The rows of an INSERT and the assignments of an UPDATE keep the
builders they are given as objects. A statement is therefore written as if each of them had been copied
just then: calls of the builder that come between giving it and writing the statement are seen in the text.
-/

namespace SqlComposition
open SqlComposition.Action Store

/-- The content of a cell with the query that a builder has now in the place of the builder. -/
def Value.copiedFrom (s : Store) : Value → Value
  | .object o =>
    match s.builder? o.number with
    | some b => .query b.query
    | none => .object o
  | other => other

/-- The statement as if the builders in its cells were copied now. -/
def Statement.copiedFrom (s : Store) (x : Statement) : Statement :=
  { x with
    rows := x.rows.map (mapRow id (·.copiedFrom s))
    assignments := x.assignments.map fun e => (e.1, e.2.copiedFrom s) }

/-- A cell holds no object or is a builder. -/
def Value.IsCell (s : Store) (v : Value) : Prop :=
  v.IsSettled ∨ ∃ o : Object, v = .object o ∧ (s.builder? o.number).isSome

def Value.IsRow (s : Store) (row : Value) : Prop :=
  row.IsSettled ∨ ∃ entries, row = .mapping entries ∧ ∀ e ∈ entries, e.1.IsSettled ∧ e.2.IsCell s

/-- Nothing in a statement holds an object, but the cells of rows and assignments may be builders. -/
structure Statement.HasCells (s : Store) (x : Statement) : Prop where
  table : x.table.IsSettled
  rows : ∀ row ∈ x.rows, row.IsRow s
  assignments : ∀ e ∈ x.assignments, e.1.IsSettled ∧ e.2.IsCell s
  returning : Value.AllSettled x.returning

theorem Value.IsSettled.copiedFrom {v : Value} (h : v.IsSettled) (s : Store) : v.copiedFrom s = v := by
  cases v with
  | object _ => rw [Value.IsSettled] at h; exact h.elim
  | scalar _ | list _ | tuple _ | mapping _ | fragment _ | query _ | part _ | bound _ => rfl

namespace Store

variable {s : Store} {number : Nat} {x : Statement}

/-- Where builders hold nothing, a builder in a cell of a statement is written as its query. -/
theorem cellBy_of_isCell (hx : s.statement? number = some x)
    (hb : ∀ number b, s.builder? number = some b → b.query.IsSettled) {v : Value} (h : v.IsCell s) :
    v.cellBy (s.shownWithin s.contents.length [number]) = v.copiedFrom s := by
  rcases h with settled | ⟨o, rfl, present⟩
  · rw [settled.cellBy, settled.copiedFrom]
  · obtain ⟨b, found⟩ := Option.isSome_iff_exists.1 present
    have there := content?_of_builder? found
    have other : o.number ≠ number := by
      intro same
      rw [same, content?_of_statement? hx] at there
      cases there
    have fresh : ¬[number].contains o.number = true := by simpa using other
    obtain ⟨before, deep⟩ : ∃ depth, s.contents.length = depth + 1 :=
      Nat.exists_eq_succ_of_ne_zero (Nat.ne_zero_of_lt (List.getElem?_eq_some_iff.1 there).1)
    have inside : s.shownWithin s.contents.length [number] o.number = some (.builder b) := by
      rw [deep, shownWithin, if_neg fresh, there, Option.map_some, Content.shownBy,
        (hb _ b found).mapObjects]
    rw [Value.cellBy, inside, Value.copiedFrom, found]

theorem mapRow_of_isCell (hx : s.statement? number = some x)
    (hb : ∀ number b, s.builder? number = some b → b.query.IsSettled) (f : Object → Object)
    {row : Value} (h : row.IsRow s) :
    Statement.mapRow (·.mapObjects f) (·.cellBy (s.shownWithin s.contents.length [number])) row =
      Statement.mapRow id (·.copiedFrom s) row := by
  rcases h with settled | ⟨entries, rfl, cells⟩
  · rw [Statement.mapRow_settled (fun v hv => hv.mapObjects f) (fun v hv => hv.cellBy _) settled,
      Statement.mapRow_settled (fun v _ => id_eq v) (fun v hv => hv.copiedFrom s) settled]
  · have same : ∀ e ∈ entries, (fun e : Value × Value =>
        (e.1.mapObjects f, e.2.cellBy (s.shownWithin s.contents.length [number]))) e =
        (fun e : Value × Value => (id e.1, e.2.copiedFrom s)) e := fun e he =>
      Prod.ext ((cells e he).1.mapObjects f) (cellBy_of_isCell hx hb (cells e he).2)
    rw [Statement.mapRow, Statement.mapRow, List.map_congr_left same]

/-- A statement is written with the queries that the builders in its cells have at that time. -/
theorem rendition_of_hasCells (hx : s.statement? number = some x)
    (hb : ∀ number b, s.builder? number = some b → b.query.IsSettled)
    (hc : Condition.AllSettled x.conditions) (h : x.HasCells s) :
    s.rendition number = (x.copiedFrom s).rendition := by
  have data : x.mapData (·.shownBy (s.shownWithin s.contents.length [number]))
      (·.cellBy (s.shownWithin s.contents.length [number])) = x.copiedFrom s := by
    have rows := List.map_congr_left fun row hr =>
      mapRow_of_isCell hx hb (·.shownBy (s.shownWithin s.contents.length [number])) (h.rows row hr)
    have assignments : ∀ e ∈ x.assignments, (fun e : Value × Value =>
        (e.1.mapObjects (·.shownBy (s.shownWithin s.contents.length [number])),
          e.2.cellBy (s.shownWithin s.contents.length [number]))) e =
        (fun e : Value × Value => (e.1, e.2.copiedFrom s)) e := fun e he =>
      Prod.ext ((h.assignments e he).1.mapObjects _) (cellBy_of_isCell hx hb (h.assignments e he).2)
    have conditions : ∀ c ∈ x.conditions, c.mapObjects _ = id c := fun c hm =>
      (Condition.allSettled_iff.1 hc c hm).mapObjects
        (·.shownBy (s.shownWithin s.contents.length [number]))
    have returning : ∀ v ∈ x.returning, v.mapObjects _ = id v := fun v hv =>
      (Value.allSettled_iff.1 h.returning v hv).mapObjects
        (·.shownBy (s.shownWithin s.contents.length [number]))
    rw [Statement.mapData, h.table.mapObjects, rows, List.map_congr_left assignments,
      List.map_congr_left conditions, List.map_congr_left returning, List.map_id, List.map_id]
    rfl
  have shown : s.shown number = some (.statement (x.copiedFrom s)) := by
    rw [Store.shown, shownWithin, if_neg (by simp), content?_of_statement? hx, Option.map_some,
      Content.shownBy, data]
  rw [rendition, shown]
  rfl

end Store

theorem Value.IsCell.mono {s t : Store} (h : ∀ k, (s.builder? k).isSome → (t.builder? k).isSome) {v : Value}
    (hv : v.IsCell s) : v.IsCell t :=
  hv.imp id fun ⟨o, same, present⟩ => ⟨o, same, h _ present⟩

theorem Statement.HasCells.mono {s t : Store} (h : ∀ k, (s.builder? k).isSome → (t.builder? k).isSome)
    {x : Statement} (hx : x.HasCells s) : x.HasCells t where
  table := hx.table
  rows := fun row hr => (hx.rows row hr).imp id fun ⟨entries, same, cells⟩ =>
    ⟨entries, same, fun e he => ⟨(cells e he).1, (cells e he).2.mono h⟩⟩
  assignments := fun e he => ⟨(hx.assignments e he).1, (hx.assignments e he).2.mono h⟩
  returning := hx.returning

namespace Session

variable {registry : Registry} {w : World} {number : Nat} {x : Statement}

/-- A statement that no step calls stays as it is, and what was a builder still is one. -/
theorem Reaches.statement_after (hw : Reaches registry w) {steps : List Step}
    (h : Throughout (fun w s => s.IsSound w ∧ s.task.target? w.resolve ≠ some number) w steps)
    (hx : w.store.statement? number = some x) :
    (w.after steps).store.statement? number = some x ∧
      ∀ k, (w.store.builder? k).isSome → ((w.after steps).store.builder? k).isSome := by
  induction steps generalizing w with
  | nil => exact ⟨hx, fun _ there => there⟩
  | cons s rest ih =>
    obtain ⟨⟨sound, closed⟩, later⟩ := h
    have apart := hw.apart sound
    have present {k : Nat} {c : Content} (hc : w.store.content? k = some c) :
        k < w.store.contents.length := (List.getElem?_eq_some_iff.1 hc).1
    have here : (perform w s).1.store.statement? number = some x := by
      have found := content?_of_statement? hx
      rw [statement?, apart.same number (present found) closed, found]
    obtain ⟨kept, builders⟩ := ih (.step hw sound) later here
    refine ⟨kept, fun k some => builders k ?_⟩
    obtain ⟨b, found⟩ := Option.isSome_iff_exists.1 some
    rw [apart.builders k (present (content?_of_builder? found))]
    exact some

/-- A statement is written as if the builders in its cells were copied when it is written. Whatever was
called of them since they were put there is seen in the text, as it is in the text that is run. -/
theorem cells_written_as_they_are (hw : Reaches registry w) (hx : w.store.statement? number = some x)
    (hc : x.HasCells w.store) (later : List Step)
    (hl : Throughout (fun w s => s.IsSound w ∧ s.task.target? w.resolve ≠ some number) w later) :
    (w.after later).outcome (Action.write (Statement.valueOf x.kind number)) =
      ((x.copiedFrom (w.after later).store).rendition.text,
        Emission.lines (x.copiedFrom (w.after later).store).rendition.sourceless) := by
  obtain ⟨kept, builders⟩ := hw.statement_after hl hx
  obtain ⟨resolve, settled⟩ := (hw.after (hl.imp fun _ _ h => h.1)).settled
  have written : (ObjectKind.statement x.kind).isWritten = true := rfl
  rw [Statement.valueOf, World.outcome_write_object written,
    rendition_of_hasCells kept (fun _ _ found => settled _ _ (content?_of_builder? found))
      (settled _ _ (content?_of_statement? kept)) (hc.mono builders)]

def opening : Step :=
  ⟨.make "StatementFactory" [] {}, some "db"⟩

def updating : Step :=
  ⟨.call "db" "update" [.scalar (.text "a")], some "change"⟩

def assigning : Step :=
  ⟨.call "change" "set" [.mapping [(.scalar (.text "x"), .variable "inner")]], none⟩

def filtering : Step :=
  ⟨.call "inner" "where_null" [.scalar (.text "c")], none⟩

/-- An UPDATE that has a builder in a cell. -/
def assigned : World :=
  World.after {} [opening, making "inner", updating, assigning]

theorem opening_sound : opening.IsSound {} := by
  refine ⟨⟨by rw [Term.AllSound]; trivial, fun values _ c hc => ?_⟩, functions_of_none rfl⟩
  obtain rfl : Construction.factory = c := Option.some.inj hc
  trivial

theorem updating_sound : updating.IsSound (World.after {} [opening, making "inner"]) := by
  refine call_sound (v := .object ⟨2, .factory, .endless⟩) rfl rfl
    (by simp [Term.AllSound, Term.IsSound]) fun values _ m hm => ?_
  obtain rfl : FactoryMethod.statement .update = m := Option.some.inj hm
  trivial

theorem assigning_sound : assigning.IsSound (World.after {} [opening, making "inner", updating]) := by
  refine call_sound (v := Statement.valueOf .update 5) rfl rfl
    (by simp [Term.AllSound, Term.IsSound, Term.EntriesSound]) fun values _ => ⟨fun m hm => ?_, by decide⟩
  obtain rfl : Statement.Method.set = m := Option.some.inj hm
  trivial

theorem filtering_sound : filtering.IsSound assigned := by
  refine call_sound (v := Action.builderValue 4) rfl rfl (by simp [Term.AllSound, Term.IsSound])
    fun values hv m hm => ?_
  obtain rfl : SqlComposition.Method.filter ⟨.and, .null false⟩ = m := Option.some.inj hm
  trivial

/-- The builder is changed after it was put into the UPDATE, and the text of the UPDATE changes with it. -/
theorem assigned_written_as_it_is :
    (assigned.outcome (Action.write (Statement.valueOf .update 5))).1 =
        .ok "UPDATE a SET x = (SELECT *)" ∧
      ((assigned.after [filtering]).outcome (Action.write (Statement.valueOf .update 5))).1 =
        .ok "UPDATE a SET x = (SELECT *\nWHERE c IS NULL)" := by
  have reached : Reaches .standard assigned :=
    Reaches.start.after
      ⟨opening_sound, making_sound "inner" rfl, updating_sound, assigning_sound, trivial⟩
  have statement : assigned.store.statement? 5 =
      some ⟨.update, 1, .text "a", [], [(.text "x", Action.builderValue 4)], [], []⟩ := rfl
  have cells : Statement.HasCells assigned.store
      ⟨.update, 1, .text "a", [], [(.text "x", Action.builderValue 4)], [], []⟩ := by
    refine ⟨?_, List.forall_mem_nil _, List.forall_mem_singleton.2 ⟨?_, .inr ⟨_, rfl, rfl⟩⟩, ?_⟩ <;>
      simp [Value.text, Value.IsSettled, Value.AllSettled]
  have target : filtering.task.target? assigned.resolve = some 4 := rfl
  have before := cells_written_as_they_are reached statement cells [] trivial
  have after := cells_written_as_they_are reached statement cells [filtering]
    ⟨⟨filtering_sound, by simp [target]⟩, trivial⟩
  exact ⟨(congrArg Prod.fst before).trans rfl, (congrArg Prod.fst after).trans rfl⟩

end Session

end SqlComposition
