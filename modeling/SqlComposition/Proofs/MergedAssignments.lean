import SqlComposition.Proofs.Assignments
import SqlComposition.Proofs.ClosedSessions

/-!
One text for all the ways to give an UPDATE the same. The calls that assign columns may be many or one, and
the calls for conditions and for columns to give back may stand anywhere between them. The text fails for
want of data if no column is assigned; if there are some, it fails only where a part of it does.
-/

namespace SqlComposition
open SqlComposition.Action Store

/-! ## Cells that look the same -/

/-- A content of a cell that is written with the objects below a number, and with no others. -/
def Value.IsWithin (count : Nat) (v : Value) : Prop :=
  ∀ inside others : Nat → Option Content, (∀ k < count, inside k = others k) →
    v.cellBy inside = v.cellBy others

theorem Value.IsSettled.isWithin {v : Value} (h : v.IsSettled) (count : Nat) : v.IsWithin count :=
  fun inside others _ => (h.cellBy inside).trans (h.cellBy others).symm

theorem HasObjects.IsPresent.isWithin {v : Value} {count : Nat} (h : IsPresent count v) :
    v.IsWithin count :=
  fun _ _ same => Value.cellBy_congr same h

namespace Store

variable {s t : Store} {number : Nat} {columns : List (String × Value)}

/-- Inside of an object, all that was there before it was changed is written as it was. -/
theorem IsClosed.shownWithin_changedAt (closed : s.IsClosed) (changed : ChangedAt number s t)
    (there : number < s.contents.length) {k : Nat} (hk : k < s.contents.length) :
    t.shownWithin t.contents.length [number] k = s.shownWithin s.contents.length [number] k :=
  shownWithin_same closed.isSelfContained
    (fun k hk away => changed.same k hk fun same => away (same ▸ List.mem_singleton_self k))
    (List.nodup_singleton number) (List.forall_mem_singleton.2 there) hk (Nat.lt_succ_self _)
    (Nat.lt_succ_of_le changed.length_le)

theorem IsClosed.cellsFrom_changedAt (closed : s.IsClosed) (changed : ChangedAt number s t)
    (there : number < s.contents.length) (within : ∀ e ∈ columns, e.2.IsWithin s.contents.length) :
    t.cellsFrom number columns = s.cellsFrom number columns := by
  refine List.map_congr_left fun e he => ?_
  rw [within e he _ _ fun k hk => closed.shownWithin_changedAt changed there hk]

/-- Where builders hold nothing, cells with builders are written without any object. -/
theorem settled_cellsFrom {x : Statement} (hx : s.statement? number = some x)
    (hb : ∀ k b, s.builder? k = some b → b.query.IsSettled) (h : ∀ e ∈ columns, e.2.IsCell s) :
    ∀ e ∈ s.cellsFrom number columns, e.2.IsSettled := by
  refine List.forall_mem_map.2 fun e he => ?_
  rw [cellBy_of_isCell hx hb (h e he)]
  rcases h e he with settled | ⟨o, same, present⟩
  · rwa [settled.copiedFrom]
  · obtain ⟨b, found⟩ := Option.isSome_iff_exists.1 present
    rw [same, Value.copiedFrom, found, Value.IsSettled]
    exact hb _ b found

end Store

namespace Statement.Mutation

variable {setting : Setting} {number executor : Nat} {table : String} {s t t' : Store}
  {stage after after' : Stage} {calls others : List (Mutation .update)}

def assigned (calls : List (Mutation .update)) : List (String × Value) :=
  calls.flatMap columns

/-- What is given to the calls of an UPDATE stands for the same wherever they are made. -/
structure IsSteady (setting : Setting) (number : Nat) (s : Store) (calls : List (Mutation .update)) :
    Prop where
  closed : s.IsClosed
  within : ∀ e ∈ assigned calls, e.2.IsWithin s.contents.length
  conditions : ∀ a ∈ calls.filterMap asked?, ∀ v ∈ a.2, v.IsSteadyArgument setting number s s

/-- Calls that give an UPDATE the same: columns that are merged to the same, and conditions and columns to
give back in the same order. -/
structure SameGiven (calls others : List (Mutation .update)) : Prop where
  columns : merged (assigned others) = merged (assigned calls)
  asked : others.filterMap asked? = calls.filterMap asked?
  returned : others.flatMap returned = calls.flatMap returned

/-- In two runs, conditions that were worked out of the same look the same in the end. -/
theorem conditions_alike (hs : setting.Adds) {asked : List (Filter × List Value)}
    {conditions conditions' : List Condition}
    (steady : ∀ a ∈ asked, ∀ v ∈ a.2, v.IsSteadyArgument setting number s s)
    (h : List.Forall₂ (Worked setting number s t) asked conditions)
    (h' : List.Forall₂ (Worked setting number s t') asked conditions') :
    conditions.map (·.mapObjects (t.lookFrom number)) =
      conditions'.map (·.mapObjects (t'.lookFrom number)) := by
  induction h generalizing conditions' with
  | nil =>
    cases h'
    rfl
  | @cons a c asked _ one _ ih =>
    cases h' with
    | cons one' rest =>
      obtain ⟨now, later⟩ := List.forall_mem_cons.1 steady
      obtain ⟨before, worked, first, tested, last⟩ := one
      obtain ⟨before', worked', first', tested', last'⟩ := one'
      have alike := a.1.condition_alike hs "" now first first' tested tested'
      rw [List.map_cons, List.map_cons, alike _ _ last last', ih later rest]

def textFrom (s : Store) (number : Nat) (table : String) (data : List (String × Value))
    (conditions : List Condition) (returning : List Value) : Except Failure String :=
  updateOf table (s.cellsFrom number (merged data)) (conditions.map (·.mapObjects (s.lookFrom number)))
    returning

theorem text_of_runAll (hs : setting.Adds) (named : ∀ c ∈ calls, c.NamesColumns)
    (hx : stage.store.statement? number = some (updating executor table))
    (ran : runAll number calls setting stage = .ok () after) :
    ∃ conditions,
      List.Forall₂ (Worked setting number stage.store after.store) (calls.filterMap asked?) conditions ∧
      ChangedAt number stage.store after.store ∧
      after.store.statement? number =
        some (updated executor table (assigned calls) conditions (calls.flatMap returned)) ∧
      (after.store.rendition number).text =
        textFrom after.store number table (assigned calls) conditions (calls.flatMap returned) := by
  obtain ⟨conditions, worked, changed, kept⟩ := of_runAll hs named hx ran
  rw [extended_updating] at kept
  exact ⟨conditions, worked, changed, kept, rendition_update kept rfl rfl rfl⟩

theorem text_same (hs : setting.Adds) (named : ∀ c ∈ calls, c.NamesColumns)
    (named' : ∀ c ∈ others, c.NamesColumns)
    (hx : stage.store.statement? number = some (updating executor table))
    (steady : IsSteady setting number stage.store calls) (same : SameGiven calls others)
    (ran : runAll number calls setting stage = .ok () after)
    (ran' : runAll number others setting stage = .ok () after') :
    (after'.store.rendition number).text = (after.store.rendition number).text := by
  obtain ⟨conditions, worked, changed, -, text⟩ := text_of_runAll hs named hx ran
  obtain ⟨conditions', worked', changed', -, text'⟩ := text_of_runAll hs named' hx ran'
  have there := lt_length_of_statement? hx
  have within : ∀ e ∈ merged (assigned calls), e.2.IsWithin stage.store.contents.length :=
    fun e he => steady.within e (mem_of_mem_merged he)
  rw [same.asked] at worked'
  rw [text, text', textFrom, textFrom, same.columns, same.returned,
    steady.closed.cellsFrom_changedAt changed there within,
    steady.closed.cellsFrom_changedAt changed' there within,
    conditions_alike hs steady.conditions worked' worked]

def gathering (data : List (String × Value)) : Mutation .update :=
  assigning (.mapping (keyed data))

theorem columns_gathering (data : List (String × Value)) : (gathering data).columns = data := by
  have entries : (Value.mapping (keyed data)).entriesOf = (keyed data).map .ok := rfl
  rw [columns, show (gathering data).data? = some (.mapping (keyed data)) from rfl, Option.map_some,
    Option.getD_some, Value.columnsOf, entries, keyed, List.map_map, List.filterMap_map]
  exact List.filterMap_some

theorem namesColumns_of_none {c : Mutation .update} (h : c.data? = none) : c.NamesColumns := by
  intro data same
  cases h.symm.trans same

theorem namesColumns_gathering (data : List (String × Value)) : (gathering data).NamesColumns := by
  intro given same e he
  obtain rfl := Option.some.inj same
  obtain ⟨d, hd, same⟩ := List.mem_map.1 he
  obtain ⟨column, hc, rfl⟩ := List.mem_map.1 hd
  cases same
  exact ⟨_, rfl⟩

theorem run_gathering (hx : stage.store.statement? number = some (updating executor table))
    (data : List (String × Value)) :
    (gathering (merged data)).run number setting stage = .ok () { stage with
      store := stage.store.set number (.statement (updated executor table data [] [])) } := by
  have entries : (gathering (merged data)).edit = (keyed (merged data)).map fun e => Edit.assigning (.ok e) :=
    (edit_of_data? rfl).trans List.map_map
  rw [run_eq, entries, Edit.apply_entries hx, assignAll_eq, extended_updating, updated, updated, merged_merged]

structure Merges (setting : Setting) (number executor : Nat) (table : String)
    (calls : List (Mutation .update)) (stage after : Stage) (conditions : List Condition) : Prop where
  /-- There is one condition for each that was asked for, as it was worked out then. -/
  worked : List.Forall₂ (Worked setting number stage.store after.store) (calls.filterMap asked?) conditions
  /-- Each column that is mentioned is there once, where it is first mentioned, with what is last mentioned
  for it. -/
  columns : IsMerged (assigned calls) (merged (assigned calls))
  kept : after.store.statement? number =
    some (updated executor table (assigned calls) conditions (calls.flatMap returned))
  gathered : (gathering (merged (assigned calls))).run number setting stage = .ok () { stage with
    store := stage.store.set number (.statement (updated executor table (assigned calls) [] [])) }
  text : (after.store.rendition number).text =
    textFrom after.store number table (assigned calls) conditions (calls.flatMap returned)
  empty : assigned calls = [] → (after.store.rendition number).text = .error (.noData "update")
  refused : assigned calls ≠ [] → ∀ failure, (after.store.rendition number).text = .error failure →
    PartFails (after.store.cellsFrom number (merged (assigned calls)))
      (conditions.map (·.mapObjects (after.store.lookFrom number))) (calls.flatMap returned) failure
  /-- If nothing in it holds an object, apart from builders in cells, want of columns is the only want of
  data. -/
  noData : (∀ k b, after.store.builder? k = some b → b.query.IsSettled) → Condition.AllSettled conditions →
    (∀ e ∈ assigned calls, e.2.IsCell after.store) →
      ((∃ operation, (after.store.rendition number).text = .error (.noData operation)) ↔ assigned calls = [])
  /-- In a session it is enough that what is assigned is there and that what is asked for is steady. -/
  steady : stage.store.InSession →
    (∀ e ∈ assigned calls, HasObjects.IsPresent stage.store.contents.length e.2) →
      (∀ a ∈ calls.filterMap asked?, ∀ v ∈ a.2, v.IsSteadyArgument setting number stage.store stage.store) →
        IsSteady setting number stage.store calls
  /-- Other calls that give the same leave the same text, however they stand between each other. -/
  interleaved : IsSteady setting number stage.store calls → ∀ others after',
    (∀ c ∈ others, c.NamesColumns) → SameGiven calls others →
      runAll number others setting stage = .ok () after' →
        (after'.store.rendition number).text = (after.store.rendition number).text
  /-- So does the single call, before those for conditions and columns to give back. -/
  single : IsSteady setting number stage.store calls → ∀ rest after', (∀ c ∈ rest, c.data? = none) →
    rest.filterMap asked? = calls.filterMap asked? → rest.flatMap returned = calls.flatMap returned →
      runAll number (gathering (merged (assigned calls)) :: rest) setting stage = .ok () after' →
        (after'.store.rendition number).text = (after.store.rendition number).text

/-- Calls that assign columns by their names leave an UPDATE with these merged, whatever other calls stand
between them. -/
theorem runAll_merges (scope : Scope) (depth : Nat) (named : ∀ c ∈ calls, c.NamesColumns)
    (hx : stage.store.statement? number = some (updating executor table))
    (ran : runAll number calls (scope.settingWithin depth) stage = .ok () after) :
    ∃ conditions, Merges (scope.settingWithin depth) number executor table calls stage after conditions := by
  have hs := scope.settingWithin_adds depth
  obtain ⟨conditions, worked, -, kept, text⟩ := text_of_runAll hs named hx ran
  have cells : after.store.cellsFrom number (merged (assigned calls)) = [] ↔ assigned calls = [] := by
    rw [cellsFrom, List.map_eq_nil_iff, merged_eq_nil_iff]
  refine ⟨conditions, worked, isMerged _, kept, run_gathering hx _, text, fun none => ?_,
    fun some failure failed => ?_, fun builders settled isCell => ?_,
    fun session given steady => ⟨session.isClosed, fun e he => (given e he).isWithin, steady⟩,
    fun steady others after' named' same ran' => ?_,
    fun steady rest after' nothing asked returned ran' => ?_⟩
  · rw [text, textFrom, cells.2 none]
    rfl
  · rw [text] at failed
    rcases of_updateOf_error failed with ⟨none, -⟩ | ⟨-, part⟩
    · exact absurd (cells.1 none) some
    · exact part
  · have within := settled_cellsFrom kept builders fun e he => isCell e (mem_of_mem_merged he)
    have looked : conditions.map (·.mapObjects (after.store.lookFrom number)) = conditions := by
      rw [List.map_congr_left fun c hc => (Condition.allSettled_iff.1 settled c hc).mapObjects _]
      exact List.map_id _
    rw [text, textFrom, updateOf_noData_iff (fun e he => cellText_ne_noData (within e he))
      (looked.symm ▸ clause_ne_noData settled " WHERE "), cells]
  · exact text_same hs named named' hx steady same ran ran'
  · have none : rest.flatMap columns = [] := List.flatMap_eq_nil_iff.2 fun c hc => by
      rw [columns, nothing c hc]
      rfl
    have given : assigned (gathering (merged (assigned calls)) :: rest) = merged (assigned calls) := by
      rw [assigned, List.flatMap_cons, none, columns_gathering, List.append_nil]
    have names : ∀ c ∈ gathering (merged (assigned calls)) :: rest, c.NamesColumns :=
      List.forall_mem_cons.2 ⟨namesColumns_gathering _, fun c hc => namesColumns_of_none (nothing c hc)⟩
    exact text_same hs named names hx steady ⟨given.symm ▸ merged_merged _, asked, returned⟩ ran ran'

/-! ## Calls in one order and in another -/

def pairing : Mutation .update :=
  assigning (.list [.tuple [.text "a", .int 1], .tuple [.text "b", .int 2], .tuple [.text "a", .text "x"]])

def mapping (builder : Nat) : Mutation .update :=
  gathering [("b", Action.builderValue builder), ("c", .fragment ⟨"NOW()", []⟩)]

def testing (function : Nat) : Mutation .update :=
  ⟨"where_in", .filter ⟨.and, .member false⟩, [.text "id", .object ⟨function, .function, .endless⟩],
    by decide +kernel⟩

def givingBack : Mutation .update :=
  ⟨"returning", .returning, [.text "id"], by decide +kernel⟩

def fourObjects : Stage :=
  { store := { contents := [.statement (updating 3 "t"), .builder ⟨.null, .ofTable "u"⟩,
      .function ⟨[.mk "from_" [.scalar (.text "v")]], none⟩, .executor {}] } }

def between : List (Mutation .update) :=
  [pairing, testing 2, mapping 1, givingBack]

theorem pairing_namesColumns : pairing.NamesColumns := by
  intro data same e he
  obtain rfl := Option.some.inj same
  have entries : Value.entriesOf (.list [.tuple [.text "a", .int 1], .tuple [.text "b", .int 2],
      .tuple [.text "a", .text "x"]]) =
      (keyed [("a", .int 1), ("b", .int 2), ("a", .text "x")]).map .ok := rfl
  rw [entries] at he
  obtain ⟨d, hd, same⟩ := List.mem_map.1 he
  cases same
  obtain ⟨column, -, rfl⟩ := List.mem_map.1 hd
  exact ⟨_, rfl⟩

theorem between_namesColumns : ∀ c ∈ between, c.NamesColumns := by
  simp only [between, List.forall_mem_cons]
  exact ⟨pairing_namesColumns, namesColumns_of_none rfl, namesColumns_gathering _,
    namesColumns_of_none rfl, List.forall_mem_nil _⟩

theorem between_isSteady : IsSteady (Scope.settingWithin {} 1) 0 fourObjects.store between where
  closed := by
    refine isClosed_of_holdsNone ?_
    simp only [fourObjects, List.forall_mem_cons]
    refine ⟨⟨⟨?_, ?_, ?_, ?_⟩, ?_⟩, Query.settled_ofTable "u", trivial, trivial, List.forall_mem_nil _⟩ <;>
      simp [updating, Value.text, Value.IsSettled, Value.AllSettled, Value.EntriesSettled, Condition.AllSettled]
  within := by
    have columns : assigned between = [("a", .int 1), ("b", .int 2), ("a", .text "x"),
      ("b", Action.builderValue 1), ("c", .fragment ⟨"NOW()", []⟩)] := rfl
    have fragment : (Value.fragment ⟨"NOW()", []⟩).IsSettled := by
      simp [Value.IsSettled, Fragment.IsSettled, Value.AllSettled]
    simp only [columns, List.forall_mem_cons]
    exact ⟨(Value.settled_scalar _).isWithin _, (Value.settled_scalar _).isWithin _,
      (Value.settled_scalar _).isWithin _, (Value.isPresent_object.2 (by decide)).isWithin,
      fragment.isWithin _, List.forall_mem_nil _⟩
  conditions := by
    have asked : between.filterMap asked? = [(⟨.and, .member false⟩,
      [.text "id", .object ⟨2, .function, .endless⟩])] := rfl
    simp only [asked, List.forall_mem_singleton, List.forall_mem_cons]
    exact ⟨(Value.settled_scalar _).isSteadyArgument,
      Value.steadyArgument_function (by decide) rfl rfl (Query.settled_ofTable "v")
        fun _ _ _ called => Function.of_run_table called⟩

def written? (number : Nat) (calls : List (Mutation .update)) (setting : Setting) (stage : Stage) :
    Option (Except Failure String) :=
  match runAll number calls setting stage with
  | .ok _ after => some (after.store.rendition number).text
  | .error _ _ => none

theorem of_written? {text : Except Failure String} (h : written? number calls setting stage = some text) :
    ∃ after, runAll number calls setting stage = .ok () after ∧ (after.store.rendition number).text = text := by
  unfold written? at h
  split at h
  · exact ⟨_, by assumption, Option.some.inj h⟩
  · cases h

theorem between_merges :
    let single := [gathering (merged (assigned between)), givingBack, testing 2]
    let text := "UPDATE t SET a = 'x', b = (SELECT *\nFROM u), c = NOW() WHERE id IN (SELECT *\nFROM v) " ++
      "RETURNING id"
    ∃ after after' conditions,
      runAll 0 between (Scope.settingWithin {} 1) fourObjects = .ok () after ∧
      runAll 0 single (Scope.settingWithin {} 1) fourObjects = .ok () after' ∧
      Merges (Scope.settingWithin {} 1) 0 3 "t" between fourObjects after conditions ∧
      (after'.store.rendition 0).text = (after.store.rendition 0).text ∧
      (after.store.rendition 0).text = .ok text := by
  intro single text
  have first : written? 0 between (Scope.settingWithin {} 1) fourObjects = some (.ok text) := by
    decide +kernel
  have second : written? 0 single (Scope.settingWithin {} 1) fourObjects = some (.ok text) := by
    decide +kernel
  obtain ⟨after, ran, written⟩ := of_written? first
  obtain ⟨after', ran', -⟩ := of_written? second
  obtain ⟨conditions, merges⟩ := runAll_merges {} 1 between_namesColumns rfl ran
  have nothing : ∀ c ∈ [givingBack, testing 2], c.data? = none := by
    simp only [List.forall_mem_cons]
    exact ⟨rfl, rfl, List.forall_mem_nil _⟩
  exact ⟨after, after', conditions, ran, ran', merges,
    merges.single between_isSteady [givingBack, testing 2] after' nothing rfl rfl ran', written⟩

def comparing (number : Nat) : Mutation .update :=
  ⟨"where", .filter ⟨.and, .compare⟩, [.text "x", valueOf .update number, .int 1], by decide +kernel⟩

/-- A statement that is an operator in its own condition is written out when the condition is given, with the
columns that it has then. And an INSERT in a cell wants data of its own. -/
theorem comparing_itself :
    let first := gathering [("a", .int 1)]
    let second := gathering [("b", .int 2)]
    let inserting := gathering [("x", valueOf .insert 1)]
    let stage : Stage := { store := { contents := [.statement (updating 2 "t"),
      .statement { kind := .insert, executor := 2, table := .text "s" }, .executor {}] } }
    SameGiven [first, comparing 0, second] [first, second, comparing 0] ∧
      (∃ after, runAll 0 [first, comparing 0, second] (Scope.settingWithin {} 0) stage = .ok () after ∧
        (after.store.rendition 0).text = .ok "UPDATE t SET a = 1, b = 2 WHERE x UPDATE T SET A = 1 1") ∧
      (∃ after, runAll 0 [first, second, comparing 0] (Scope.settingWithin {} 0) stage = .ok () after ∧
        (after.store.rendition 0).text =
          .ok "UPDATE t SET a = 1, b = 2 WHERE x UPDATE T SET A = 1, B = 2 1") ∧
      assigned [inserting] = [("x", valueOf .insert 1)] ∧
      ∃ after, runAll 0 [inserting] (Scope.settingWithin {} 0) stage = .ok () after ∧
        (after.store.rendition 0).text = .error (.noData "insert") := by
  intro first second inserting stage
  exact ⟨⟨rfl, rfl, rfl⟩, of_written? (by decide +kernel), of_written? (by decide +kernel), rfl,
    of_written? (by decide +kernel)⟩

end Statement.Mutation

end SqlComposition
