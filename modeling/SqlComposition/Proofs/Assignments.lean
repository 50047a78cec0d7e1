import Mathlib.Data.List.Nodup
import SqlComposition.Proofs.InsertedRows
import SqlComposition.Proofs.StatementChanges
import SqlComposition.Proofs.StatementTexts

/-!
Assignments of an UPDATE. However many calls assign columns, and whatever calls for conditions and for
columns to give back stand between them, the statement has each column once, in the order of their first
mention, with the content of its last one. Its text is that after one call with the merged data, as long as
what the conditions are made of stands for the same wherever it is given.
-/

namespace SqlComposition
open SqlComposition.Action Store

namespace Statement

/-! ## Merged data -/

/-- Each column once, in the order of their first mention, with the content of its last one. -/
def merged (data : List (String × Value)) : List (String × Value) :=
  (data.map Prod.fst).eraseDups.map fun column => (column, (data.reverse.lookup column).getD .null)

theorem eraseDups_concat (names : List String) (name : String) :
    (names ++ [name]).eraseDups = if name ∈ names then names.eraseDups else names.eraseDups ++ [name] := by
  rw [List.eraseDups_append]
  by_cases h : name ∈ names <;> simp [List.removeAll, h, List.eraseDups_cons]

/-- Names are kept in the order of their first mention. -/
theorem eraseDups_ordered (names : List String) :
    names.eraseDups.Pairwise fun a b => names.idxOf a < names.idxOf b := by
  induction names using List.reverseRecOn with
  | nil => exact .nil
  | append_singleton names name ih =>
    have still {a : String} (ha : a ∈ names.eraseDups) : (names ++ [name]).idxOf a = names.idxOf a :=
      List.idxOf_append_of_mem (List.mem_eraseDups.1 ha)
    have kept : names.eraseDups.Pairwise fun a b => (names ++ [name]).idxOf a < (names ++ [name]).idxOf b :=
      ih.imp_of_mem fun ha hb before => by rwa [still ha, still hb]
    rw [eraseDups_concat]
    split
    · exact kept
    · rename_i fresh
      refine List.pairwise_append.2 ⟨kept, List.pairwise_singleton _ _, fun a ha b hb => ?_⟩
      obtain rfl := List.mem_singleton.1 hb
      rw [still ha, List.idxOf_append, if_neg fresh]
      exact Nat.lt_add_left _ (List.idxOf_lt_length_iff.2 (List.mem_eraseDups.1 ha))

theorem nodup_eraseDups (names : List String) : names.eraseDups.Nodup :=
  (eraseDups_ordered names).imp fun before same => by
    rw [same] at before
    exact Nat.lt_irrefl _ before

theorem eraseDups_of_nodup {names : List String} (h : names.Nodup) : names.eraseDups = names := by
  induction names using List.reverseRecOn with
  | nil => rfl
  | append_singleton names name ih =>
    rw [← List.concat_eq_append, List.nodup_concat] at h
    rw [eraseDups_concat, if_neg h.1, ih h.2]

theorem names_merged (data : List (String × Value)) :
    (merged data).map Prod.fst = (data.map Prod.fst).eraseDups := by
  rw [merged, List.map_map]
  exact List.map_id _

theorem merged_eq_nil_iff {data : List (String × Value)} : merged data = [] ↔ data = [] := by
  have none : (merged data).map Prod.fst = [] ↔ data.map Prod.fst = [] := by
    simp only [List.eq_nil_iff_forall_not_mem, names_merged, List.mem_eraseDups]
  rwa [List.map_eq_nil_iff, List.map_eq_nil_iff] at none

theorem lookup_names {names : List String} (contents : String → Value) {name : String} (h : name ∈ names) :
    (names.map fun n => (n, contents n)).lookup name = some (contents name) := by
  induction names with
  | nil => cases h
  | cons first rest ih =>
    rw [List.map_cons, List.lookup_cons]
    by_cases same : name = first
    · simp [same]
    · rw [beq_false_of_ne same]
      exact ih ((List.mem_cons.1 h).resolve_left same)

theorem merged_merged (data : List (String × Value)) : merged (merged data) = merged data := by
  have names := names_merged data
  rw [merged, names, eraseDups_of_nodup (nodup_eraseDups _)]
  refine List.map_congr_left fun name hn => ?_
  rw [merged, ← List.map_reverse, lookup_names _ (List.mem_reverse.2 hn)]
  rfl

theorem mem_merged_iff {data : List (String × Value)} {column : String} {content : Value} :
    (column, content) ∈ merged data ↔ data.reverse.lookup column = some content := by
  constructor
  · intro h
    obtain ⟨name, hn, same⟩ := List.mem_map.1 h
    cases same
    obtain ⟨d, hd, rfl⟩ := List.mem_map.1 (List.mem_eraseDups.1 hn)
    cases found : data.reverse.lookup d.1 with
    | none => exact absurd (List.lookup_eq_none_iff.1 found d (List.mem_reverse.2 hd)) (by simp)
    | some content => rfl
  · intro h
    obtain ⟨front, back, split, -⟩ := List.lookup_eq_some_iff.1 h
    have there : (column, content) ∈ data := by
      rw [← List.mem_reverse, split]
      exact List.mem_append_right _ List.mem_cons_self
    refine List.mem_map.2 ⟨column, List.mem_eraseDups.2 (List.mem_map_of_mem there), ?_⟩
    rw [h, Option.getD_some]

theorem mem_of_mem_merged {data : List (String × Value)} {e : String × Value} (h : e ∈ merged data) :
    e ∈ data := by
  obtain ⟨front, back, split, -⟩ := List.lookup_eq_some_iff.1 (mem_merged_iff.1 h)
  rw [← List.mem_reverse, split]
  exact List.mem_append_right _ List.mem_cons_self

/-- Some columns are those of the data: in the order in which they are first mentioned there, so each of them
once, and with what is last mentioned for them. -/
structure IsMerged (data columns : List (String × Value)) : Prop where
  order : (columns.map Prod.fst).Pairwise fun a b =>
    (data.map Prod.fst).idxOf a < (data.map Prod.fst).idxOf b
  contents : ∀ column content, (column, content) ∈ columns ↔ data.reverse.lookup column = some content

theorem isMerged (data : List (String × Value)) : IsMerged data (merged data) where
  order := names_merged data ▸ eraseDups_ordered _
  contents := fun _ _ => mem_merged_iff

/-- An entry that is put keeps its place if it has one, and is the last one otherwise. -/
theorem putEntry_keyed {names : List String} (distinct : names.Nodup) (contents : String → Value)
    (column : String) (content : Value) :
    Value.putEntry (.text column) content (keyed (names.map fun n => (n, contents n))) =
      keyed ((if column ∈ names then names else names ++ [column]).map fun n =>
        (n, if n = column then content else contents n)) := by
  induction names with
  | nil => simp [keyed, Value.putEntry]
  | cons first rest ih =>
    obtain ⟨fresh, distinct⟩ := List.nodup_cons.1 distinct
    have put : Value.putEntry (.text column) content (keyed ((first :: rest).map fun n => (n, contents n))) =
        if first == column then (.text first, content) :: keyed (rest.map fun n => (n, contents n))
        else (.text first, contents first) ::
          Value.putEntry (.text column) content (keyed (rest.map fun n => (n, contents n))) := by
      rw [← Value.sameKey_text]
      rfl
    rw [put]
    by_cases same : first = column
    · subst same
      have others : ∀ n ∈ rest, (n, if n = first then content else contents n) = (n, contents n) := by
        intro n hn
        rw [if_neg (ne_of_mem_of_not_mem hn fresh)]
      rw [if_pos (by simp), if_pos List.mem_cons_self, List.map_cons, List.map_congr_left others, if_pos rfl]
      rfl
    · have among : column ∈ first :: rest ↔ column ∈ rest :=
        ⟨fun h => (List.mem_cons.1 h).resolve_left fun other => same other.symm, List.mem_cons_of_mem first⟩
      rw [if_neg (by simpa using same), ih distinct]
      by_cases there : column ∈ rest
      · rw [if_pos there, if_pos (among.2 there), List.map_cons, if_neg same]
        rfl
      · rw [if_neg there, if_neg (mt among.1 there), List.cons_append, List.map_cons, if_neg same]
        rfl

theorem putEntry_merged (data : List (String × Value)) (column : String) (content : Value) :
    Value.putEntry (.text column) content (keyed (merged data)) =
      keyed (merged (data ++ [(column, content)])) := by
  have known : column ∈ (data.map Prod.fst).eraseDups ↔ column ∈ data.map Prod.fst := List.mem_eraseDups
  have names : ((data ++ [(column, content)]).map Prod.fst).eraseDups =
      if column ∈ (data.map Prod.fst).eraseDups then (data.map Prod.fst).eraseDups
      else (data.map Prod.fst).eraseDups ++ [column] := by
    rw [List.map_append, List.map_singleton, eraseDups_concat]
    exact if_congr known.symm rfl rfl
  have contents (n : String) : ((data ++ [(column, content)]).reverse.lookup n).getD .null =
      if n = column then content else (data.reverse.lookup n).getD .null := by
    rw [List.reverse_concat, List.lookup_cons]
    by_cases same : n = column
    · simp [same]
    · rw [beq_false_of_ne same, if_neg same]
  rw [merged, putEntry_keyed (nodup_eraseDups _), merged, names]
  simp only [contents]

/-- By induction on the entries: with those put so far, the next one is the last mention of its column. -/
theorem putAll_merged (data more : List (String × Value)) :
    (keyed more).foldl (fun kept e => Value.putEntry e.1 e.2 kept) (keyed (merged data)) =
      keyed (merged (data ++ more)) := by
  induction more generalizing data with
  | nil => rw [List.append_nil]; rfl
  | cons e rest ih =>
    rw [List.append_cons, ← ih (data ++ [e]), ← putEntry_merged]
    rfl

/-! ## What an UPDATE has been given -/

def extended (entries : List (Value × Value)) (conditions : List Condition) (returning : List Value)
    (x : Statement) : Statement :=
  { x with
    assignments := entries.foldl (fun kept e => Value.putEntry e.1 e.2 kept) x.assignments
    conditions := x.conditions ++ conditions
    returning := x.returning ++ returning }

theorem extended_extended (x : Statement) (entries entries' : List (Value × Value))
    (conditions conditions' : List Condition) (returning returning' : List Value) :
    (x.extended entries conditions returning).extended entries' conditions' returning' =
      x.extended (entries ++ entries') (conditions ++ conditions') (returning ++ returning') := by
  rw [extended, extended, extended, List.foldl_append, List.append_assoc, List.append_assoc]

theorem extended_nil (x : Statement) : x.extended [] [] [] = x := by
  rw [extended, List.append_nil, List.append_nil]
  rfl

theorem assignAll_eq (entries : List (Value × Value)) (x : Statement) :
    x.assignAll entries = x.extended entries [] [] := by
  induction entries generalizing x with
  | nil => exact x.extended_nil.symm
  | cons e rest ih =>
    rw [assignAll, List.foldl_cons, ← assignAll, ih]
    rfl

def updating (executor : Nat) (table : String) : Statement :=
  { kind := .update, executor, table := .text table }

def updated (executor : Nat) (table : String) (data : List (String × Value)) (conditions : List Condition)
    (returning : List Value) : Statement :=
  { kind := .update, executor, table := .text table, assignments := keyed (merged data), conditions, returning }

theorem extended_updating (executor : Nat) (table : String) (data : List (String × Value))
    (conditions : List Condition) (returning : List Value) :
    (updating executor table).extended (keyed data) conditions returning =
      updated executor table data conditions returning := by
  rw [extended, updated, ← List.nil_append data, ← putAll_merged]
  rfl

end Statement

/-! ## Calls of an UPDATE -/

/-- The columns that are named by texts in some data, with what they are to be assigned. -/
def Value.columnsOf (data : Value) : List (String × Value) :=
  data.entriesOf.filterMap fun
    | .ok (.scalar (.text column), content) => some (column, content)
    | _ => none

/-- All entries that there are in some data have texts for their keys. -/
def Value.NamesColumns (data : Value) : Prop :=
  ∀ e, .ok e ∈ data.entriesOf → ∃ column, e.1 = .text column

theorem Value.NamesColumns.keyed {data : Value} (h : data.NamesColumns) {done : List (Value × Value)}
    (all : data.entriesOf = done.map .ok) : Statement.keyed data.columnsOf = done := by
  have named : ∀ e ∈ done, ∃ column, e.1 = .text column := fun e he =>
    h e (all ▸ List.mem_map_of_mem he)
  rw [columnsOf, all, List.filterMap_map]
  clear all
  induction done with
  | nil => rfl
  | cons e rest ih =>
    obtain ⟨first, others⟩ := List.forall_mem_cons.1 named
    obtain ⟨key, content⟩ := e
    obtain ⟨column, rfl⟩ := first
    exact congrArg ((.text column, content) :: ·) (ih others)

namespace Statement.Mutation

variable {setting : Setting} {number : Nat} {s s' t t' : Store} {stage after after' : Stage}
  {x : Statement} {c : Mutation .update} {calls others : List (Mutation .update)}

def columns (c : Mutation .update) : List (String × Value) :=
  (c.data?.map Value.columnsOf).getD []

/-- The filter of a call for a condition, with its arguments. -/
def asked? (c : Mutation .update) : Option (Filter × List Value) :=
  match c.method with
  | .filter f => some (f, c.arguments)
  | _ => none

def returned (c : Mutation .update) : List Value :=
  match c.method with
  | .returning => c.arguments
  | _ => []

def NamesColumns (c : Mutation .update) : Prop :=
  ∀ data, c.data? = some data → data.NamesColumns

/-- The condition that was worked out of what was asked for, in a run from one store to another. -/
def Worked (setting : Setting) (number : Nat) (s t : Store) (asked : Filter × List Value) (c : Condition) :
    Prop :=
  ∃ before worked : Stage, ChangedAt number s before.store ∧
    asked.1.condition "" asked.2 setting before = .ok c worked ∧ ChangedAt number worked.store t

theorem Worked.widen {asked : Filter × List Value} {made : Condition}
    (h : Worked setting number s t asked made) (hs : ChangedAt number s' s) (ht : ChangedAt number t t') :
    Worked setting number s' t' asked made := by
  obtain ⟨before, worked, first, tested, last⟩ := h
  exact ⟨before, worked, hs.trans first, tested, last.trans ht⟩

theorem ofName?_ne_values (name : String) : Method.ofName? .update name ≠ some .values := by
  unfold Method.ofName?
  split <;> simp_all

theorem Edit.of_run_refused {failure : Failure} {P : Prop}
    (h : Edit.apply number [throw failure] setting stage = .ok () after) : P := by
  cases (Edit.apply_single (throw failure)).symm.trans h

theorem of_run_data {data : Value} (assigns : c.data? = some data) (named : data.NamesColumns)
    (hx : stage.store.statement? number = some x) (h : c.run number setting stage = .ok () after) :
    after = { stage with
      store := stage.store.set number (.statement (x.extended (keyed data.columnsOf) [] [])) } := by
  rw [run_eq, edit_of_data? assigns] at h
  rcases entries_split data.entriesOf with ⟨done, all⟩ | ⟨done, failure, rest, split⟩
  · rw [all, List.map_map] at h
    cases (Edit.apply_entries hx done).symm.trans h
    rw [named.keyed all, assignAll_eq]
  · rw [split] at h
    cases (Edit.apply_stopped hx done failure rest).symm.trans h

theorem of_run_filter (hs : setting.Adds) {name : String} {f : Filter} {arguments : List Value}
    (named : Method.ofName? .update name = some (.filter f)) (hx : stage.store.statement? number = some x)
    (h : Statement.call .update number name arguments setting stage = .ok () after) :
    ∃ made, Worked setting number stage.store after.store (f, arguments) made ∧
      ChangedAt number stage.store after.store ∧
      after.store.statement? number = some (x.addCondition made) := by
  obtain ⟨made, worked, y, tested, found, set⟩ := Filtered.of_run_statement named h
  have grown := (grown_of_run (fun _ => f.condition_adds hs _ arguments) tested).1
  have same : worked.store.content? number = some (.statement x) := by
    rw [grown.content?_eq (lt_length_of_statement? hx), content?_of_statement? hx]
  obtain rfl := Content.statement.inj (Option.some.inj (found.symm.trans same))
  have later : ChangedAt number worked.store after.store := set ▸ .set _ _ _
  refine ⟨made, ⟨stage, worked, .refl _ _, Filter.condition_ok tested "", later⟩,
    .trans (.of_grown grown) later, ?_⟩
  rw [set, statement?_set (statement?_of_content? found)]

/-- What one call makes of an UPDATE. It assigns columns, adds a condition or adds columns to give back. -/
theorem of_run (hs : setting.Adds) (named : c.NamesColumns) (hx : stage.store.statement? number = some x)
    (h : c.run number setting stage = .ok () after) :
    ∃ conditions, List.Forall₂ (Worked setting number stage.store after.store) c.asked?.toList conditions ∧
      ChangedAt number stage.store after.store ∧
      after.store.statement? number = some (x.extended (keyed c.columns) conditions c.returned) := by
  cases assigns : c.data? with
  | some data =>
    have method : c.method = .set := by
      unfold data? at assigns
      split at assigns
      · assumption
      · cases assigns
    obtain rfl := of_run_data assigns (named data assigns) hx h
    rw [asked?, returned, columns, assigns, method]
    exact ⟨[], .nil, .set _ _ _, statement?_set hx _⟩
  | none =>
    obtain ⟨name, method, arguments, called⟩ := c
    rw [columns, assigns]
    cases method with
    | values => exact absurd called (ofName?_ne_values name)
    | set =>
      rw [run_eq] at h
      rcases arguments with _ | ⟨data, _ | ⟨other, rest⟩⟩
      · exact Edit.of_run_refused h
      · cases assigns
      · exact Edit.of_run_refused h
    | returning =>
      have step : Edit.step number (pure (addReturning arguments)) setting stage = .ok () { stage with
          store := stage.store.set number (.statement (x.addReturning arguments)) } := Edit.run_step rfl hx
      rw [run_eq] at h
      cases (step.symm.trans (Edit.apply_single _).symm).trans h
      refine ⟨[], .nil, .set _ _ _, (statement?_set hx _).trans ?_⟩
      rw [extended, List.append_nil]
      rfl
    | filter f =>
      obtain ⟨made, worked, changed, found⟩ := of_run_filter hs called hx h
      refine ⟨[made], .cons worked .nil, changed, found.trans ?_⟩
      exact congrArg some (by rw [extended, returned, List.append_nil]; rfl)

/-- By induction on the calls: what each of them gives comes behind what those before have given. -/
theorem of_runAll (hs : setting.Adds) (named : ∀ c ∈ calls, c.NamesColumns)
    (hx : stage.store.statement? number = some x) (h : runAll number calls setting stage = .ok () after) :
    ∃ conditions,
      List.Forall₂ (Worked setting number stage.store after.store) (calls.filterMap asked?) conditions ∧
      ChangedAt number stage.store after.store ∧
      after.store.statement? number =
        some (x.extended (keyed (calls.flatMap columns)) conditions (calls.flatMap returned)) := by
  induction calls generalizing stage x with
  | nil =>
    obtain ⟨-, rfl⟩ := of_run_pure h
    exact ⟨[], .nil, .refl _ _, hx.trans (congrArg some x.extended_nil.symm)⟩
  | cons c rest ih =>
    obtain ⟨one, others⟩ := List.forall_mem_cons.1 named
    rw [runAll_cons] at h
    obtain ⟨_, next, first, last⟩ := of_run_bind h
    obtain ⟨made, worked, before, changed⟩ := of_run hs one hx first
    obtain ⟨more, workedLater, behind, kept⟩ := ih others changed last
    have asked : (c :: rest).filterMap asked? = c.asked?.toList ++ rest.filterMap asked? := by
      cases asked : c.asked? <;> simp [asked]
    refine ⟨made ++ more, ?_, before.trans behind, ?_⟩
    · rw [asked]
      exact List.rel_append (worked.imp fun _ _ h => h.widen (.refl _ _) behind)
        (workedLater.imp fun _ _ h => h.widen before (.refl _ _))
    · rw [kept, extended_extended, List.flatMap_cons, List.flatMap_cons, keyed, keyed, keyed, List.map_append]

end Statement.Mutation

end SqlComposition
