import SqlComposition.Proofs.Failures
import SqlComposition.Proofs.LikeChanges

/-!
Calls in another order. What calls make of a builder depends on the calls for each clause in their order,
and where a clause is replaced on the last of them only; how calls for different clauses follow each other
does not matter. This is so as long as the arguments stand for the same wherever the calls stand. It fails
for an argument that is the builder itself, which stands for what the calls before have made of it.
-/

namespace SqlComposition
open SqlComposition.Action Store

variable {setting : Setting} {number : Nat} {s t : Store} {kind : ClauseKind}

/-! ## Queries of a table -/

def Query.ofTable (name : String) : Query :=
  { source := some ⟨some name, none, none⟩ }

theorem Query.settled_ofTable (name : String) : (ofTable name).IsSettled :=
  Edit.settles_source (by simp [Source.IsSettled, Query.OptionSettled]) _ settled_empty

/-- A function that reads from a table comes to a builder with that table. -/
theorem Function.of_run_table {name : String} {stage after : Stage} {made : Nat}
    (h : Function.run ⟨[.mk "from_" [.scalar (.text name)]], none⟩ setting stage = .ok made after) :
    ∃ dialect, after.store.builder? made = some ⟨dialect, .ofTable name⟩ := by
  obtain ⟨dialect, chosen, -, h⟩ := of_run_bind h
  obtain ⟨fresh, added, hn, h⟩ := of_run_bind h
  obtain ⟨_, called, hc, h⟩ := of_run_bind h
  obtain ⟨returned, last, hr, h⟩ := of_run_bind h
  rw [Term.evalOption] at hr
  obtain ⟨rfl, rfl⟩ := of_run_pure hr
  obtain ⟨rfl, rfl⟩ := of_run_pure h
  have there : added.store.builder? fresh = some ⟨dialect, .empty⟩ := by
    cases hn
    simp [builder?]
  have named : Method.ofName? "from_" = some .table := by decide +kernel
  have checked : Action.checkName "from_" setting added = .ok () added := by
    rw [Action.checkName, named]
    rfl
  have given : Term.evalAll [.scalar (.text name)] setting added = .ok [.text name] added := by
    simp only [Term.evalAll, Term.eval]
    rfl
  rw [Call.runAll] at hc
  obtain ⟨_, changed, ran, others⟩ := of_run_bind hc
  rw [Call.runAll] at others
  obtain ⟨-, rfl⟩ := of_run_pure others
  rw [Call.run, run_bind checked, run_bind given, Action.callBuilder, named] at ran
  obtain ⟨_, _, step, rest⟩ := of_run_bind ran
  obtain ⟨-, rfl⟩ := of_run_pure rest
  obtain ⟨f, worked, b, made, found, set⟩ := Edit.of_run_step step
  cases made
  obtain rfl := Option.some.inj (there.symm.trans found)
  refine ⟨dialect, ?_⟩
  rw [set, builder?_set found]
  rfl

/-! ## The changes of one call -/

namespace Edit

variable {edit : Edit} {changes changes' : List Change} {before before' after after' : Stage}

theorem Works.changedAt (hm : ∀ base, Makes setting base kind edit)
    (h : Works setting number edit before changes after) :
    ChangedAt number before.store after.store := by
  induction h with
  | nil => exact .refl _ _
  | cons made between _ ih =>
    have grown := (grown_of_run (fun base => hm base _ List.mem_cons_self) made).1
    exact ((ChangedAt.of_grown grown).trans between).trans
      (ih fun base w hw => hm base w (List.mem_cons_of_mem _ hw))

theorem Works.alike (hm : ∀ base, Makes setting base kind edit)
    (like : Alike setting number s t kind edit) (h : Works setting number edit before changes after)
    (h' : Works setting number edit before' changes' after') (hk : ∀ c ∈ changes, c.kind = kind)
    (hk' : ∀ c ∈ changes', c.kind = kind) (hs : ChangedAt number s before.store)
    (ht : ChangedAt number t before'.store) {u u' : Store} (hu : ChangedAt number after.store u)
    (hu' : ChangedAt number after'.store u') :
    changes.map (·.mapObjects (u.lookFrom number)) = changes'.map (·.mapObjects (u'.lookFrom number)) := by
  induction h generalizing before' changes' with
  | nil =>
    cases h'
    rfl
  | @cons work rest c changes stage worked next last made between others ih =>
    cases h' with
    | @cons _ _ c' changes' _ worked' next' _ made' between' others' =>
      have adds : ∀ base, Adds setting base (Change.Makes kind) work :=
        fun base => hm base work List.mem_cons_self
      have later : ∀ base, Makes setting base kind rest :=
        fun base w hw => hm base w (List.mem_cons_of_mem work hw)
      have first := hs.trans (.of_grown (grown_of_run adds made).1)
      have first' := ht.trans (.of_grown (grown_of_run adds made').1)
      obtain ⟨d, d', same, same', kind, kind', look⟩ :=
        like work List.mem_cons_self hs ht made made' u u'
          (between.trans ((others.changedAt later).trans hu))
          (between'.trans ((others'.changedAt later).trans hu'))
      obtain rfl := Change.eq_of_apply_eq ((hk c List.mem_cons_self).trans kind.symm) same
      obtain rfl := Change.eq_of_apply_eq ((hk' c' List.mem_cons_self).trans kind'.symm) same'
      rw [List.map_cons, List.map_cons, look]
      exact congrArg _ (ih later (fun w hw => like w (List.mem_cons_of_mem work hw)) others'
        (fun c hc => hk c (List.mem_cons_of_mem _ hc)) (fun c hc => hk' c (List.mem_cons_of_mem _ hc))
        (first.trans between) (first'.trans between') hu)

end Edit

namespace Mutation

theorem HasMade.alike (hs : setting.Adds) {c : Mutation} {changes changes' : List Change} {u u' : Store}
    (steady : ∀ v ∈ c.arguments, v.IsSteadyArgument setting number s t)
    (h : HasMade setting number s u c changes) (h' : HasMade setting number t u' c changes') :
    changes.map (·.mapObjects (u.lookFrom number)) = changes'.map (·.mapObjects (u'.lookFrom number)) := by
  obtain ⟨kinds, before, after, first, works, last⟩ := h
  obtain ⟨kinds', before', after', first', works', last'⟩ := h'
  exact works.alike (c.edit_makes hs) (c.method.edit_alike hs c.name steady) works' kinds kinds' first first'
    last last'

theorem HasMade.single {c : Mutation} {changes : List Change} (h : HasMade setting number s t c changes)
    (replaced : c.method.kind.isReplaced = true) : ∃ x, changes = [x] := by
  obtain ⟨-, before, after, -, works, -⟩ := h
  have series : c.method.isSeries = false := by
    cases hm : c.method <;> first | rfl | (rw [hm] at replaced; cases replaced)
  obtain ⟨work, one⟩ := Method.edit_single series c.name c.arguments
  rw [← List.length_eq_one_iff, works.length_eq, edit, one]
  rfl

/-! ## Series of calls -/

/-- Two series of calls with the same calls for each clause in the same order. Of the calls for a clause
that is replaced only the last one counts. -/
def SameClauses (calls others : List Mutation) : Prop :=
  ∀ kind : ClauseKind, kind.decisive (calls.filter (·.method.kind = kind)) =
    kind.decisive (others.filter (·.method.kind = kind))

/-- Changes that are for the clause of a call, and no more than one where it is replaced. -/
structure Owns (c : Mutation) (changes : List Change) : Prop where
  kinds : ∀ x ∈ changes, x.kind = c.method.kind
  single : c.method.kind.isReplaced = true → ∃ x, changes = [x]

theorem HasMade.owns {c : Mutation} {changes : List Change} (h : HasMade setting number s t c changes)
    (look : Object → Object) : Owns c (changes.map (·.mapObjects look)) where
  kinds := fun x hx => by
    obtain ⟨made, hm, rfl⟩ := List.mem_map.1 hx
    rw [made.kind_mapObjects, h.kinds made hm]
  single := fun replaced => by
    obtain ⟨x, rfl⟩ := h.single replaced
    exact ⟨x.mapObjects look, rfl⟩

variable {made others : List (Mutation × List Change)}

def seen (look : Object → Object) (made : List (Mutation × List Change)) : List (Mutation × List Change) :=
  made.map fun e => (e.1, e.2.map (·.mapObjects look))

theorem calls_seen (look : Object → Object) : (seen look made).map Prod.fst = made.map Prod.fst := by
  rw [seen, List.map_map]
  rfl

theorem changes_seen (look : Object → Object) :
    (seen look made).flatMap Prod.snd = (made.flatMap Prod.snd).map (·.mapObjects look) := by
  rw [seen, List.flatMap_map, List.map_flatMap]

theorem filter_changes (h : ∀ e ∈ made, Owns e.1 e.2) (kind : ClauseKind) :
    (made.flatMap Prod.snd).filter (·.kind = kind) =
      (made.filter (·.1.method.kind = kind)).flatMap Prod.snd := by
  induction made with
  | nil => rfl
  | cons e rest ih =>
    obtain ⟨own, later⟩ := List.forall_mem_cons.1 h
    rw [List.flatMap_cons, List.filter_append, ih later]
    by_cases same : e.1.method.kind = kind
    · have all : e.2.filter (·.kind = kind) = e.2 :=
        List.filter_eq_self.2 fun x hx => by simpa [same] using own.kinds x hx
      rw [all, List.filter_cons_of_pos (by simpa using same), List.flatMap_cons]
    · have none : e.2.filter (·.kind = kind) = [] :=
        List.filter_eq_nil_iff.2 fun x hx => by simpa [own.kinds x hx] using same
      rw [none, List.filter_cons_of_neg (by simpa using same), List.nil_append]

theorem decisive_changes (h : ∀ e ∈ made, Owns e.1 e.2 ∧ e.1.method.kind = kind) :
    kind.decisive (made.flatMap Prod.snd) = (kind.decisive made).flatMap Prod.snd := by
  unfold ClauseKind.decisive
  split
  · rename_i replaced
    rcases List.eq_nil_or_concat made with rfl | ⟨first, last, rfl⟩
    · rfl
    · obtain ⟨own, rfl⟩ := h last (by simp)
      obtain ⟨x, single⟩ := own.single replaced
      simp [single]
  · rfl

theorem eq_of_calls (calls : made.map Prod.fst = others.map Prod.fst)
    (alike : ∀ e ∈ made, ∀ e' ∈ others, e.1 = e'.1 → e.2 = e'.2) : made = others := by
  induction made generalizing others with
  | nil => exact (List.map_eq_nil_iff.1 calls.symm).symm
  | cons e rest ih =>
    obtain ⟨e', rest', rfl, call, later⟩ := List.map_eq_cons_iff.1 calls.symm
    have first := alike e List.mem_cons_self e' List.mem_cons_self call.symm
    rw [Prod.ext call.symm first, ih later.symm fun x hx y hy =>
      alike x (List.mem_cons_of_mem e hx) y (List.mem_cons_of_mem e' hy)]

/-- Where the same calls have made the same changes, they make the same of a query. -/
theorem applyAll_congr (hm : ∀ e ∈ made, Owns e.1 e.2) (ho : ∀ e ∈ others, Owns e.1 e.2)
    (calls : SameClauses (made.map Prod.fst) (others.map Prod.fst))
    (alike : ∀ e ∈ made, ∀ e' ∈ others, e.1 = e'.1 → e.2 = e'.2) (q : Query) :
    Change.applyAll (made.flatMap Prod.snd) q = Change.applyAll (others.flatMap Prod.snd) q := by
  refine Change.applyAll_congr (fun kind => ?_) q
  have own {entries : List (Mutation × List Change)} (h : ∀ e ∈ entries, Owns e.1 e.2) :
      ∀ e ∈ entries.filter (·.1.method.kind = kind), Owns e.1 e.2 ∧ e.1.method.kind = kind :=
    fun e he => ⟨h e (List.mem_of_mem_filter he), by simpa using (List.mem_filter.1 he).2⟩
  rw [filter_changes hm, filter_changes ho, decisive_changes (own hm), decisive_changes (own ho)]
  have same : (kind.decisive (made.filter (·.1.method.kind = kind))).map Prod.fst =
      (kind.decisive (others.filter (·.1.method.kind = kind))).map Prod.fst := by
    have calls := calls kind
    rw [List.filter_map, List.filter_map, ClauseKind.decisive_map, ClauseKind.decisive_map] at calls
    exact calls
  have among {entries : List (Mutation × List Change)} {e : Mutation × List Change}
      (he : e ∈ kind.decisive (entries.filter (·.1.method.kind = kind))) : e ∈ entries :=
    List.mem_of_mem_filter (kind.mem_of_mem_decisive he)
  rw [eq_of_calls same fun e he e' he' => alike e (among he) e' (among he')]

structure Agree (number : Nat) (before after after' : Store) : Prop where
  /-- With all that is in it as it is written, the builder is the same. -/
  builder : ∃ b, after.shown number = some (.builder b) ∧ after'.shown number = some (.builder b)
  /-- So the plain text is the same, and so is the bound form with its values. -/
  forms : ∀ w : Session.World, ∀ r : Reading, r = .text ∨ r = .bound ∨ r = .values →
    { w with store := after }.outcome (r.perform number) =
      { w with store := after' }.outcome (r.perform number)
  /-- The other objects that there were are the same. -/
  others : ∀ other < before.contents.length, other ≠ number → after.content? other = after'.content? other

/-- How calls for different clauses follow each other does not matter, as long as all that is given to them
stands for the same wherever they are made. -/
theorem runAll_interleaved (scope : Scope) (depth : Nat) {stage after after' : Stage} {b : Builder}
    {calls others : List Mutation} (hb : stage.store.builder? number = some b)
    (start : Eventually number stage.store stage.store fun f g => b.query.mapObjects f = b.query.mapObjects g)
    (clauses : SameClauses calls others)
    (steady : ∀ c ∈ calls, ∀ v ∈ c.arguments,
      v.IsSteadyArgument (scope.settingWithin depth) number stage.store stage.store)
    (h : runAll number calls (scope.settingWithin depth) stage = .ok () after)
    (h' : runAll number others (scope.settingWithin depth) stage = .ok () after') :
    Agree number stage.store after.store after'.store := by
  have hs := scope.settingWithin_adds depth
  obtain ⟨made, rfl, all, kept, same⟩ := of_runAll hs hb h
  obtain ⟨made', rfl, all', kept', same'⟩ := of_runAll hs hb h'
  -- looked at from the two ends, the changes of a call are the same, so only their order may differ
  have equal : (Change.applyAll (made.flatMap Prod.snd) b.query).mapObjects (after.store.lookFrom number) =
      (Change.applyAll (made'.flatMap Prod.snd) b.query).mapObjects (after'.store.lookFrom number) := by
    rw [Change.mapObjects_applyAll, Change.mapObjects_applyAll, start _ _ same same', ← changes_seen,
      ← changes_seen]
    refine applyAll_congr ?_ ?_ (by rwa [calls_seen, calls_seen]) ?_ _
    · exact List.forall_mem_map.2 fun e he => (all e he).owns _
    · exact List.forall_mem_map.2 fun e he => (all' e he).owns _
    · refine List.forall_mem_map.2 fun e he => List.forall_mem_map.2 fun e' he' call => ?_
      have one : HasMade (scope.settingWithin depth) number stage.store after'.store e.1 e'.2 :=
        (show e.1 = e'.1 from call) ▸ all' e' he'
      exact (all e he).alike hs (steady e.1 (List.mem_map_of_mem he)) one
  have shown := shown_of_builder? kept
  have shown' := shown_of_builder? kept'
  rw [← equal] at shown'
  exact ⟨⟨_, shown, shown'⟩,
    fun w r hr => Session.World.outcome_of_shown (w := { w with store := after'.store }) shown' shown hr,
    fun other ho hn => (same.same other ho hn).trans (same'.same other ho hn).symm⟩

/-! ## Two orders of the same calls -/

def reading : Mutation :=
  ⟨"from_", .table, [.text "t"], by decide +kernel⟩

def uniting (other : Nat) : Mutation :=
  ⟨"union", .combine .union, [Action.builderValue other], by decide +kernel⟩

def testing (function : Nat) : Mutation :=
  ⟨"where_exists", .filter ⟨.and, .nonempty false⟩, [.object ⟨function, .function, .endless⟩],
    by decide +kernel⟩

def listing (other : Nat) : Mutation :=
  ⟨"where_in", .filter ⟨.and, .member false⟩, [.text "id", .list [Action.builderValue other, .int 7]],
    by decide +kernel⟩

def threeObjects : Stage :=
  { store := { contents := [.builder ⟨.null, .empty⟩,
      .builder ⟨.null, .ofTable "u"⟩,
      .function ⟨[.mk "from_" [.scalar (.text "v")]], none⟩] } }

def inOrder : List Mutation :=
  [reading, testing 2, limiting (.int 1), listing 1, uniting 1]

/-- The same calls, and another limit that is replaced. -/
def interleaved : List Mutation :=
  [limiting (.int 5), uniting 1, testing 2, limiting (.int 1), listing 1, reading]

theorem interleaved_sameClauses : SameClauses inOrder interleaved := by
  intro kind
  cases kind <;> rfl

theorem inOrder_steady {c : Mutation} (hc : c ∈ inOrder) {v : Value} (hv : v ∈ c.arguments) :
    v.IsSteadyArgument (Scope.settingWithin {} 1) 0 threeObjects.store threeObjects.store := by
  have data (x : Scalar) : (Value.scalar x).IsSteadyArgument (Scope.settingWithin {} 1) 0
      threeObjects.store threeObjects.store := (Value.settled_scalar x).isSteadyArgument
  have builder : (Action.builderValue 1).IsSteadyArgument (Scope.settingWithin {} 1) 0
      threeObjects.store threeObjects.store :=
    Value.steadyArgument_builder (by decide) rfl rfl (Query.settled_ofTable "u")
  simp only [inOrder, List.mem_cons, List.not_mem_nil, or_false] at hc
  rcases hc with rfl | rfl | rfl | rfl | rfl
  · obtain rfl := List.mem_singleton.1 hv
    exact data _
  · obtain rfl := List.mem_singleton.1 hv
    exact Value.steadyArgument_function (by decide) rfl rfl (Query.settled_ofTable "v")
      fun _ _ _ called => Function.of_run_table called
  · obtain rfl := List.mem_singleton.1 hv
    exact data _
  · rcases List.mem_cons.1 hv with rfl | hv
    · exact data _
    · obtain rfl := List.mem_singleton.1 hv
      exact Value.steadyArgument_items (.inl rfl) (List.forall_mem_cons.2 ⟨builder.toIsSteady,
        List.forall_mem_singleton.2 (data _).toIsSteady⟩)
  · obtain rfl := List.mem_singleton.1 hv
    exact builder

def left? (number : Nat) (calls : List Mutation) (setting : Setting) (stage : Stage) : Option Stage :=
  match runAll number calls setting stage with
  | .ok _ after => some after
  | .error _ _ => none

theorem of_left? {calls : List Mutation} {stage : Stage} (h : (left? number calls setting stage).isSome) :
    ∃ after, runAll number calls setting stage = .ok () after := by
  unfold left? at h
  split at h
  · exact ⟨_, by assumption⟩
  · cases h

theorem interleaved_agree :
    ∃ after after', runAll 0 inOrder (Scope.settingWithin {} 1) threeObjects = .ok () after ∧
      runAll 0 interleaved (Scope.settingWithin {} 1) threeObjects = .ok () after' ∧
      Agree 0 threeObjects.store after.store after'.store := by
  have first : (left? 0 inOrder (Scope.settingWithin {} 1) threeObjects).isSome := by
    simp only [left?, inOrder, runAll_cons, run_eq]
    decide +kernel
  have second : (left? 0 interleaved (Scope.settingWithin {} 1) threeObjects).isSome := by
    simp only [left?, interleaved, runAll_cons, run_eq]
    decide +kernel
  obtain ⟨after, ran⟩ := of_left? first
  obtain ⟨after', ran'⟩ := of_left? second
  exact ⟨after, after', ran, ran', runAll_interleaved {} 1 rfl (.of_forall fun _ _ => rfl)
    interleaved_sameClauses (fun c hc v hv => inOrder_steady hc hv) ran ran'⟩

/-- A builder that is united with itself is copied with the calls before, so the limit is in the copy if it
was given before. -/
theorem uniting_itself :
    let stage : Stage := { store := { contents := [.builder ⟨.null, .empty⟩] } }
    SameClauses [reading, limiting (.int 1), uniting 0] [reading, uniting 0, limiting (.int 1)] ∧
      ∃ after after',
        runAll 0 [reading, limiting (.int 1), uniting 0] (Scope.settingWithin {} 0) stage = .ok () after ∧
        runAll 0 [reading, uniting 0, limiting (.int 1)] (Scope.settingWithin {} 0) stage = .ok () after' ∧
        (after.store.rendition 0).text =
          .ok "SELECT *\nFROM t\nUNION\nSELECT *\nFROM t\nLIMIT 1\nLIMIT 1" ∧
        (after'.store.rendition 0).text = .ok "SELECT *\nFROM t\nUNION\nSELECT *\nFROM t\nLIMIT 1" := by
  intro stage
  let limited : Query := { Query.ofTable "t" with limit := some (.int 1) }
  let united (member : Query) : Stage := { store := { contents :=
    [.builder ⟨.null, { limited with setOperations := [⟨.union, member⟩] }⟩] } }
  refine ⟨fun kind => by cases kind <;> rfl, united limited, united (.ofTable "t"), ?_, ?_, ?_, ?_⟩
  · simp only [runAll_cons, run_eq]
    rfl
  · simp only [runAll_cons, run_eq]
    rfl
  · decide +kernel
  · decide +kernel

end Mutation

end SqlComposition
