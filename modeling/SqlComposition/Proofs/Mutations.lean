import SqlComposition.Proofs.Changes
import SqlComposition.Proofs.Runs

/-!
Runs of calls that change a builder. A call works out its changes one by one and makes each of them on the
builder as it is then; beside that it only adds objects. A run of calls therefore leaves the builder with
all the changes made, in their order, and leaves all other objects as they were.
-/

namespace SqlComposition
open SqlComposition.Action Store

/-! ## Changes of one object -/

/-- Seen from an earlier store, objects were added, and of those there were only one may have changed. -/
structure Store.ChangedAt (number : Nat) (s t : Store) : Prop where
  length_le : s.contents.length ≤ t.contents.length
  same : ∀ other < s.contents.length, other ≠ number → t.content? other = s.content? other

namespace Store.ChangedAt

variable {number : Nat} {s t u : Store}

theorem refl (number : Nat) (s : Store) : s.ChangedAt number s :=
  ⟨Nat.le_refl _, fun _ _ _ => rfl⟩

theorem trans (h : ChangedAt number s t) (h' : ChangedAt number t u) : ChangedAt number s u :=
  ⟨Nat.le_trans h.length_le h'.length_le, fun other ho hn => by
    rw [h'.same other (Nat.lt_of_lt_of_le ho h.length_le) hn, h.same other ho hn]⟩

theorem of_grown (h : s.Grown t) : ChangedAt number s t :=
  ⟨h.length_le, fun _ ho _ => h.content?_eq ho⟩

theorem set (s : Store) (number : Nat) (c : Content) : ChangedAt number s (s.set number c) :=
  ⟨by simp [Store.set], fun _ _ hn => content?_set_of_ne s c hn.symm⟩

end Store.ChangedAt

/-- Work that adds objects leaves a store that has only grown. -/
theorem Action.grown_of_run {α : Type} {setting : Setting} {gives : α → Prop} {work : Action α}
    (h : ∀ base, Adds setting base gives work) {stage after : Stage} {a : α}
    (run : work setting stage = .ok a after) : stage.store.Grown after.store ∧ gives a := by
  have kept := (h stage.store).outcome stage (.refl _)
  rwa [run] at kept

theorem Action.grown_of_failure {α : Type} {setting : Setting} {gives : α → Prop} {work : Action α}
    (h : ∀ base, Adds setting base gives work) {stage after : Stage} {failure : Failure}
    (run : work setting stage = .error failure after) : stage.store.Grown after.store := by
  have kept := (h stage.store).outcome stage (.refl _)
  rwa [run] at kept

variable {setting : Setting} {number : Nat} {stage after : Stage}

/-! ## The steps of an edit -/

namespace Edit

theorem changedAt_of_step {kind : ClauseKind} {work : Action (Query → Query)}
    (hw : ∀ base, Adds setting base (Change.Makes kind) work)
    (h : step number work setting stage = .ok () after) : ChangedAt number stage.store after.store := by
  obtain ⟨f, worked, b, made, -, set⟩ := of_run_step h
  rw [set]
  exact (ChangedAt.of_grown (grown_of_run hw made).1).trans (.set _ _ _)

theorem changedAt_of_apply {kind : ClauseKind} {edit : Edit} (hm : ∀ base, Makes setting base kind edit)
    (h : edit.apply number setting stage = .ok () after) : ChangedAt number stage.store after.store := by
  induction edit generalizing stage with
  | nil =>
    obtain ⟨-, rfl⟩ := of_run_pure h
    exact .refl _ _
  | cons work rest ih =>
    rw [apply_cons] at h
    obtain ⟨_, next, first, others⟩ := of_run_bind h
    exact (changedAt_of_step (fun base => hm base work List.mem_cons_self) first).trans
      (ih (fun base w hw => hm base w (List.mem_cons_of_mem work hw)) others)

/-- The changes that an edit works out from some state, where each is made before the next. -/
inductive Works (setting : Setting) (number : Nat) : Edit → Stage → List Change → Stage → Prop where
  | nil {stage : Stage} : Works setting number [] stage [] stage
  | cons {work : Action (Query → Query)} {rest : Edit} {c : Change} {changes : List Change}
      {stage worked next last : Stage} : work setting stage = .ok c.apply worked →
      ChangedAt number worked.store next.store → Works setting number rest next changes last →
      Works setting number (work :: rest) stage (c :: changes) last

variable {kind : ClauseKind} {edit : Edit}

theorem Works.length_eq {changes : List Change} (h : Works setting number edit stage changes after) :
    changes.length = edit.length := by
  induction h with
  | nil => rfl
  | cons _ _ _ ih => rw [List.length_cons, List.length_cons, ih]

/-- An edit that is made leaves the builder with its changes. -/
theorem works_of_apply (hm : ∀ base, Makes setting base kind edit) {b : Builder}
    (hb : stage.store.builder? number = some b) (h : edit.apply number setting stage = .ok () after) :
    ∃ changes, Works setting number edit stage changes after ∧ (∀ c ∈ changes, c.kind = kind) ∧
      after.store.builder? number = some { b with query := Change.applyAll changes b.query } := by
  induction edit generalizing stage b with
  | nil =>
    obtain ⟨-, rfl⟩ := of_run_pure h
    exact ⟨[], .nil, List.forall_mem_nil _, hb⟩
  | cons work rest ih =>
    rw [apply_cons] at h
    obtain ⟨_, next, first, others⟩ := of_run_bind h
    obtain ⟨f, worked, there, made, found, set⟩ := of_run_step first
    obtain ⟨grown, c, own, rfl⟩ := grown_of_run (fun base => hm base work List.mem_cons_self) made
    obtain rfl := Option.some.inj ((grown.builder? hb).symm.trans found)
    have changed : next.store.builder? number = some { b with query := c.apply b.query } := by
      rw [set, builder?_set found]
    have between : ChangedAt number worked.store next.store := set ▸ .set _ _ _
    obtain ⟨changes, works, kinds, kept⟩ :=
      ih (fun base w hw => hm base w (List.mem_cons_of_mem work hw)) changed others
    exact ⟨c :: changes, .cons made between works, List.forall_mem_cons.2 ⟨own, kinds⟩, kept⟩

end Edit

/-! ## Runs of calls -/

/-- A call that changes a builder. -/
structure Mutation where
  name : String
  method : Method
  arguments : List Value
  named : Method.ofName? name = some method

namespace Mutation

def edit (c : Mutation) : Edit :=
  c.method.edit c.name c.arguments

def run (number : Nat) (c : Mutation) : Action Unit :=
  Action.callBuilder number c.name c.arguments

def runAll (number : Nat) (calls : List Mutation) : Action Unit :=
  calls.forM (run number)

theorem run_eq (number : Nat) (c : Mutation) : c.run number = c.edit.apply number := by
  rw [run, Action.callBuilder, c.named]
  rfl

theorem runAll_cons (c : Mutation) (rest : List Mutation) :
    runAll number (c :: rest) = c.run number >>= fun _ => runAll number rest := rfl

theorem edit_makes (hs : setting.Adds) (c : Mutation) (base : Store) :
    c.edit.Makes setting base c.method.kind :=
  c.method.edit_makes hs c.name c.arguments

/-- A call that gives a limit. -/
def limiting (rows : Value) : Mutation :=
  ⟨"limit", .limit, [rows], by decide +kernel⟩

/-- The changes that a call has made in a run from one store to another. -/
structure HasMade (setting : Setting) (number : Nat) (s t : Store) (c : Mutation)
    (changes : List Change) : Prop where
  kinds : ∀ x ∈ changes, x.kind = c.method.kind
  works : ∃ before behind, ChangedAt number s before.store ∧
    c.edit.Works setting number before changes behind ∧ ChangedAt number behind.store t

theorem HasMade.widen {s s' t t' : Store} {c : Mutation} {changes : List Change}
    (h : HasMade setting number s t c changes) (hs : ChangedAt number s' s) (ht : ChangedAt number t t') :
    HasMade setting number s' t' c changes := by
  obtain ⟨kinds, before, behind, first, works, last⟩ := h
  exact ⟨kinds, before, behind, hs.trans first, works, last.trans ht⟩

/-- A run that succeeds leaves the builder with the changes that its calls have made, one call after
another, and leaves all other objects as they were. -/
theorem of_runAll (hs : setting.Adds) {calls : List Mutation} {b : Builder}
    (hb : stage.store.builder? number = some b)
    (h : runAll number calls setting stage = .ok () after) :
    ∃ made : List (Mutation × List Change), made.map Prod.fst = calls ∧
      (∀ e ∈ made, HasMade setting number stage.store after.store e.1 e.2) ∧
      after.store.builder? number =
        some { b with query := Change.applyAll (made.flatMap Prod.snd) b.query } ∧
      ChangedAt number stage.store after.store := by
  induction calls generalizing stage b with
  | nil =>
    obtain ⟨-, rfl⟩ := of_run_pure h
    exact ⟨[], rfl, List.forall_mem_nil _, hb, .refl _ _⟩
  | cons c rest ih =>
    rw [runAll_cons] at h
    obtain ⟨_, next, first, others⟩ := of_run_bind h
    rw [run_eq] at first
    have before := Edit.changedAt_of_apply (c.edit_makes hs) first
    obtain ⟨changes, works, kinds, changed⟩ := Edit.works_of_apply (c.edit_makes hs) hb first
    obtain ⟨made, calls, all, kept, behind⟩ := ih changed others
    refine ⟨(c, changes) :: made, by rw [List.map_cons, calls], List.forall_mem_cons.2 ⟨?_, ?_⟩, ?_,
      before.trans behind⟩
    · exact ⟨kinds, stage, next, .refl _ _, works, behind⟩
    · exact fun e he => (all e he).widen before (.refl _ _)
    · rw [kept, List.flatMap_cons, Change.applyAll_append]

end Mutation

end SqlComposition
