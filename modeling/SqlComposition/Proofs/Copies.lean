import SqlComposition.Proofs.Growth
import SqlComposition.Proofs.Presence

/-!
Stores in which all that is held is there. A copy of a query brings along copies of all that can be reached
from it: each object that is met gets one, and what is held by the copies has been met. So nothing is missing
in a store after copies were added to it.
-/

namespace SqlComposition
open HasObjects

/-! ## Whole stores -/

/-- All that the contents hold has numbers below `count`. -/
def Content.IsPresent (count : Nat) : Content → Prop
  | builder b => HasObjects.IsPresent count b.dialect ∧ HasObjects.IsPresent count b.query
  | statement x => x.executor < count ∧ HasObjects.IsPresent count x.table ∧
      HasObjects.IsPresent count x.rows ∧ HasObjects.IsPresent count x.assignments ∧
      HasObjects.IsPresent count x.conditions ∧ HasObjects.IsPresent count x.returning
  | factory f => f.executor < count ∧ HasObjects.IsPresent count f.dialect
  | table t => t.factory < count ∧ HasObjects.IsPresent count t.name
  | executor _ | dialect _ | function _ => True

theorem Content.IsPresent.mono {c : Content} {count more : Nat} (h : c.IsPresent count) (le : count ≤ more) :
    c.IsPresent more := by
  cases c with
  | builder b => exact ⟨h.1.mono le, h.2.mono le⟩
  | statement x =>
    obtain ⟨executor, table, rows, assignments, conditions, returning⟩ := h
    exact ⟨executor.trans_le le, table.mono le, rows.mono le, assignments.mono le, conditions.mono le,
      returning.mono le⟩
  | factory f => exact ⟨h.1.trans_le le, h.2.mono le⟩
  | table t => exact ⟨h.1.trans_le le, h.2.mono le⟩
  | executor _ | dialect _ | function _ => trivial

/-- All that is held in a store is there. -/
def Store.IsWhole (s : Store) : Prop :=
  ∀ c ∈ s.contents, c.IsPresent s.contents.length

namespace Store.IsWhole

variable {s : Store} {number : Nat}

theorem content (h : s.IsWhole) {c : Content} (found : s.content? number = some c) :
    c.IsPresent s.contents.length :=
  h c (List.mem_of_getElem? found)

theorem builder (h : s.IsWhole) {b : Builder} (found : s.builder? number = some b) :
    IsPresent s.contents.length b.dialect ∧ IsPresent s.contents.length b.query :=
  h.content (content?_of_builder? found)

theorem append (h : s.IsWhole) {more : List Content}
    (hm : ∀ c ∈ more, c.IsPresent (s.contents.length + more.length)) :
    IsWhole { s with contents := s.contents ++ more } := by
  refine List.forall_mem_append.2 ⟨fun c hc => (h c hc).mono ?_, fun c hc => ?_⟩
  · rw [List.length_append]
    exact Nat.le_add_right _ _
  · rw [List.length_append]
    exact hm c hc

theorem add (h : s.IsWhole) {c : Content} (hc : c.IsPresent s.contents.length) : (s.add c).IsWhole :=
  h.append (List.forall_mem_singleton.2 (hc.mono (Nat.le_add_right _ _)))

theorem set (h : s.IsWhole) (number : Nat) {c : Content} (hc : c.IsPresent s.contents.length) :
    (s.set number c).IsWhole := by
  intro d hd
  rw [Store.set, List.length_set]
  exact (List.mem_or_eq_of_mem_set hd).elim (h d) fun same => same ▸ hc

end Store.IsWhole

section Shown

variable {count : Nat} {inside others : Nat → Option Content} (same : ∀ k < count, inside k = others k)
include same

theorem Object.shownBy_congr {o : Object} (h : o.number < count) : o.shownBy inside = o.shownBy others := by
  rw [shownBy, shownBy, same o.number h]

theorem Value.cellBy_congr {v : Value} (h : IsPresent count v) : v.cellBy inside = v.cellBy others := by
  cases v with
  | object o =>
    have there := isPresent_object.1 h
    rw [cellBy, cellBy, same o.number there, Object.shownBy_congr same there]
  | scalar _ | list _ | tuple _ | mapping _ | fragment _ | query _ | part _ | bound _ =>
    exact h _ _ fun o ho => Object.shownBy_congr same ho

theorem Statement.mapRow_congr {row : Value} (h : IsPresent count row) :
    mapRow (·.mapObjects (·.shownBy inside)) (·.cellBy inside) row =
      mapRow (·.mapObjects (·.shownBy others)) (·.cellBy others) row := by
  have keys {v : Value} (hv : IsPresent count v) :
      v.mapObjects (·.shownBy inside) = v.mapObjects (·.shownBy others) :=
    hv _ _ fun o ho => Object.shownBy_congr same ho
  cases row with
  | mapping entries =>
    have there := Value.isPresent_entries.1 (Value.isPresent_mapping.1 h)
    exact congrArg Value.mapping (List.map_congr_left fun e he =>
      Prod.ext (keys (there e he).1) (Value.cellBy_congr same (there e he).2))
  | scalar _ | list _ | tuple _ | fragment _ | query _ | part _ | bound _ | object _ => exact keys h

end Shown

/-- What is there is written with the objects that are there. -/
theorem Content.IsPresent.isWithin {count : Nat} {c : Content} (h : c.IsPresent count) :
    c.IsWithin count := by
  intro inside others same
  have looked {α : Type} [HasObjects α] {a : α} (ha : HasObjects.IsPresent count a) :
      replace (·.shownBy inside) a = replace (·.shownBy others) a :=
    ha _ _ fun o ho => Object.shownBy_congr same ho
  cases c with
  | builder b => exact congrArg (fun q => Content.builder { b with query := q }) (looked h.2)
  | statement x =>
    obtain ⟨-, table, rows, assignments, conditions, returning⟩ := h
    rw [Value.isPresent_all] at rows returning
    rw [Value.isPresent_entries] at assignments
    refine congrArg Content.statement ?_
    simp only [Statement.mapData, Statement.mk.injEq, true_and]
    refine ⟨looked table, List.map_congr_left fun row hr => Statement.mapRow_congr same (rows row hr),
      List.map_congr_left fun e he => ?_, ?_, List.map_congr_left fun v hv => looked (returning v hv)⟩
    · exact Prod.ext (looked (assignments e he).1) (Value.cellBy_congr same (assignments e he).2)
    · rw [← Condition.run_traverseAll, ← Condition.run_traverseAll]
      exact looked conditions
  | factory _ | table _ | executor _ | dialect _ | function _ => rfl

theorem Store.IsWhole.isClosed {s : Store} (h : s.IsWhole) : s.IsClosed :=
  fun _ _ found => (h.content found).isWithin

/-! ## Numbers of copies -/

/-- Objects that were met so far, each once, of those that there are. -/
structure Store.IsMet (first : Nat) (met : List Nat) : Prop where
  nodup : met.Nodup
  below : ∀ number ∈ met, number < first

/-- Work on the numbers of copies that goes on from objects that were met. What comes of it is as `gives`
says of the number of objects that there are with the copies of all that are met then. -/
def Store.Numbers {α : Type} (first count : Nat) (gives : Nat → α → Prop) (work : StateM (List Nat) α) :
    Prop :=
  ∀ met, IsMet first met → count ≤ first + met.length →
    IsMet first (work.run met).2 ∧ met.length ≤ (work.run met).2.length ∧
      gives (first + (work.run met).2.length) (work.run met).1

namespace Store.Numbers

variable {α β : Type} {first count : Nat} {g : Nat → α → Prop} {r : Nat → β → Prop}

theorem pure {a : α} (h : ∀ more, count ≤ more → g more a) : Numbers first count g (pure a) :=
  fun _ hm le => ⟨hm, le_rfl, h _ le⟩

theorem bind {work : StateM (List Nat) α} {next : α → StateM (List Nat) β} (h : Numbers first count g work)
    (hn : ∀ a more, count ≤ more → g more a → Numbers first more r (next a)) :
    Numbers first count r (work >>= next) := by
  intro met hm le
  obtain ⟨then_, longer, given⟩ := h met hm le
  obtain ⟨last, later, result⟩ := hn _ _ (le.trans (Nat.add_le_add_left longer first)) given _ then_ le_rfl
  exact ⟨last, longer.trans later, result⟩

theorem map {work : StateM (List Nat) α} {f : α → β} (h : Numbers first count g work)
    (hf : ∀ a more, g more a → r more (f a)) : Numbers first count r (f <$> work) := by
  intro met hm le
  obtain ⟨last, later, given⟩ := h met hm le
  exact ⟨last, later, hf _ _ given⟩

end Store.Numbers

namespace Store

variable {first count : Nat}

theorem numberOfCopy_numbers {number : Nat} (h : number < first) :
    Numbers first count (fun more copy => copy < more) (numberOfCopy first number) := by
  intro met hm _
  cases place : met.idxOf? number with
  | some index =>
    have run : (numberOfCopy first number).run met = (first + index, met) := by
      rw [StateT.run, numberOfCopy, place]
    obtain ⟨bound, -⟩ := List.idxOf?_eq_some_iff.1 place
    rw [run]
    exact ⟨hm, le_rfl, Nat.add_lt_add_left bound first⟩
  | none =>
    have run : (numberOfCopy first number).run met = (first + met.length, met ++ [number]) := by
      rw [StateT.run, numberOfCopy, place]
    have fresh : number ∉ met := List.idxOf?_eq_none_iff.1 place
    rw [run, List.length_append]
    refine ⟨⟨?_, ?_⟩, Nat.le_add_right _ _, Nat.lt_succ_self _⟩
    · refine List.nodup_append.2 ⟨hm.nodup, by simp, fun other there copy same => ?_⟩
      rw [List.mem_singleton.1 same]
      exact fun here => fresh (here ▸ there)
    · exact List.forall_mem_append.2 ⟨hm.below, List.forall_mem_singleton.2 h⟩

theorem renumberObject_numbers {o : Object} (h : o.number < first) (le : first ≤ count) :
    Numbers first count (fun more copy => copy.number < more)
      (Content.renumberObject (numberOfCopy first) o) := by
  unfold Content.renumberObject
  split
  · exact .pure fun more lt => h.trans_le (le.trans lt)
  · exact .bind (numberOfCopy_numbers h) fun copy more _ below => .pure fun _ lt => below.trans_le lt

theorem objects_numbers {objects : List Object} (h : ∀ o ∈ objects, o.number < first) (le : first ≤ count) :
    Numbers first count (fun more copies => copies.length = objects.length ∧ ∀ o ∈ copies, o.number < more)
      (objects.mapM (Content.renumberObject (numberOfCopy first))) := by
  induction objects generalizing count with
  | nil =>
    rw [List.mapM_nil]
    exact .pure fun _ _ => ⟨rfl, List.forall_mem_nil _⟩
  | cons o rest ih =>
    obtain ⟨now, later⟩ := List.forall_mem_cons.1 h
    rw [List.mapM_cons]
    refine .bind (renumberObject_numbers now le) fun copy more lt below =>
      .bind (ih later (le.trans lt)) fun copies all lt' given => .pure fun last le' => ⟨?_, ?_⟩
    · rw [List.length_cons, List.length_cons, given.1]
    · exact List.forall_mem_cons.2
        ⟨below.trans_le (lt'.trans le'), fun o ho => (given.2 o ho).trans_le le'⟩

/-- Whatever it is found in, the objects there get the numbers of copies. -/
theorem walk_numbers {α : Type} [HasObjects α] {a : α} (places : HasPlaces a) (h : IsPresent first a)
    (le : first ≤ count) :
    Numbers first count (fun more copy => IsPresent more copy)
      (walk (Content.renumberObject (numberOfCopy first)) a) := by
  obtain ⟨objects, fill, rfl, fills⟩ := places
  rw [fills objects rfl]
  exact (objects_numbers ((fills.isPresent_iff rfl).1 h) le).map fun copies more given =>
    (fills.isPresent_iff given.1).2 given.2

/-- The copy of contents holds copies, which have been met. -/
theorem renumber_numbers {c : Content} (h : c.IsPresent first) (le : first ≤ count) :
    Numbers first count (fun more copy => copy.IsPresent more) (c.renumber (numberOfCopy first)) := by
  cases c with
  | builder b =>
    refine .bind (walk_numbers b.dialect.hasPlaces h.1 le) fun dialect more lt given =>
      .bind (walk_numbers b.query.hasPlaces h.2 (le.trans lt)) fun query all lt' given' =>
        .pure fun last le' => ⟨given.mono (lt'.trans le'), given'.mono le'⟩
  | statement x =>
    obtain ⟨executor, table, rows, assignments, conditions, returning⟩ := h
    refine .map (g := fun more copy => (Content.statement copy).IsPresent more) ?_ fun _ _ given => given
    refine .bind (numberOfCopy_numbers executor) fun executor n₁ lt₁ h₁ => ?_
    have le₁ := le.trans lt₁
    refine .bind (walk_numbers x.table.hasPlaces table le₁) fun table n₂ lt₂ h₂ => ?_
    have le₂ := le₁.trans lt₂
    refine .bind (walk_numbers (Value.all_havePlaces x.rows) rows le₂) fun rows n₃ lt₃ h₃ => ?_
    have le₃ := le₂.trans lt₃
    refine .bind (walk_numbers (Value.entries_havePlaces x.assignments) assignments le₃)
      fun assignments n₄ lt₄ h₄ => ?_
    have le₄ := le₃.trans lt₄
    refine .bind (walk_numbers (Condition.all_havePlaces x.conditions) conditions le₄)
      fun conditions n₅ lt₅ h₅ => ?_
    have le₅ := le₄.trans lt₅
    refine .bind (walk_numbers (Value.all_havePlaces x.returning) returning le₅)
      fun returning n₆ lt₆ h₆ => .pure fun last lt => ?_
    exact ⟨h₁.trans_le (by omega), h₂.mono (by omega), h₃.mono (by omega), h₄.mono (by omega),
      h₅.mono (by omega), h₆.mono lt⟩
  | factory f =>
    refine .bind (numberOfCopy_numbers h.1) fun number more lt below =>
      .bind (walk_numbers f.dialect.hasPlaces h.2 (le.trans lt)) fun dialect all lt' given =>
        .pure fun last le' => ⟨below.trans_le (lt'.trans le'), given.mono le'⟩
  | table t =>
    refine .bind (numberOfCopy_numbers h.1) fun number more lt below =>
      .bind (walk_numbers t.name.hasPlaces h.2 (le.trans lt)) fun name all lt' given =>
        .pure fun last le' => ⟨below.trans_le (lt'.trans le'), given.mono le'⟩
  | executor _ | dialect _ | function _ => exact .pure fun _ _ => trivial

variable {s : Store}

/-- Each object that is met gets a copy: no object is met twice, so there are no more than all, and the steps
are enough. By induction on the steps; with each there is one copy more. -/
theorem copyContents_present (h : s.IsWhole) {met : List Nat} (hm : IsMet s.contents.length met) {steps : Nat}
    {copies : List Content} (hc : ∀ c ∈ copies, c.IsPresent (s.contents.length + met.length))
    (le : copies.length ≤ met.length) (enough : s.contents.length ≤ steps + copies.length) :
    met.length ≤ (s.copyContents steps met copies).length ∧
      ∀ c ∈ s.copyContents steps met copies,
        c.IsPresent (s.contents.length + (s.copyContents steps met copies).length) := by
  have few (met : List Nat) (hm : IsMet s.contents.length met) : met.length ≤ s.contents.length :=
    length_path_le hm.nodup hm.below
  have done {met : List Nat} {copies : List Content} (le : met.length ≤ copies.length)
      (hc : ∀ c ∈ copies, c.IsPresent (s.contents.length + met.length)) : met.length ≤ copies.length ∧
        ∀ c ∈ copies, c.IsPresent (s.contents.length + copies.length) :=
    ⟨le, fun c there => (hc c there).mono (Nat.add_le_add_left le _)⟩
  induction steps generalizing met copies with
  | zero =>
    rw [copyContents]
    exact done ((few met hm).trans (by omega)) hc
  | succ steps ih =>
    rw [copyContents]
    cases next : met[copies.length]? with
    | none => exact done (List.getElem?_eq_none_iff.1 next) hc
    | some number =>
      obtain ⟨more, there⟩ := List.getElem?_eq_some_iff.1 next
      have below := hm.below number (there ▸ List.getElem_mem more)
      have found : s.content? number = some s.contents[number] := List.getElem?_eq_getElem below
      rw [Option.bind_some, found]
      obtain ⟨met', longer, present⟩ :=
        renumber_numbers (h.content found) le_rfl met hm (Nat.le_add_right _ _)
      obtain ⟨all, present⟩ := ih met' (List.forall_mem_append.2
        ⟨fun c there => (hc c there).mono (Nat.add_le_add_left longer _),
          List.forall_mem_singleton.2 present⟩)
        (by rw [List.length_append, List.length_singleton]; omega)
        (by rw [List.length_append, List.length_singleton]; omega)
      exact ⟨longer.trans all, present⟩

theorem IsWhole.withCopies (h : s.IsWhole) {met : List Nat} (hm : IsMet s.contents.length met)
    {copies : List Content} (hc : ∀ c ∈ copies, c.IsPresent (s.contents.length + met.length))
    (le : copies.length ≤ met.length) : (s.withCopies met copies).IsWhole ∧
      s.contents.length + met.length ≤ (s.withCopies met copies).contents.length := by
  obtain ⟨all, present⟩ := copyContents_present h hm hc le (Nat.le_add_right _ _)
  refine ⟨h.append present, ?_⟩
  rw [Store.withCopies, List.length_append]
  exact Nat.add_le_add_left all _

theorem IsWhole.copyQuery (h : s.IsWhole) {q : Query} (hq : IsPresent s.contents.length q) :
    (s.copyQuery q).2.IsWhole ∧ s.contents.length ≤ (s.copyQuery q).2.contents.length ∧
      IsPresent (s.copyQuery q).2.contents.length (s.copyQuery q).1 := by
  obtain ⟨met, -, present⟩ := walk_numbers q.hasPlaces hq le_rfl [] ⟨.nil, List.forall_mem_nil _⟩ le_rfl
  obtain ⟨whole, longer⟩ := h.withCopies met (List.forall_mem_nil _) (Nat.zero_le _)
  exact ⟨whole, (Nat.le_add_right _ _).trans longer, present.mono longer⟩

theorem IsWhole.copyBuilder (h : s.IsWhole) {number : Nat} (below : number < s.contents.length) {b : Builder}
    (dialect : IsPresent s.contents.length b.dialect) (query : IsPresent s.contents.length b.query) :
    (s.copyBuilder number b).IsWhole ∧ s.contents.length < (s.copyBuilder number b).contents.length := by
  have one : IsMet s.contents.length [number] := ⟨by simp, List.forall_mem_singleton.2 below⟩
  obtain ⟨met, longer, present⟩ :=
    walk_numbers b.query.hasPlaces query le_rfl [number] one (Nat.le_add_right _ _)
  have copy : (Content.builder ⟨b.dialect, (s.renumberQuery [number] b.query).1⟩).IsPresent
      (s.contents.length + (s.renumberQuery [number] b.query).2.length) :=
    ⟨dialect.mono (Nat.le_add_right _ _), present⟩
  obtain ⟨whole, more⟩ := h.withCopies met (List.forall_mem_singleton.2 copy) longer
  exact ⟨whole, (Nat.add_le_add_left longer s.contents.length).trans more⟩

end Store

end SqlComposition
