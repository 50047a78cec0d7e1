import SqlComposition.Builder.Method
import SqlComposition.Proofs.Places

/-!
The clauses of a query and changes of them. A query is made up of its clauses, one of each kind, and a
change touches the clause of its kind alone. What a series of changes makes of a clause therefore depends
on the changes of that kind, in their order; and where the last change takes the place of all before it, on
that one only.
-/

namespace SqlComposition

inductive ClauseKind where
  | ctes | selection | distinct | source | joins | conditions | grouping | having | setOperations
  | ordering | limit | offset
  deriving DecidableEq, Repr

def Method.kind : Method → ClauseKind
  | cte _ => .ctes
  | select | selectRaw | aggregate _ => .selection
  | distinct => .distinct
  | table | subquery => .source
  | join _ => .joins
  | filter _ => .conditions
  | groupBy | groupByRaw => .grouping
  | having _ => .having
  | combine _ => .setOperations
  | orderBy | orderByRaw => .ordering
  | limit => .limit
  | offset => .offset

def Clause.kind : Clause → ClauseKind
  | cte _ => .ctes
  | selectItem _ => .selection
  | source _ => .source
  | join _ => .joins
  | condition _ => .conditions
  | grouping _ => .grouping
  | having _ => .having
  | setOperation _ => .setOperations
  | ordering _ => .ordering

/-- A change of a query, which makes one of its clauses. -/
inductive Change where
  | clause (c : Clause)
  | distinct
  | limit (rows : Value)
  | offset (rows : Value)

namespace Change

def kind : Change → ClauseKind
  | clause c => c.kind
  | distinct => .distinct
  | limit _ => .limit
  | offset _ => .offset

def apply : Change → Query → Query
  | clause (.cte c), q => { q with ctes := q.ctes ++ [c] }
  | clause (.selectItem item), q => Edit.addSelection item q
  | clause (.source s), q => Edit.setSource s q
  | clause (.join j), q => { q with joins := q.joins ++ [j] }
  | clause (.condition c), q => Edit.addCondition c q
  | clause (.grouping e), q => Edit.addGrouping e q
  | clause (.having c), q => Edit.addHaving c q
  | clause (.setOperation s), q => Edit.addSetOperation s.operator s.query q
  | clause (.ordering item), q => Edit.addOrdering item q
  | distinct, q => { q with distinct := true }
  | limit rows, q => Edit.setLimit rows q
  | offset rows, q => Edit.setOffset rows q

/-- A function on queries that makes a change of some kind. -/
def Makes (kind : ClauseKind) (f : Query → Query) : Prop :=
  ∃ c : Change, c.kind = kind ∧ f = c.apply

end Change

namespace Query

def only (q : Query) : ClauseKind → Query
  | .ctes => { ctes := q.ctes }
  | .selection => { selection := q.selection }
  | .distinct => { distinct := q.distinct }
  | .source => { source := q.source }
  | .joins => { joins := q.joins }
  | .conditions => { conditions := q.conditions }
  | .grouping => { grouping := q.grouping }
  | .having => { having := q.having }
  | .setOperations => { setOperations := q.setOperations }
  | .ordering => { ordering := q.ordering }
  | .limit => { limit := q.limit }
  | .offset => { offset := q.offset }

def ofClauses (parts : ClauseKind → Query) : Query where
  ctes := (parts .ctes).ctes
  distinct := (parts .distinct).distinct
  selection := (parts .selection).selection
  source := (parts .source).source
  joins := (parts .joins).joins
  conditions := (parts .conditions).conditions
  grouping := (parts .grouping).grouping
  having := (parts .having).having
  setOperations := (parts .setOperations).setOperations
  ordering := (parts .ordering).ordering
  limit := (parts .limit).limit
  offset := (parts .offset).offset

theorem ofClauses_only (q : Query) : ofClauses q.only = q := by
  cases q
  rfl

theorem ext_only {p q : Query} (h : ∀ kind, p.only kind = q.only kind) : p = q := by
  rw [← ofClauses_only p, ← ofClauses_only q, funext h]

end Query

namespace ClauseKind

/-- Of these clauses a query has at most one, and a change puts another in its place. -/
def isReplaced : ClauseKind → Bool
  | source | limit | offset => true
  | ctes | selection | distinct | joins | conditions | grouping | having | setOperations | ordering =>
    false

/-- The items that decide on a clause, of those that are made for it: all of them, or only the last. -/
def decisive {α : Type} (kind : ClauseKind) (items : List α) : List α :=
  if kind.isReplaced then items.getLast?.toList else items

variable {α β : Type} (kind : ClauseKind)

theorem decisive_map (f : α → β) (items : List α) :
    kind.decisive (items.map f) = (kind.decisive items).map f := by
  unfold decisive
  split
  · rw [List.getLast?_map]
    cases items.getLast? <;> rfl
  · rfl

theorem mem_of_mem_decisive {items : List α} {a : α} (h : a ∈ kind.decisive items) : a ∈ items := by
  unfold decisive at h
  split at h
  · exact List.mem_of_getLast? (Option.mem_toList.1 h)
  · exact h

end ClauseKind

namespace Change

variable {kind : ClauseKind}

theorem only_apply_of_ne {c : Change} (h : c.kind ≠ kind) (q : Query) :
    (c.apply q).only kind = q.only kind := by
  rcases c with c | _ | _ | _
  · cases c <;> cases kind <;> first | rfl | exact absurd rfl h
  all_goals cases kind <;> first | rfl | exact absurd rfl h

theorem only_apply (c : Change) (q : Query) :
    (c.apply q).only c.kind = c.apply (q.only c.kind) := by
  rcases c with c | _ | _ | _
  · cases c <;> rfl
  all_goals rfl

theorem apply_only_of_replaced {c : Change} (h : c.kind.isReplaced = true) (p q : Query) :
    c.apply (p.only c.kind) = c.apply (q.only c.kind) := by
  rcases c with c | _ | _ | _
  · cases c <;> first | rfl | cases h
  all_goals rfl

def applyAll (changes : List Change) (q : Query) : Query :=
  changes.foldl (fun q c => c.apply q) q

theorem applyAll_append (first later : List Change) (q : Query) :
    applyAll (first ++ later) q = applyAll later (applyAll first q) :=
  List.foldl_append

theorem only_applyAll (changes : List Change) (q : Query) (kind : ClauseKind) :
    (applyAll changes q).only kind = applyAll (changes.filter (·.kind = kind)) (q.only kind) := by
  induction changes generalizing q with
  | nil => rfl
  | cons c rest ih =>
    by_cases own : c.kind = kind
    · subst own
      rw [List.filter_cons_of_pos (by simp)]
      exact (ih (c.apply q)).trans (congrArg (applyAll _) (c.only_apply q))
    · rw [List.filter_cons_of_neg (by simpa using own)]
      exact (ih (c.apply q)).trans (congrArg (applyAll _) (only_apply_of_ne own q))

/-- Of the changes of one kind, those that decide do the work of all. -/
theorem applyAll_decisive {changes : List Change} (h : ∀ c ∈ changes, c.kind = kind) (q : Query) :
    applyAll (kind.decisive changes) (q.only kind) = applyAll changes (q.only kind) := by
  unfold ClauseKind.decisive
  split
  · rename_i replaced
    rcases List.eq_nil_or_concat changes with rfl | ⟨first, last, rfl⟩
    · rfl
    · obtain ⟨before, own⟩ := List.forall_mem_append.1 (List.concat_eq_append ▸ h)
      have earlier : first.filter (·.kind = kind) = first :=
        List.filter_eq_self.2 fun c hc => by simpa using before c hc
      obtain rfl : last.kind = kind := own last List.mem_cons_self
      rw [List.concat_eq_append, List.getLast?_concat, applyAll_append, ← earlier, ← only_applyAll]
      exact apply_only_of_replaced replaced _ _
  · rfl

/-- Two series of changes come to the same where the same changes decide on each clause. -/
theorem applyAll_congr {changes others : List Change}
    (h : ∀ kind : ClauseKind, kind.decisive (changes.filter (·.kind = kind)) =
      kind.decisive (others.filter (·.kind = kind))) (q : Query) :
    applyAll changes q = applyAll others q := by
  refine Query.ext_only fun kind => ?_
  have own (series : List Change) : ∀ c ∈ series.filter (·.kind = kind), c.kind = kind :=
    fun c hc => by simpa using (List.mem_filter.1 hc).2
  rw [only_applyAll, only_applyAll, ← applyAll_decisive (own changes), h, applyAll_decisive (own others)]

end Change

end SqlComposition
