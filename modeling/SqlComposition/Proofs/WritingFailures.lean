import SqlComposition.Proofs.Emission
import SqlComposition.Proofs.Reached

/-!
Why a query cannot be written. Writing goes on up to the first thing that cannot be written: a FROM clause
that names nothing or, where values are written as literals, a date and time that universal time has no
calendar day for. A query that holds no objects cannot fail to be written in any other way.
-/

namespace SqlComposition

namespace Calendar.DateTime

def first : DateTime := ⟨⟨1, 1, 1⟩, ⟨0, 0, 0, 0⟩, none⟩
def last : DateTime := ⟨⟨9999, 12, 31⟩, ⟨23, 59, 59, 999999⟩, none⟩

/-- Before the first or after the last microsecond of the years 1 to 9999. -/
def isOutside (moment : Int) : Bool :=
  decide (moment < first.localMicroseconds ∨ (last.localMicroseconds : Int) < moment)

/-- Names a moment that is outside of these years in universal time. -/
def isBeyond (t : DateTime) : Bool :=
  t.offset.any fun offset => isOutside (t.localMicroseconds - offset)

theorem universal?_isNone (t : DateTime) (offset : Int) :
    (t.universal? offset).isNone = isOutside (t.localMicroseconds - offset) := by
  have start : first.localMicroseconds = microsecondsOfDay := by decide
  have stop : last.localMicroseconds + 1 = (lastOrdinal + 1) * microsecondsOfDay := by decide
  rw [universal?, isOutside, Int.fdiv_eq_ediv_of_nonneg _ (by decide)]
  rw [lastOrdinal, microsecondsOfDay] at *
  split
  · rename_i inside
    exact (decide_eq_false (by omega)).symm
  · rename_i outside
    exact (decide_eq_true (by omega)).symm

theorem instantText?_isNone (t : DateTime) : t.instantText?.isNone = t.isBeyond := by
  rw [instantText?, isBeyond]
  cases t.offset with
  | none => rfl
  | some offset => rw [Option.isNone_map, universal?_isNone, Option.any_some]

end Calendar.DateTime

/-- Why the inlined text stops at it. -/
def Reached.failure? : Reached → Option Failure
  | source s => if s.isMissing then some .noSource else none
  | operand (.scalar (.dateTime t)) => if t.isBeyond then some .beyondCalendar else none
  | operand _ => none

/-- Why the bound text stops at it. -/
def Reached.boundFailure? : Reached → Option Failure
  | source s => if s.isMissing then some .noSource else none
  | operand _ => none

namespace Piece

def failure? : Piece → Option Failure
  | value v =>
    match v.literal with
    | .error failure => some failure
    | .ok _ => none
  | failed failure => some failure
  | text _ | sourceless => none

def boundFailure? : Piece → Option Failure
  | failed failure => some failure
  | value _ | text _ | sourceless => none

/-- The first piece that cannot be written decides. -/
theorem inlined_eq_error_iff {pieces : List Piece} {failure : Failure} :
    inlined pieces = .error failure ↔ pieces.findSome? failure? = some failure := by
  induction pieces with
  | nil => simp [inlined]
  | cons piece rest ih =>
    rw [List.findSome?_cons]
    cases piece with
    | text s =>
      rw [inlined_text, failure?, ← ih]
      cases inlined rest <;> simp [Except.map]
    | value v =>
      rw [inlined, failure?]
      cases v.literal with
      | error first => simp [bind, Except.bind]
      | ok literal =>
        rw [← ih]
        cases inlined rest <;> simp [bind, Except.bind, pure, Except.pure]
    | sourceless => exact ih
    | failed first => simp [failure?]

theorem bound_eq_error_iff {placeholder : Nat → String} {count : Nat} {pieces : List Piece}
    {failure : Failure} :
    bound placeholder count pieces = .error failure ↔ pieces.findSome? boundFailure? = some failure := by
  induction pieces generalizing count with
  | nil => simp [bound]
  | cons piece rest ih =>
    rw [List.findSome?_cons]
    cases piece with
    | text s =>
      rw [bound_text, boundFailure?, ← @ih count]
      cases bound placeholder count rest <;> simp [Except.map]
    | value v =>
      rw [bound_value, boundFailure?, ← @ih (count + 1)]
      cases bound placeholder (count + 1) rest <;> simp [Except.map]
    | sourceless => exact ih
    | failed first => simp [bound, boundFailure?]

theorem findSome?_operative {find : Piece → Option Failure}
    (hf : ∀ piece, piece.isOperative = false → find piece = none) (layout : Layout) :
    layout.pieces.findSome? find = layout.operative.findSome? find := by
  rw [Layout.operative]
  induction layout.pieces with
  | nil => rfl
  | cons piece rest ih =>
    cases h : piece.isOperative with
    | true => rw [List.filter_cons_of_pos h, List.findSome?_cons, List.findSome?_cons, ih]
    | false => rw [List.filter_cons_of_neg (by simp [h]), List.findSome?_cons, hf piece h, ih]

theorem failures_of_not_isOperative {piece : Piece} (h : piece.isOperative = false) :
    piece.failure? = none ∧ piece.boundFailure? = none := by
  cases piece with
  | text _ => exact ⟨rfl, rfl⟩
  | value _ => cases h
  | sourceless => exact ⟨rfl, rfl⟩
  | failed _ => cases h

end Piece

namespace Reached

theorem findSome?_flatMap {find : Piece → Option Failure} {stop : Reached → Option Failure}
    (hs : ∀ r : Reached, r.pieces.findSome? find = stop r) (reached : List Reached) :
    (reached.flatMap pieces).findSome? find = reached.findSome? stop := by
  induction reached with
  | nil => rfl
  | cons r rest ih =>
    rw [List.flatMap_cons, List.findSome?_append, hs, ih, List.findSome?_cons]
    cases stop r <;> rfl

/-- Nothing but a date and time can fail to be written as a literal. -/
theorem findSome?_pieces (r : Reached) : r.pieces.findSome? Piece.failure? = r.failure? := by
  cases r with
  | source s => cases h : s.isMissing <;> simp [pieces, failure?, h, Piece.failure?]
  | operand v =>
    cases v with
    | scalar s =>
      cases s with
      | dateTime t =>
        have moment := t.instantText?_isNone
        cases h : t.instantText? <;> rw [h] at moment <;>
          simp [pieces, failure?, Piece.failure?, Scalar.literal, Scalar.instantText, h, ← moment, Except.map]
      | _ => rfl
    | _ => rfl

theorem findSome?_bound (r : Reached) : r.pieces.findSome? Piece.boundFailure? = r.boundFailure? := by
  cases r with
  | source s => cases h : s.isMissing <;> simp [pieces, boundFailure?, h, Piece.boundFailure?]
  | operand v => cases v <;> rfl

variable {r : Reached} {failure : Failure}

theorem boundFailure?_eq_some :
    r.boundFailure? = some failure ↔
      .noSource = failure ∧ ∃ s, r = .source s ∧ s.isMissing = true := by
  cases r with
  | source s => cases missing : s.isMissing <;> simp [boundFailure?, missing]
  | operand v => simp [boundFailure?]

theorem failure?_eq_some :
    r.failure? = some failure ↔
      (.noSource = failure ∧ ∃ s, r = .source s ∧ s.isMissing = true) ∨
        (.beyondCalendar = failure ∧ ∃ t, r = .operand (.scalar (.dateTime t)) ∧ t.isBeyond = true) := by
  cases r with
  | source s => cases missing : s.isMissing <;> simp [failure?, missing]
  | operand v =>
    cases v with
    | scalar s =>
      cases s with
      | dateTime t => cases beyond : t.isBeyond <;> simp [failure?, beyond]
      | _ => simp [failure?]
    | _ => simp [failure?]

end Reached

namespace Query

/-- Writes a FROM clause that names nothing. -/
def LacksSource (q : Query) : Prop :=
  ∃ s, .source s ∈ q.reached ∧ s.isMissing = true

/-- Writes a date and time that universal time has no day for. -/
def LeavesCalendar (q : Query) : Prop :=
  ∃ t, .operand (.scalar (.dateTime t)) ∈ q.reached ∧ t.isBeyond = true

variable {q : Query}

/-- The first thing that cannot be written decides how the inlined text fails. -/
theorem inlined_eq_error_iff (h : q.IsSettled) {failure : Failure} :
    q.inlined = .error failure ↔ q.reached.findSome? Reached.failure? = some failure := by
  rw [inlined, Layout.inlined, Piece.inlined_eq_error_iff,
    Piece.findSome?_operative fun _ hp => (Piece.failures_of_not_isOperative hp).1, q.operative_layout h,
    Reached.findSome?_flatMap Reached.findSome?_pieces]

theorem bound_eq_error_iff (h : q.IsSettled) (placeholder : Nat → String) {failure : Failure} :
    q.bound placeholder = .error failure ↔
      q.reached.findSome? Reached.boundFailure? = some failure := by
  rw [bound, Layout.bound, Piece.bound_eq_error_iff,
    Piece.findSome?_operative fun _ hp => (Piece.failures_of_not_isOperative hp).2, q.operative_layout h,
    Reached.findSome?_flatMap Reached.findSome?_bound]

/-- Where one thing stops the writing, the writing fails. -/
theorem exists_first {stop : Reached → Option Failure} {r : Reached} {failure : Failure}
    (hr : r ∈ q.reached) (hs : stop r = some failure) : ∃ first, q.reached.findSome? stop = some first := by
  rw [← Option.isSome_iff_exists, List.findSome?_isSome_iff]
  exact ⟨r, hr, by rw [hs]; rfl⟩

theorem bound_failed (h : q.IsSettled) {placeholder : Nat → String} {failure : Failure}
    (failed : q.bound placeholder = .error failure) : failure = .noSource ∧ q.LacksSource := by
  obtain ⟨r, hr, stops⟩ := List.exists_of_findSome?_eq_some ((bound_eq_error_iff h placeholder).1 failed)
  obtain ⟨rfl, s, rfl, missing⟩ := Reached.boundFailure?_eq_some.1 stops
  exact ⟨rfl, s, hr, missing⟩

theorem inlined_failed (h : q.IsSettled) {failure : Failure} (failed : q.inlined = .error failure) :
    (failure = .noSource ∧ q.LacksSource) ∨ (failure = .beyondCalendar ∧ q.LeavesCalendar) := by
  obtain ⟨r, hr, stops⟩ := List.exists_of_findSome?_eq_some ((inlined_eq_error_iff h).1 failed)
  rcases Reached.failure?_eq_some.1 stops with ⟨rfl, s, rfl, missing⟩ | ⟨rfl, t, rfl, beyond⟩
  · exact .inl ⟨rfl, s, hr, missing⟩
  · exact .inr ⟨rfl, t, hr, beyond⟩

/-- A query that holds no objects fails to be written only where a FROM clause names nothing or, with its
values as literals, where a date and time leaves the calendar. -/
theorem fails_iff (h : q.IsSettled) :
    (∀ placeholder,
      ((∃ failure, q.bound placeholder = .error failure) ↔ q.LacksSource) ∧
        ∀ failure, q.bound placeholder = .error failure →
          failure = .noSource ∧ failure.clause = some "FROM") ∧
      ((∃ failure, q.inlined = .error failure) ↔ q.LacksSource ∨ q.LeavesCalendar) ∧
        ∀ failure, q.inlined = .error failure →
          (failure = .noSource ∧ failure.clause = some "FROM" ∧ q.LacksSource) ∨
            (failure = .beyondCalendar ∧ q.LeavesCalendar) := by
  refine ⟨fun placeholder => ⟨⟨?_, ?_⟩, fun failure failed => ?_⟩, ⟨?_, ?_⟩, fun failure failed => ?_⟩
  · rintro ⟨failure, failed⟩
    exact (bound_failed h failed).2
  · rintro ⟨s, hs, missing⟩
    obtain ⟨first, stops⟩ := exists_first hs (Reached.boundFailure?_eq_some.2 ⟨rfl, s, rfl, missing⟩)
    exact ⟨first, (bound_eq_error_iff h placeholder).2 stops⟩
  · obtain ⟨rfl, -⟩ := bound_failed h failed
    exact ⟨rfl, rfl⟩
  · rintro ⟨failure, failed⟩
    exact (inlined_failed h failed).imp And.right And.right
  · rintro (⟨s, hs, missing⟩ | ⟨t, ht, beyond⟩)
    · obtain ⟨first, stops⟩ := exists_first hs (Reached.failure?_eq_some.2 (.inl ⟨rfl, s, rfl, missing⟩))
      exact ⟨first, (inlined_eq_error_iff h).2 stops⟩
    · obtain ⟨first, stops⟩ := exists_first ht (Reached.failure?_eq_some.2 (.inr ⟨rfl, t, rfl, beyond⟩))
      exact ⟨first, (inlined_eq_error_iff h).2 stops⟩
  · rcases inlined_failed h failed with ⟨rfl, lacks⟩ | ⟨rfl, leaves⟩
    · exact .inl ⟨rfl, rfl, lacks⟩
    · exact .inr ⟨rfl, leaves⟩

/-- In universal time, a minute past the end of the calendar. -/
def nightTime : Calendar.DateTime := ⟨⟨9999, 12, 31⟩, ⟨23, 1, 0, 0⟩, some (-3600000000)⟩

/-- The condition of a cross join and a binding without a slot hold queries that lack a source. -/
def nightSample : Query :=
  let lacking : Value := .query { source := some {} }
  { source := some { table := some "t" }
    joins := [{ kind := .cross, target := .table "u", on := some ⟨"a = ?", [lacking]⟩ }]
    conditions := [{ predicate := .raw ⟨"b < ?", [.scalar (.dateTime nightTime), lacking]⟩ }] }

theorem nightSample_fails :
    nightSample.IsSettled ∧ nightSample.LeavesCalendar ∧ ¬ nightSample.LacksSource ∧
      (∃ failure, nightSample.inlined = .error failure) ∧
        ∀ placeholder, ¬ ∃ failure, nightSample.bound placeholder = .error failure := by
  have settled : nightSample.IsSettled := by
    simp only [nightSample, IsSettled, Cte.AllSettled, SelectItem.AllSettled, Source.OptionSettled,
      Source.IsSettled, OptionSettled, Join.AllSettled, Join.IsSettled, JoinTarget.IsSettled,
      Fragment.OptionSettled, Fragment.IsSettled, Value.AllSettled, Value.IsSettled, Condition.AllSettled,
      Condition.IsSettled, Predicate.IsSettled, Expression.AllSettled, SetOperation.AllSettled,
      OrderItem.AllSettled, Value.OptionSettled, and_self]
  have reached : nightSample.reached =
      [.source { table := some "t" }, .operand (.scalar (.dateTime nightTime))] := rfl
  have leaves : nightSample.LeavesCalendar := by
    refine ⟨nightTime, ?_, by decide⟩
    rw [reached]
    exact List.mem_cons_of_mem _ List.mem_cons_self
  have sourced : ¬ nightSample.LacksSource := by
    rintro ⟨s, hs, missing⟩
    rw [reached] at hs
    cases hs with
    | head => cases missing
    | tail _ hs => nomatch List.mem_singleton.1 hs
  obtain ⟨bound, inlined, -⟩ := fails_iff settled
  exact ⟨settled, leaves, sourced, inlined.2 (.inr leaves), fun placeholder failed =>
    sourced ((bound placeholder).1.1 failed)⟩

end Query

end SqlComposition
