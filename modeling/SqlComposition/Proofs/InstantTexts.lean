import Mathlib.Data.String.Basic
import SqlComposition.Literal
import SqlComposition.Proofs.CalendarDays
import SqlComposition.Proofs.FixedFields

/-!
Instants and their texts. The text of an instant has the year and the smaller fields of universal time, down
to the millisecond, at fixed places. So the millisecond is read back from the text, and the texts come in
the order of the instants, whatever the offsets. Without an offset the fields are those of the local time.
-/

namespace SqlComposition.Calendar
open Number (Field writeFields readFields toList_padded readFields_writeFields writeFields_lt)

/-- A time of a day of 24 hours. -/
structure Clock.InDay (c : Clock) : Prop where
  hour : c.hour < 24
  minute : c.minute < 60
  second : c.second < 60
  microsecond : c.microsecond < 1000000

instance (c : Clock) : Decidable c.InDay :=
  decidable_of_iff (c.hour < 24 ∧ c.minute < 60 ∧ c.second < 60 ∧ c.microsecond < 1000000)
    ⟨fun ⟨hour, minute, second, microsecond⟩ => ⟨hour, minute, second, microsecond⟩,
      fun h => ⟨h.hour, h.minute, h.second, h.microsecond⟩⟩

theorem Clock.InDay.microseconds_lt {c : Clock} (h : c.InDay) : c.microseconds < microsecondsOfDay := by
  obtain ⟨hours, minutes, seconds, microseconds⟩ := h
  rw [Clock.microseconds, Clock.seconds, microsecondsOfDay]
  omega

theorem Clock.ofMicroseconds_inDay {total : Nat} (h : total < microsecondsOfDay) :
    (Clock.ofMicroseconds total).InDay where
  hour := Nat.div_lt_of_lt_mul (Nat.div_lt_of_lt_mul h)
  minute := Nat.mod_lt _ (by decide)
  second := Nat.mod_lt _ (by decide)
  microsecond := Nat.mod_lt _ (by decide)

theorem Clock.inDay_of_clockInDay {fields : List Int} {clock : Clock} (h : clockInDay fields = .ok clock) :
    clock.InDay := by
  obtain ⟨hour, h⟩ := of_require h
  obtain ⟨minute, h⟩ := of_require h
  obtain ⟨second, h⟩ := of_require h
  obtain ⟨microsecond, h⟩ := of_require h
  obtain rfl := Except.ok.inj h
  exact ⟨Nat.lt_succ_of_le (@toNat_within 0 23 _ hour).2, Nat.lt_succ_of_le (@toNat_within 0 59 _ minute).2,
    Nat.lt_succ_of_le (@toNat_within 0 59 _ second).2,
    Nat.lt_succ_of_le (@toNat_within 0 999999 _ microsecond).2⟩

namespace DateTime

structure InCalendar (t : DateTime) : Prop where
  date : t.date.InCalendar
  clock : t.clock.InDay

instance (t : DateTime) : Decidable t.InCalendar :=
  decidable_of_iff (t.date.InCalendar ∧ t.clock.InDay)
    ⟨fun ⟨date, clock⟩ => ⟨date, clock⟩, fun h => ⟨h.date, h.clock⟩⟩

/-- Only dates and times of the calendar are made of fields. -/
theorem inCalendar_of_dateTimeOfFields {y m d : Int} {fields : List Int} {offset : Option Int}
    {t : DateTime} (h : dateTimeOfFields y m d fields offset = .ok t) : t.InCalendar := by
  unfold dateTimeOfFields at h
  obtain ⟨offset, -, h⟩ := of_bind_eq_ok h
  obtain ⟨-, -, h⟩ := of_bind_eq_ok h
  obtain ⟨date, hd, h⟩ := of_bind_eq_ok h
  obtain ⟨clock, hc, h⟩ := of_bind_eq_ok h
  obtain rfl := Except.ok.inj h
  exact ⟨inCalendar_of_dateInCalendar hd, Clock.inDay_of_clockInDay hc⟩

/-- Universal time in microseconds; without an offset, local time. -/
def microseconds (t : DateTime) : Int :=
  (t.localMicroseconds : Int) - t.offset.getD 0

/-- In universal time there is no such day in the years 1 to 9999. -/
def LeavesCalendar (t : DateTime) : Prop :=
  ∀ u : DateTime, u.InCalendar → u.offset = some 0 → u.microseconds ≠ t.microseconds

/-- The same fields with another offset, or without one. -/
def withOffset (t : DateTime) (offset : Option Int) : DateTime :=
  { t with offset }

/-- Without the microseconds that make no whole millisecond. -/
def truncated (t : DateTime) : DateTime :=
  { t with clock := { t.clock with microsecond := t.clock.microsecond / 1000 * 1000 } }

def localMilliseconds (t : DateTime) : Nat :=
  t.localMicroseconds / 1000

/-- From the year down to the millisecond. -/
def fields (t : DateTime) : List Nat :=
  [t.date.year, t.date.month, t.date.day, t.clock.hour, t.clock.minute, t.clock.second,
    t.clock.microsecond / 1000]

def form : List Field :=
  [⟨[], 4⟩, ⟨['-'], 2⟩, ⟨['-'], 2⟩, ⟨['T'], 2⟩, ⟨[':'], 2⟩, ⟨[':'], 2⟩, ⟨['.'], 3⟩]

def ofFields? (offset : Option Int) : List Nat → Option DateTime
  | [year, month, day, hour, minute, second, millisecond] =>
    some ⟨⟨year, month, day⟩, ⟨hour, minute, second, millisecond * 1000⟩, offset⟩
  | _ => none

/-- Reads a text of the form `YYYY-MM-DDTHH:MM:SS.mmm`, in universal time if a `Z` follows. -/
def read (text : String) : Option DateTime := do
  let (numbers, rest) ← readFields form text.toList
  if rest = [] then ofFields? none numbers
  else if rest = ['Z'] then ofFields? (some 0) numbers
  else none

variable {t u : DateTime}

theorem InCalendar.withOffset (h : t.InCalendar) (offset : Option Int) :
    (t.withOffset offset).InCalendar :=
  ⟨h.date, h.clock⟩

theorem InCalendar.truncated (h : t.InCalendar) : t.truncated.InCalendar := by
  have own := h.clock.microsecond
  refine ⟨h.date, ⟨h.clock.hour, h.clock.minute, h.clock.second, ?_⟩⟩
  show t.clock.microsecond / 1000 * 1000 < 1000000
  omega

theorem localMicroseconds_truncated (t : DateTime) :
    t.truncated.localMicroseconds = t.localMicroseconds / 1000 * 1000 := by
  simp only [localMicroseconds, truncated, Clock.microseconds, Clock.seconds, microsecondsOfDay]
  omega

theorem microseconds_truncated (t : DateTime) :
    (t.truncated.withOffset (some 0)).microseconds = (t.withOffset (some 0)).microseconds / 1000 * 1000 := by
  show (t.truncated.localMicroseconds : Int) - 0 = ((t.localMicroseconds : Int) - 0) / 1000 * 1000
  rw [localMicroseconds_truncated]
  omega

theorem InCalendar.fields_hold (h : t.InCalendar) : List.Forall₂ Field.Holds form t.fields := by
  obtain ⟨⟨year, month, day⟩, ⟨hour, minute, second, microsecond⟩⟩ := h
  have longest := monthLength_le (isLeap t.date.year) t.date.month
  simp only [form, fields, List.forall₂_cons, List.forall₂_nil_left_iff, Field.Holds, and_true]
  omega

theorem InCalendar.toList_millisecondText (h : t.InCalendar) :
    t.millisecondText.toList = writeFields form t.fields := by
  obtain ⟨year, month, day, hour, minute, second, millisecond⟩ := by
    simpa only [form, fields, List.forall₂_cons, List.forall₂_nil_left_iff, Field.Holds, and_true]
      using h.fields_hold
  have two : 0 < 2 := by decide
  simp only [millisecondText, Date.text, Clock.millisecondText, Clock.wholeText, String.toList_append,
    toList_padded (by decide) year, toList_padded two month, toList_padded two day, toList_padded two hour,
    toList_padded two minute, toList_padded two second, toList_padded (by decide) millisecond]
  simp [fields, form, writeFields]

theorem InCalendar.localMicroseconds_bounds (h : t.InCalendar) :
    microsecondsOfDay ≤ t.localMicroseconds ∧
      t.localMicroseconds < (lastOrdinal + 1) * microsecondsOfDay := by
  have days := h.date.ordinal_range
  have microseconds := h.clock.microseconds_lt
  rw [localMicroseconds]
  rw [microsecondsOfDay] at *
  omega

/-- The first field that differs decides which is earlier. -/
theorem localMilliseconds_lt (ht : t.InCalendar) (hu : u.InCalendar) (h : t.fields < u.fields) :
    t.localMilliseconds < u.localMilliseconds := by
  have earlier : t.date.ordinal < u.date.ordinal → t.localMilliseconds < u.localMilliseconds := by
    have first := ht.clock.microseconds_lt
    intro days
    simp only [localMilliseconds, localMicroseconds]
    rw [microsecondsOfDay] at *
    omega
  simp only [fields, List.cons_lt_cons_iff, List.lt_irrefl, and_false, or_false] at h
  rcases h with years | ⟨sameYear, months | ⟨sameMonth, days | ⟨sameDay, times⟩⟩⟩
  · exact earlier (ht.date.ordinal_lt_of_year hu.date years)
  · exact earlier (ht.date.ordinal_lt_of_month hu.date sameYear months)
  · exact earlier (Date.InCalendar.ordinal_lt_of_day sameYear sameMonth days)
  · have same : t.date.ordinal = u.date.ordinal := by
      rw [Date.ordinal, Date.ordinal, sameYear, sameMonth, sameDay]
    obtain ⟨-, minutes, seconds, microseconds⟩ := ht.clock
    simp only [localMilliseconds, localMicroseconds, Clock.microseconds, Clock.seconds, microsecondsOfDay,
      same]
    omega

theorem localMilliseconds_eq (h : t.fields = u.fields) : t.localMilliseconds = u.localMilliseconds := by
  simp only [fields, List.cons.injEq, and_true] at h
  obtain ⟨year, month, day, hour, minute, second, millisecond⟩ := h
  have days : t.date.ordinal = u.date.ordinal := by rw [Date.ordinal, Date.ordinal, year, month, day]
  simp only [localMilliseconds, localMicroseconds, Clock.microseconds, Clock.seconds, microsecondsOfDay, days]
  omega

theorem fields_lt (ht : t.InCalendar) (hu : u.InCalendar)
    (h : t.localMilliseconds < u.localMilliseconds) : t.fields < u.fields := by
  rcases lt_trichotomy t.fields u.fields with less | same | greater
  · exact less
  · have ties := localMilliseconds_eq same
    omega
  · have later := localMilliseconds_lt hu ht greater
    omega

theorem fields_eq (ht : t.InCalendar) (hu : u.InCalendar)
    (h : t.localMilliseconds = u.localMilliseconds) : t.fields = u.fields := by
  rcases lt_trichotomy t.fields u.fields with less | same | greater
  · have earlier := localMilliseconds_lt ht hu less
    omega
  · exact same
  · have later := localMilliseconds_lt hu ht greater
    omega

/-- The same instant in universal time. -/
theorem universal?_eq_some {offset : Int} (ho : t.offset = some offset)
    (h : t.universal? offset = some u) :
    u.InCalendar ∧ (u.withOffset (some 0)).microseconds = t.microseconds := by
  simp only [universal?, Option.ite_none_right_eq_some, Option.some.injEq] at h
  rw [Int.fdiv_eq_ediv_of_nonneg _ (by decide), Int.fmod_eq_emod_of_nonneg _ (by decide)] at h
  obtain ⟨inside, rfl⟩ := h
  rw [microseconds, microseconds, ho, Option.getD_some]
  generalize (t.localMicroseconds : Int) - offset = moment at inside ⊢
  simp only [microsecondsOfDay] at inside ⊢
  obtain ⟨date, ordinal⟩ :=
    dateOfOrdinal_inCalendar (show 1 ≤ (moment / (86400000000 : Nat)).toNat by omega) (by omega)
  refine ⟨⟨date, Clock.ofMicroseconds_inDay (by rw [microsecondsOfDay]; omega)⟩, ?_⟩
  simp only [withOffset, localMicroseconds, ordinal, Clock.microseconds_ofMicroseconds, microsecondsOfDay,
    Option.getD_some]
  omega

theorem universal?_eq_none {offset : Int} (ho : t.offset = some offset) :
    t.universal? offset = none ↔ t.LeavesCalendar := by
  constructor
  · intro outside u hu universal same
    have days := hu.localMicroseconds_bounds
    simp only [universal?, ite_eq_right_iff, reduceCtorEq, imp_false] at outside
    rw [Int.fdiv_eq_ediv_of_nonneg _ (by decide)] at outside
    simp only [microseconds, ho, universal, Option.getD_some] at same
    rw [microsecondsOfDay] at *
    omega
  · intro leaves
    cases shifted : t.universal? offset with
    | none => rfl
    | some u =>
      obtain ⟨hu, same⟩ := universal?_eq_some ho shifted
      exact absurd same (leaves _ (hu.withOffset _) rfl)

theorem read_millisecondText (h : t.InCalendar) :
    read t.millisecondText = some (t.truncated.withOffset none) ∧
      read (t.millisecondText ++ "Z") = some (t.truncated.withOffset (some 0)) := by
  have found := readFields_writeFields h.fields_hold
  have whole := found []
  rw [List.append_nil] at whole
  simp only [read, String.toList_append, h.toList_millisecondText, whole, found]
  exact ⟨rfl, rfl⟩

theorem localMilliseconds_eq_div (t : DateTime) :
    (t.localMilliseconds : Int) = (t.withOffset (some 0)).microseconds / 1000 := by
  show ((t.localMicroseconds / 1000 : Nat) : Int) = ((t.localMicroseconds : Int) - 0) / 1000
  omega

end DateTime

/-- A date and time that names an instant. -/
abbrev Instant := { t : DateTime // t.InCalendar ∧ t.offset.isSome = true }

abbrev LocalTime := { t : DateTime // t.InCalendar ∧ t.offset = none }

namespace Instant

variable {t u : Instant} {x y : String}

theorem instantText_eq (t : Instant) : ∃ offset, t.val.offset = some offset ∧
    (Scalar.dateTime t).instantText =
      match t.val.universal? offset with
      | some u => .ok (u.millisecondText ++ "Z")
      | none => .error .beyondCalendar := by
  obtain ⟨offset, ho⟩ := Option.isSome_iff_exists.1 t.property.2
  refine ⟨offset, ho, ?_⟩
  simp only [Scalar.instantText, DateTime.instantText?, ho]
  cases t.val.universal? offset <;> rfl

theorem instantText_eq_error (t : Instant) :
    (Scalar.dateTime t).instantText = .error .beyondCalendar ↔ t.val.LeavesCalendar := by
  obtain ⟨offset, ho, written⟩ := t.instantText_eq
  rw [← DateTime.universal?_eq_none ho, written]
  cases t.val.universal? offset <;> simp

theorem instantText_ok_of_stays (stays : ¬ t.val.LeavesCalendar) :
    ∃ text, (Scalar.dateTime t).instantText = .ok text := by
  obtain ⟨offset, ho, written⟩ := t.instantText_eq
  rw [← DateTime.universal?_eq_none ho] at stays
  obtain ⟨u, shifted⟩ := Option.ne_none_iff_exists'.1 stays
  exact ⟨_, by rw [written, shifted]⟩

/-- The text is that of a date and time in universal time. -/
theorem instantText_eq_ok (h : (Scalar.dateTime t).instantText = .ok x) :
    ∃ u : DateTime, u.InCalendar ∧ x = u.millisecondText ++ "Z" ∧
      (u.withOffset (some 0)).microseconds = t.val.microseconds := by
  obtain ⟨offset, ho, written⟩ := t.instantText_eq
  rw [written] at h
  cases shifted : t.val.universal? offset with
  | none => simp [shifted] at h
  | some u =>
    obtain ⟨hu, same⟩ := DateTime.universal?_eq_some ho shifted
    rw [shifted] at h
    exact ⟨u, hu, (Except.ok.inj h).symm, same⟩

theorem read_instantText (h : (Scalar.dateTime t).instantText = .ok x) :
    ∃ u, DateTime.read x = some u ∧ u.InCalendar ∧ u.offset = some 0 ∧
      u.microseconds = t.val.microseconds / 1000 * 1000 := by
  obtain ⟨u, hu, rfl, same⟩ := instantText_eq_ok h
  refine ⟨_, (DateTime.read_millisecondText hu).2, hu.truncated.withOffset _, rfl, ?_⟩
  rw [← same, DateTime.microseconds_truncated]

theorem toList_instantText (h : (Scalar.dateTime t).instantText = .ok x) :
    ∃ u : DateTime, u.InCalendar ∧ x.toList = writeFields DateTime.form u.fields ++ ['Z'] ∧
      (u.localMilliseconds : Int) = t.val.microseconds / 1000 := by
  obtain ⟨u, hu, rfl, same⟩ := instantText_eq_ok h
  refine ⟨u, hu, ?_, ?_⟩
  · rw [String.toList_append, hu.toList_millisecondText]
    rfl
  · rw [DateTime.localMilliseconds_eq_div, same]

theorem instantText_lt (hx : (Scalar.dateTime t).instantText = .ok x)
    (hy : (Scalar.dateTime u).instantText = .ok y)
    (h : t.val.microseconds / 1000 < u.val.microseconds / 1000) : x < y := by
  obtain ⟨a, ha, first, earlier⟩ := toList_instantText hx
  obtain ⟨b, hb, second, later⟩ := toList_instantText hy
  rw [← earlier, ← later, Int.ofNat_lt] at h
  rw [String.lt_iff_toList_lt, first, second]
  exact writeFields_lt ha.fields_hold hb.fields_hold (DateTime.fields_lt ha hb h) _ _

theorem instantText_eq_of_millisecond (hx : (Scalar.dateTime t).instantText = .ok x)
    (hy : (Scalar.dateTime u).instantText = .ok y)
    (h : t.val.microseconds / 1000 = u.val.microseconds / 1000) : x = y := by
  obtain ⟨a, ha, first, here⟩ := toList_instantText hx
  obtain ⟨b, hb, second, there⟩ := toList_instantText hy
  rw [← here, ← there, Int.ofNat_inj] at h
  rw [← String.toList_inj, first, second, DateTime.fields_eq ha hb h]

/-- The order of the texts is that of the milliseconds. -/
theorem instantText_compare (hx : (Scalar.dateTime t).instantText = .ok x)
    (hy : (Scalar.dateTime u).instantText = .ok y) :
    (x = y ↔ t.val.microseconds / 1000 = u.val.microseconds / 1000) ∧
      (t.val.microseconds ≤ u.val.microseconds → x ≤ y) := by
  rcases lt_trichotomy (t.val.microseconds / 1000) (u.val.microseconds / 1000) with earlier | same | later
  · have less := instantText_lt hx hy earlier
    exact ⟨iff_of_false less.ne earlier.ne, fun _ => less.le⟩
  · have equal := instantText_eq_of_millisecond hx hy same
    exact ⟨iff_of_true equal same, fun _ => equal.le⟩
  · have greater := instantText_lt hy hx later
    exact ⟨iff_of_false greater.ne' later.ne', fun notAfter => by omega⟩

end Instant

theorem LocalTime.read_instantText (t : LocalTime) :
    ∃ text, (Scalar.dateTime t).instantText = .ok text ∧ DateTime.read text = some t.val.truncated := by
  have unplaced := t.property.2
  refine ⟨t.val.millisecondText, by rw [Scalar.instantText, DateTime.instantText?, unplaced], ?_⟩
  rw [(DateTime.read_millisecondText t.property.1).1, DateTime.withOffset, DateTime.truncated, unplaced]

/-- An instant has a text if universal time has a day for it, and the text says its millisecond; texts of
instants are in the order of these. A local time has a text that says its fields. -/
theorem DateTime.instantText_faithful :
    (∀ t : Instant,
      ((Scalar.dateTime t).instantText = .error .beyondCalendar ↔ t.val.LeavesCalendar) ∧
        (¬ t.val.LeavesCalendar → ∃ text u, (Scalar.dateTime t).instantText = .ok text ∧
          read text = some u ∧ u.InCalendar ∧ u.offset = some 0 ∧
            u.microseconds = t.val.microseconds / 1000 * 1000)) ∧
      (∀ (t u : Instant) (x y : String), (Scalar.dateTime t).instantText = .ok x →
        (Scalar.dateTime u).instantText = .ok y →
          (x = y ↔ t.val.microseconds / 1000 = u.val.microseconds / 1000) ∧
            (t.val.microseconds ≤ u.val.microseconds → x ≤ y)) ∧
        ∀ t : LocalTime, ∃ text, (Scalar.dateTime t).instantText = .ok text ∧
          read text = some t.val.truncated := by
  refine ⟨fun t => ⟨t.instantText_eq_error, fun stays => ?_⟩, fun t u x y => Instant.instantText_compare,
    LocalTime.read_instantText⟩
  obtain ⟨text, written⟩ := Instant.instantText_ok_of_stays stays
  obtain ⟨u, found⟩ := Instant.read_instantText written
  exact ⟨text, u, written, found⟩

namespace Instant

def evening : Instant :=
  ⟨⟨⟨2024, 2, 29⟩, ⟨23, 30, 0, 123456⟩, some (-3600000000)⟩, by decide⟩

/-- In the same millisecond, with another date and half a millisecond ahead of universal time. -/
def morning : Instant :=
  ⟨⟨⟨2024, 3, 1⟩, ⟨0, 30, 0, 124499⟩, some 500⟩, by decide⟩

/-- A microsecond after the last one of universal time. -/
def midnight : Instant :=
  ⟨⟨⟨9999, 12, 31⟩, ⟨23, 59, 59, 999999⟩, some (-1)⟩, by decide⟩

theorem evening_faithful :
    midnight.val.LeavesCalendar ∧ ¬ evening.val.LeavesCalendar ∧ ¬ morning.val.LeavesCalendar ∧
      ∃ text u, (Scalar.dateTime evening).instantText = .ok text ∧
        (Scalar.dateTime morning).instantText = .ok text ∧ DateTime.read text = some u ∧
          u.microseconds = evening.val.microseconds / 1000 * 1000 := by
  obtain ⟨written, compared, -⟩ := DateTime.instantText_faithful
  have leaves : midnight.val.LeavesCalendar := (written midnight).1.1 rfl
  have evenings : ¬ evening.val.LeavesCalendar := fun gone =>
    gone ⟨⟨2024, 3, 1⟩, ⟨0, 30, 0, 123456⟩, some 0⟩ (by decide) rfl (by decide)
  have mornings : ¬ morning.val.LeavesCalendar := fun gone =>
    gone ⟨⟨2024, 3, 1⟩, ⟨0, 30, 0, 123999⟩, some 0⟩ (by decide) rfl (by decide)
  obtain ⟨x, u, hx, found, -, -, instant⟩ := (written evening).2 evenings
  obtain ⟨y, -, hy, -⟩ := (written morning).2 mornings
  obtain rfl : x = y := (compared evening morning x y hx hy).1.2 (by decide)
  exact ⟨leaves, evenings, mornings, x, u, hx, hy, found, instant⟩

example : (Scalar.dateTime morning).instantText = .ok "2024-03-01T00:30:00.123Z" := by rfl

end Instant

end SqlComposition.Calendar
