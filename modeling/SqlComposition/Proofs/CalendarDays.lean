import Mathlib.Tactic.SplitIfs
import SqlComposition.Calendar.Fields

/-!
Days of the calendar and their ordinals. The years and the months follow one another without a gap, so the
ordinals grow with the dates, and the date of an ordinal is the day that has it.
-/

namespace SqlComposition.Calendar

/-- A day of one of the years 1 to 9999. -/
structure Date.InCalendar (d : Date) : Prop where
  year : 1 ≤ d.year ∧ d.year ≤ 9999
  month : 1 ≤ d.month ∧ d.month ≤ 12
  day : 1 ≤ d.day ∧ d.day ≤ monthLength (isLeap d.year) d.month

instance (d : Date) : Decidable d.InCalendar :=
  decidable_of_iff ((1 ≤ d.year ∧ d.year ≤ 9999) ∧ (1 ≤ d.month ∧ d.month ≤ 12) ∧
      1 ≤ d.day ∧ d.day ≤ monthLength (isLeap d.year) d.month)
    ⟨fun ⟨year, month, day⟩ => ⟨year, month, day⟩, fun h => ⟨h.year, h.month, h.day⟩⟩

section Faults

variable {α β : Type}

theorem of_bind_eq_ok {first : Except FieldFault α} {next : α → Except FieldFault β} {b : β}
    (h : (first >>= next) = .ok b) : ∃ a, first = .ok a ∧ next a = .ok b := by
  cases first with
  | error fault => cases h
  | ok a => exact ⟨a, rfl, h⟩

theorem of_require {holds : Bool} {fault : FieldFault} {next : Except FieldFault α} {value : α}
    (h : (do require holds fault; next) = .ok value) : holds = true ∧ next = .ok value := by
  cases holds with
  | false => cases h
  | true => exact ⟨rfl, h⟩

end Faults

theorem toNat_within {low high : Nat} {n : Int} (h : within low high n = true) :
    low ≤ n.toNat ∧ n.toNat ≤ high := by
  simp only [within, Bool.and_eq_true, decide_eq_true_eq] at h
  omega

/-- Only days of the calendar are made of fields. -/
theorem inCalendar_of_dateInCalendar {y m d : Int} {date : Date} (h : dateInCalendar y m d = .ok date) :
    date.InCalendar := by
  obtain ⟨year, h⟩ := of_require h
  obtain ⟨month, h⟩ := of_require h
  obtain ⟨day, h⟩ := of_require h
  obtain rfl := Except.ok.inj h
  exact ⟨@toNat_within 1 9999 _ year, @toNat_within 1 12 _ month, @toNat_within 1 _ _ day⟩

theorem monthLength_le (leap : Bool) (month : Nat) : monthLength leap month ≤ 31 := by
  fun_cases monthLength leap month <;> grind

theorem daysBeforeMonth_succ (leap : Bool) {month : Nat} (h : 1 ≤ month) :
    daysBeforeMonth leap (month + 1) = daysBeforeMonth leap month + monthLength leap month := by
  obtain ⟨n, rfl⟩ := Nat.exists_eq_add_of_le' h
  rfl

theorem daysBeforeMonth_le (leap : Bool) {month later : Nat} (h : 1 ≤ month) (hl : month < later) :
    daysBeforeMonth leap month + monthLength leap month ≤ daysBeforeMonth leap later := by
  obtain ⟨between, rfl⟩ := Nat.exists_eq_add_of_lt hl
  induction between with
  | zero => exact Nat.le_of_eq (daysBeforeMonth_succ leap h).symm
  | succ between ih =>
    have grown := daysBeforeMonth_succ leap (Nat.le_add_left 1 (month + between))
    have before := ih (by omega)
    rw [← Nat.add_assoc month between 1]
    omega

theorem daysBeforeYear_succ {year : Nat} (h : 1 ≤ year) :
    daysBeforeYear (year + 1) = daysBeforeYear year + daysBeforeMonth (isLeap year) 13 := by
  have common : daysBeforeMonth false 13 = 365 := rfl
  have leap : daysBeforeMonth true 13 = 366 := rfl
  obtain ⟨past, rfl⟩ := Nat.exists_eq_add_of_le' h
  have fewer : past / 100 ≤ past / 4 := Nat.div_le_div_left (by decide) (by decide)
  rw [daysBeforeYear, daysBeforeYear, Nat.add_sub_cancel, Nat.add_sub_cancel]
  -- A quotient grows in the years that its divisor divides.
  by_cases fourth : (past + 1) % 4 = 0
  · by_cases century : (past + 1) % 100 = 0
    · by_cases fourCenturies : (past + 1) % 400 = 0
      · have rule : isLeap (past + 1) = true := by simp [isLeap, fourth, fourCenturies]
        rw [rule, leap, Nat.succ_div_of_mod_eq_zero fourth, Nat.succ_div_of_mod_eq_zero century,
          Nat.succ_div_of_mod_eq_zero fourCenturies]
        omega
      · have rule : isLeap (past + 1) = false := by simp [isLeap, century, fourCenturies]
        rw [rule, common, Nat.succ_div_of_mod_eq_zero fourth, Nat.succ_div_of_mod_eq_zero century,
          Nat.succ_div_of_mod_ne_zero fourCenturies]
        omega
    · have rule : isLeap (past + 1) = true := by simp [isLeap, fourth, century]
      have other : (past + 1) % 400 ≠ 0 := by omega
      rw [rule, leap, Nat.succ_div_of_mod_eq_zero fourth, Nat.succ_div_of_mod_ne_zero century,
        Nat.succ_div_of_mod_ne_zero other]
      omega
  · have rule : isLeap (past + 1) = false := by simp [isLeap, fourth]
    have second : (past + 1) % 100 ≠ 0 := by omega
    have third : (past + 1) % 400 ≠ 0 := by omega
    rw [rule, common, Nat.succ_div_of_mod_ne_zero fourth, Nat.succ_div_of_mod_ne_zero second,
      Nat.succ_div_of_mod_ne_zero third]
    omega

theorem daysBeforeYear_mono {year later : Nat} (h : 1 ≤ year) (hl : year ≤ later) :
    daysBeforeYear year ≤ daysBeforeYear later := by
  obtain ⟨between, rfl⟩ := Nat.exists_eq_add_of_le hl
  induction between with
  | zero => exact Nat.le_refl _
  | succ between ih =>
    have grown := daysBeforeYear_succ (Nat.le_trans h (Nat.le_add_right year between))
    have before := ih (by omega)
    rw [← Nat.add_assoc]
    omega

namespace Date.InCalendar

variable {d e : Date}

theorem ordinal_bounds (h : d.InCalendar) :
    daysBeforeYear d.year < d.ordinal ∧ d.ordinal ≤ daysBeforeYear (d.year + 1) := by
  have within : daysBeforeMonth (isLeap d.year) d.month + monthLength (isLeap d.year) d.month ≤
      daysBeforeMonth (isLeap d.year) 13 :=
    daysBeforeMonth_le _ h.month.1 (Nat.lt_succ_of_le h.month.2)
  have some := h.day
  rw [daysBeforeYear_succ h.year.1, ordinal]
  omega

theorem ordinal_range (h : d.InCalendar) : 1 ≤ d.ordinal ∧ d.ordinal ≤ lastOrdinal := by
  have bounds := h.ordinal_bounds
  have last : daysBeforeYear (d.year + 1) ≤ lastOrdinal :=
    daysBeforeYear_mono (by omega) (Nat.succ_le_succ h.year.2)
  omega

theorem ordinal_lt_of_year (hd : d.InCalendar) (he : e.InCalendar) (h : d.year < e.year) :
    d.ordinal < e.ordinal :=
  calc d.ordinal ≤ daysBeforeYear (d.year + 1) := hd.ordinal_bounds.2
    _ ≤ daysBeforeYear e.year := daysBeforeYear_mono (by omega) h
    _ < e.ordinal := he.ordinal_bounds.1

theorem ordinal_lt_of_month (hd : d.InCalendar) (he : e.InCalendar) (same : d.year = e.year)
    (h : d.month < e.month) : d.ordinal < e.ordinal := by
  have within := daysBeforeMonth_le (isLeap d.year) hd.month.1 h
  have first := hd.day
  have second := he.day
  rw [ordinal, ordinal, ← same]
  omega

theorem ordinal_lt_of_day (sameYear : d.year = e.year) (sameMonth : d.month = e.month)
    (h : d.day < e.day) : d.ordinal < e.ordinal := by
  rw [ordinal, ordinal, sameYear, sameMonth]
  omega

end Date.InCalendar

/-- A year has 146097 four hundredths of a day, up to two days. -/
theorem daysBeforeYear_estimate {year : Nat} (h : 1 ≤ year) :
    146097 * year ≤ 400 * daysBeforeYear year + 146796 ∧
      400 * daysBeforeYear year + 145701 ≤ 146097 * year := by
  rw [daysBeforeYear]
  omega

theorem yearOfOrdinal_bounds {ordinal : Nat} (h : 1 ≤ ordinal) :
    1 ≤ yearOfOrdinal ordinal ∧ daysBeforeYear (yearOfOrdinal ordinal) < ordinal ∧
      ordinal ≤ daysBeforeYear (yearOfOrdinal ordinal + 1) := by
  simp only [yearOfOrdinal]
  generalize estimated : ordinal * 400 / 146097 = past
  split_ifs with early late
  · have some : past ≠ 0 := by
      rintro rfl
      have none : daysBeforeYear (0 + 1) = 0 := rfl
      omega
    have fewer := daysBeforeYear_estimate (Nat.pos_of_ne_zero some)
    rw [Nat.add_sub_cancel]
    exact ⟨by omega, by omega, early⟩
  · have more := daysBeforeYear_estimate (Nat.le_add_left 1 (past + 1 + 1))
    exact ⟨by omega, late, by omega⟩
  · exact ⟨by omega, by omega, by omega⟩

/-- The day of a year is found in the month that has it. -/
theorem splitMonth_bounds {leap : Bool} {rest month day : Nat} {found : Nat × Nat}
    (h : splitMonth leap rest month day = found) (hm : 1 ≤ month) (hr : month + rest = 12) (hd : 1 ≤ day)
    (hl : daysBeforeMonth leap month + day ≤ daysBeforeMonth leap 13) :
    (1 ≤ found.1 ∧ found.1 ≤ 12) ∧ (1 ≤ found.2 ∧ found.2 ≤ monthLength leap found.1) ∧
      daysBeforeMonth leap found.1 + found.2 = daysBeforeMonth leap month + day := by
  have next := daysBeforeMonth_succ leap hm
  induction rest generalizing month day with
  | zero =>
    obtain rfl : month = 12 := hr
    subst h
    have inside := Nat.add_le_add_iff_left.1 (Nat.le_trans hl (Nat.le_of_eq next))
    exact ⟨⟨hm, Nat.le_refl 12⟩, ⟨hd, inside⟩, rfl⟩
  | succ rest ih =>
    rw [splitMonth] at h
    split_ifs at h with inside
    · subst h
      exact ⟨⟨hm, by omega⟩, ⟨hd, inside⟩, rfl⟩
    · have later := daysBeforeMonth_succ leap (Nat.le_add_left 1 month)
      obtain ⟨months, days, same⟩ := ih h (by omega) (by omega) (by omega) (by omega) later
      exact ⟨months, days, by omega⟩

theorem dateOfOrdinal_inCalendar {ordinal : Nat} (h : 1 ≤ ordinal) (hl : ordinal ≤ lastOrdinal) :
    (dateOfOrdinal ordinal).InCalendar ∧ (dateOfOrdinal ordinal).ordinal = ordinal := by
  obtain ⟨first, after, upTo⟩ := yearOfOrdinal_bounds h
  have within : yearOfOrdinal ordinal ≤ 9999 := by
    refine Nat.le_of_not_lt fun beyond => ?_
    have last : lastOrdinal ≤ daysBeforeYear (yearOfOrdinal ordinal) :=
      daysBeforeYear_mono (by decide) beyond
    omega
  rw [daysBeforeYear_succ first] at upTo
  have none : daysBeforeMonth (isLeap (yearOfOrdinal ordinal)) 1 = 0 := rfl
  obtain ⟨months, days, same⟩ :=
    splitMonth_bounds (rfl : splitMonth (isLeap (yearOfOrdinal ordinal)) 11 1
      (ordinal - daysBeforeYear (yearOfOrdinal ordinal)) = _) (Nat.le_refl 1) rfl
      (Nat.sub_pos_of_lt after) (by omega)
  refine ⟨⟨⟨first, within⟩, months, days⟩, ?_⟩
  rw [Date.ordinal, Nat.add_assoc]
  calc daysBeforeYear (yearOfOrdinal ordinal) + _
      = daysBeforeYear (yearOfOrdinal ordinal) + (0 + (ordinal - daysBeforeYear (yearOfOrdinal ordinal))) :=
        congrArg _ same
    _ = ordinal := by omega

end SqlComposition.Calendar
