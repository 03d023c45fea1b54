/-
**Dates as days.**

Four hundred years make a cycle: four centuries of twenty-four or twenty-five leap cycles of four
years each, where only the last year of a leap cycle, and of a century only the last century's, has
a leap day at its end.  A date and its number of days name the same day of a cycle.

Main definitions:

* `SqlAccess.Date.Proper`, `SqlAccess.Date.Valid` — dates that the calendar has, and those with a
  year in range;
* `SqlAccess.Date.CycleDay` — a day of a cycle by century, leap cycle, year and day;
* `SqlAccess.Timestamp.Valid` — a time of a valid date.

Main results:

* `SqlAccess.Date.CycleDay.yearOfEra_eq`, `SqlAccess.Date.exists_cycleDay` — the year of a cycle is
  found from the number of days, and every day has one;
* `SqlAccess.Date.ofDays_toDays`, `SqlAccess.Date.toDays_ofDays` — **dates and numbers of days are
  the same**;
* `SqlAccess.Timestamp.ofMicros?_toMicros`, `SqlAccess.Timestamp.toMicros_of_ofMicros?` — so are
  timestamps in whole microseconds and their numbers.
-/

import Mathlib.Logic.Basic
import Mathlib.Tactic.IntervalCases
import Mathlib.Tactic.SplitIfs
import SqlAccess.Time.Timestamp

set_option autoImplicit false

namespace SqlAccess

namespace Date

/-! ### The calendar -/

/-- Every fourth year is a leap year, and of the full centuries every fourth. -/
def IsLeap (year : Int) : Prop := year % 4 = 0 ∧ (year % 100 ≠ 0 ∨ year % 400 = 0)

instance (year : Int) : Decidable (IsLeap year) := inferInstanceAs (Decidable (_ ∧ _))

/-- The number of days of a month. -/
def monthLength (year : Int) (month : Nat) : Nat :=
  if month = 2 then if IsLeap year then 29 else 28
  else if month = 4 ∨ month = 6 ∨ month = 9 ∨ month = 11 then 30
  else 31

/-- A date that the calendar has. -/
structure Proper (d : Date) : Prop where
  month_pos : 1 ≤ d.month
  month_le : d.month ≤ 12
  day_pos : 1 ≤ d.day
  day_le : d.day ≤ monthLength d.year d.month

/-- A date that the calendar has, in a year in range. -/
structure Valid (d : Date) : Prop extends d.Proper where
  inRange : d.inRange = true

/-! ### Cycles -/

/-- A day of a cycle of four hundred years, by century, leap cycle, year and day of the year. -/
structure CycleDay (century quad year day : Int) : Prop where
  century_nonneg : 0 ≤ century
  century_le : century ≤ 3
  quad_nonneg : 0 ≤ quad
  quad_le : quad ≤ 24
  year_nonneg : 0 ≤ year
  year_le : year ≤ 3
  day_nonneg : 0 ≤ day
  /-- The leap day is missing at the end of a century, except the last. -/
  day_le : day ≤ 364 ∨ day = 365 ∧ year = 3 ∧ (quad ≤ 23 ∨ century = 3)

/-- The number of a day in its cycle. -/
def dayOfEra (century quad year day : Int) : Int :=
  36524 * century + 1461 * quad + 365 * year + day

variable {century quad year day : Int}

theorem CycleDay.dayOfEra_nonneg (h : CycleDay century quad year day) :
    0 ≤ dayOfEra century quad year day := by
  obtain ⟨hc, -, hq, -, hy, -, hd, -⟩ := h
  unfold dayOfEra
  omega

theorem CycleDay.dayOfEra_lt (h : CycleDay century quad year day) :
    dayOfEra century quad year day < 146097 := by
  obtain ⟨-, hc, -, hq, -, hy, -, hd⟩ := h
  unfold dayOfEra
  omega

/-- **The year of a cycle** as it is computed from the number of a day. -/
theorem CycleDay.yearOfEra_eq (h : CycleDay century quad year day) {n : Int}
    (hn : n = dayOfEra century quad year day) :
    (n - n / 1460 + n / 36524 - n / 146096) / 365 = 100 * century + 4 * quad + year := by
  obtain ⟨hc, hc', hq, hq', hy, hy', hd, hd'⟩ := h
  unfold dayOfEra at hn
  -- the very last day would count a century too many
  have hcentury : n / 36524 - n / 146096 = century := by
    by_cases hlast : n = 146096
    · omega
    · have hzero : n / 146096 = 0 := by omega
      have hcentury : n / 36524 = century := by omega
      omega
  have hleap : n / 1460 =
      25 * century + quad + (24 * century + quad + 365 * year + day) / 1460 := by omega
  have hle : day - (24 * century + quad + 365 * year + day) / 1460 ≤ 364 := by omega
  have hnonneg : 0 ≤ day - (24 * century + quad + 365 * year + day) / 1460 := by omega
  omega

/-- **Every day of a cycle** has its century, leap cycle, year and day. -/
theorem exists_cycleDay {n : Int} (hnonneg : 0 ≤ n) (hlt : n < 146097) :
    ∃ century quad year day,
      CycleDay century quad year day ∧ n = dayOfEra century quad year day := by
  obtain ⟨c, rest, rfl, hc, hc', hrest, hrest'⟩ : ∃ c rest : Int, n = 36524 * c + rest ∧
      0 ≤ c ∧ c ≤ 3 ∧ 0 ≤ rest ∧ (rest ≤ 36523 ∨ rest = 36524 ∧ c = 3) := by
    refine ⟨min 3 (n / 36524), n - 36524 * min 3 (n / 36524), ?_⟩
    omega
  obtain ⟨y, d, hyd, hy, hy', hd, hd'⟩ : ∃ y d : Int, rest % 1461 = 365 * y + d ∧
      0 ≤ y ∧ y ≤ 3 ∧ 0 ≤ d ∧ (d ≤ 364 ∨ d = 365 ∧ y = 3) := by
    refine ⟨min 3 (rest % 1461 / 365), rest % 1461 - 365 * min 3 (rest % 1461 / 365), ?_⟩
    omega
  refine ⟨c, rest / 1461, y, d, ⟨hc, hc', by omega, by omega, hy, hy', hd, by omega⟩, ?_⟩
  unfold dayOfEra
  omega

/-! ### Months -/

/-- The length of a month that is counted from March, in the longest year. -/
def marchLength (month : Int) : Int := if month = 11 then 29 else
  (153 * (month + 1) + 2) / 5 - (153 * month + 2) / 5

/-- The month that is found from the day of the year. -/
theorem month_eq {month day : Int} (hd : 1 ≤ day) (hd' : day ≤ marchLength month) :
    (5 * ((153 * month + 2) / 5 + day - 1) + 2) / 153 = month := by
  unfold marchLength at hd'
  split at hd' <;> omega

/-- The month and its day that are found from the day of the year. -/
theorem day_le_marchLength {dayOfYear : Int} (h : 0 ≤ dayOfYear) (h' : dayOfYear ≤ 365) :
    let month := (5 * dayOfYear + 2) / 153
    let day := dayOfYear - (153 * month + 2) / 5 + 1
    0 ≤ month ∧ month ≤ 11 ∧ 1 ≤ day ∧ day ≤ marchLength month := by
  intro month day
  unfold marchLength
  split <;> omega

/-! ### Years from March -/

/-- The year of a date, if it begins in March. -/
def marchYear (d : Date) : Int := if d.month ≤ 2 then d.year - 1 else d.year

/-- The month of a date, counted from March. -/
def marchMonth (d : Date) : Int := if d.month ≤ 2 then d.month + 9 else d.month - 3

/-- The day of a year that begins in March. -/
def marchDay (d : Date) : Int := (153 * d.marchMonth + 2) / 5 + d.day - 1

/-- The date of a day of a year that begins in March. -/
def ofMarch (year day : Int) : Date :=
  let month := (5 * day + 2) / 153
  let calendarMonth := if month < 10 then month + 3 else month - 9
  ⟨year + (if calendarMonth ≤ 2 then 1 else 0), calendarMonth.toNat,
    (day - (153 * month + 2) / 5 + 1).toNat⟩

theorem Proper.day_le_marchLength {d : Date} (h : d.Proper) : d.day ≤ marchLength d.marchMonth := by
  obtain ⟨hm, hm', -, hd⟩ := h
  obtain ⟨year, month, day⟩ := d
  unfold monthLength at hd
  unfold marchLength marchMonth
  dsimp only at hm hm' hd ⊢
  interval_cases month <;> split_ifs at hd ⊢ <;> omega

theorem ofMarch_march {d : Date} (h : d.Proper) : ofMarch d.marchYear d.marchDay = d := by
  have hmonth : (5 * d.marchDay + 2) / 153 = d.marchMonth :=
    month_eq (by exact_mod_cast h.day_pos) h.day_le_marchLength
  have hday : d.marchDay - (153 * d.marchMonth + 2) / 5 + 1 = d.day := by
    unfold marchDay
    omega
  obtain ⟨hm, hm', -, -⟩ := h
  obtain ⟨year, month, day⟩ := d
  simp only [ofMarch, hmonth, hday, Date.mk.injEq, Int.toNat_natCast, and_true]
  unfold marchYear marchMonth
  dsimp only at hm hm' ⊢
  split_ifs <;> omega

theorem march_ofMarch {day : Int} (year : Int) (h : 0 ≤ day) (h' : day ≤ 365) :
    (ofMarch year day).marchYear = year ∧ (ofMarch year day).marchDay = day := by
  obtain ⟨hm, hm', hd, -⟩ := day_le_marchLength h h'
  generalize hmonth : (5 * day + 2) / 153 = month at hm hm' hd
  simp only [marchYear, marchDay, marchMonth, ofMarch, hmonth]
  split_ifs <;> omega

/-- Every proper date has its place in a cycle. -/
theorem Proper.cycleDay {d : Date} (h : d.Proper) :
    CycleDay (d.marchYear % 400 / 100) (d.marchYear % 100 / 4) (d.marchYear % 4) d.marchDay := by
  refine ⟨by omega, by omega, by omega, by omega, by omega, by omega, ?_, ?_⟩
  · have := h.day_le_marchLength
    have hd := h.day_pos
    unfold marchDay marchMonth
    have := h.month_pos
    split_ifs <;> omega
  · by_cases hleap : d.month = 2 ∧ d.day = 29
    · obtain ⟨hm, hd⟩ := hleap
      have hyear : IsLeap d.year := by
        by_contra hyear
        have := h.day_le
        simp [monthLength, hm, hd, hyear] at this
      obtain ⟨hfour, hcentury⟩ := hyear
      simp only [marchDay, marchYear, marchMonth, hm, hd]
      omega
    · have hle := h.day_le_marchLength
      have hfeb : d.month = 2 → d.day ≤ 28 := by
        intro hm
        have hd := h.day_le
        rw [hm] at hd
        unfold monthLength at hd
        split_ifs at hd <;> omega
      left
      have hm := h.month_le
      revert hle
      unfold marchLength marchDay marchMonth
      split_ifs <;> omega

/-! ### Days -/

theorem toDays_eq (d : Date) :
    d.toDays = d.marchYear / 400 * 146097 +
      dayOfEra (d.marchYear % 400 / 100) (d.marchYear % 100 / 4) (d.marchYear % 4) d.marchDay -
        epochDay := by
  simp only [toDays, Int.fdiv_eq_ediv_of_nonneg _ (show (0 : Int) ≤ 400 by decide),
    Int.fdiv_eq_ediv_of_nonneg _ (show (0 : Int) ≤ 5 by decide),
    Int.fdiv_eq_ediv_of_nonneg _ (show (0 : Int) ≤ 4 by decide),
    Int.fdiv_eq_ediv_of_nonneg _ (show (0 : Int) ≤ 100 by decide)]
  change _ + marchDay d - epochDay = _
  rw [show (if d.month ≤ 2 then d.year - 1 else d.year) = d.marchYear from rfl]
  unfold dayOfEra
  omega

theorem ofDays_eq (era : Int) (h : CycleDay century quad year day) :
    ofDays (era * 146097 + dayOfEra century quad year day - epochDay) =
      ofMarch (era * 400 + (100 * century + 4 * quad + year)) day := by
  have hnonneg := h.dayOfEra_nonneg
  have hlt := h.dayOfEra_lt
  have hyear := h.yearOfEra_eq rfl
  generalize hn : dayOfEra century quad year day = n at hnonneg hlt hyear
  have hera : (era * 146097 + n - epochDay + epochDay) / 146097 = era := by omega
  have hrest : era * 146097 + n - epochDay + epochDay - era * 146097 = n := by omega
  simp only [ofDays, Int.fdiv_eq_ediv_of_nonneg _ (show (0 : Int) ≤ 146097 by decide),
    Int.fdiv_eq_ediv_of_nonneg _ (show (0 : Int) ≤ 1460 by decide),
    Int.fdiv_eq_ediv_of_nonneg _ (show (0 : Int) ≤ 36524 by decide),
    Int.fdiv_eq_ediv_of_nonneg _ (show (0 : Int) ≤ 146096 by decide),
    Int.fdiv_eq_ediv_of_nonneg _ (show (0 : Int) ≤ 365 by decide),
    Int.fdiv_eq_ediv_of_nonneg _ (show (0 : Int) ≤ 4 by decide),
    Int.fdiv_eq_ediv_of_nonneg _ (show (0 : Int) ≤ 100 by decide),
    Int.fdiv_eq_ediv_of_nonneg _ (show (0 : Int) ≤ 153 by decide),
    Int.fdiv_eq_ediv_of_nonneg _ (show (0 : Int) ≤ 5 by decide), hera, hrest, hyear]
  have hday : n - (365 * (100 * century + 4 * quad + year) +
      (100 * century + 4 * quad + year) / 4 - (100 * century + 4 * quad + year) / 100) = day := by
    obtain ⟨hc, hc', hq, hq', hy, hy', -, -⟩ := h
    have hfour : (100 * century + 4 * quad + year) / 4 = 25 * century + quad := by omega
    have hhundred : (100 * century + 4 * quad + year) / 100 = century := by omega
    rw [hfour, hhundred, ← hn, dayOfEra]
    omega
  rw [hday, Int.add_comm (era * 400)]
  rfl

/-- **A date is found from its number of days.** -/
theorem ofDays_toDays {d : Date} (h : d.Proper) : ofDays d.toDays = d := by
  rw [toDays_eq, ofDays_eq _ h.cycleDay]
  have hyear : d.marchYear / 400 * 400 + (100 * (d.marchYear % 400 / 100) +
      4 * (d.marchYear % 100 / 4) + d.marchYear % 4) = d.marchYear := by omega
  rw [hyear, ofMarch_march h]

/-- **A number of days is that of its date.** -/
theorem toDays_ofDays (n : Int) : (ofDays n).toDays = n := by
  obtain ⟨century, quad, year, day, hcycle, hday⟩ :=
    exists_cycleDay (Int.emod_nonneg (n + epochDay) (by decide))
      (Int.emod_lt_of_pos (n + epochDay) (by decide))
  have hn : n = (n + epochDay) / 146097 * 146097 + dayOfEra century quad year day - epochDay := by
    omega
  have hle : day ≤ 365 := by
    have := hcycle.day_le
    omega
  obtain ⟨hyear, hmarch⟩ := march_ofMarch
    ((n + epochDay) / 146097 * 400 + (100 * century + 4 * quad + year)) hcycle.day_nonneg hle
  rw [toDays_eq, hn, ofDays_eq _ hcycle, hyear, hmarch]
  obtain ⟨hc, hc', hq, hq', hy, hy', -, -⟩ := hcycle
  unfold dayOfEra
  omega

/-- A year in range has few enough days. -/
theorem Valid.toDays_bounds {d : Date} (h : d.Valid) :
    -97000000 ≤ d.toDays ∧ d.toDays ≤ 97000000 := by
  have hcycle := h.toProper.cycleDay
  have hnonneg := hcycle.dayOfEra_nonneg
  have hlt := hcycle.dayOfEra_lt
  have hyear : -262144 ≤ d.marchYear ∧ d.marchYear ≤ 262142 := by
    have hrange := h.inRange
    simp only [Date.inRange, Bool.and_eq_true, decide_eq_true_eq] at hrange
    unfold yearRange at hrange
    unfold marchYear
    split_ifs <;> omega
  rw [toDays_eq]
  unfold epochDay
  omega

end Date

namespace Timestamp

/-- A time of a valid date; in a leap second the nanoseconds go on. -/
structure Valid (t : Timestamp) : Prop where
  date : t.date.Valid
  hour_lt : t.hour < 24
  minute_lt : t.minute < 60
  second_lt : t.second < 60
  nanos_lt : t.nanos < 2000000000

/-! ### Microseconds -/

/-- **A number of microseconds is that of its timestamp.** -/
theorem toMicros_of_ofMicros? {micros : Int} {t : Timestamp} (h : ofMicros? micros = some t) :
    t.toMicros = micros := by
  simp only [ofMicros?, Int.fdiv_eq_ediv_of_nonneg _ (show (0 : Int) ≤ 86400000000 by decide)] at h
  split_ifs at h
  obtain rfl := Option.some.inj h
  have hnanos : ∀ days rest : Int, 0 ≤ rest → micros = days * 86400000000 + rest →
      (days * 86400 + (rest.toNat / 3600000000 : Nat) * 3600 +
        (rest.toNat / 60000000 % 60 : Nat) * 60 + (rest.toNat / 1000000 % 60 : Nat)) * 1000000000 +
          (rest.toNat % 1000000 * 1000 : Nat) = micros * 1000 := by
    intro days rest hrest hmicros
    omega
  rw [toMicros, toNanos, Date.toDays_ofDays, hnanos _ _ (by omega) (by omega)]
  exact Int.mul_tdiv_cancel _ (by decide)

/-- The number of microseconds of a timestamp that has whole ones. -/
theorem toMicros_eq {t : Timestamp} {k : Nat} (hk : t.nanos = 1000 * k) :
    t.toMicros = t.date.toDays * 86400000000 + t.hour * 3600000000 + t.minute * 60000000 +
      t.second * 1000000 + k := by
  have hnanos : t.toNanos = (t.date.toDays * 86400000000 + t.hour * 3600000000 +
      t.minute * 60000000 + t.second * 1000000 + k) * 1000 := by
    unfold toNanos
    omega
  rw [toMicros, hnanos]
  exact Int.mul_tdiv_cancel _ (by decide)

/-- **A timestamp in whole microseconds is found from their number.** -/
theorem ofMicros?_toMicros {t : Timestamp} (h : t.Valid) (hwhole : t.nanos % 1000 = 0)
    (hleap : t.nanos < 1000000000) : ofMicros? t.toMicros = some t := by
  obtain ⟨k, hk⟩ : ∃ k, t.nanos = 1000 * k := ⟨t.nanos / 1000, by omega⟩
  have hmicros := toMicros_eq hk
  obtain ⟨hdate, hhour, hminute, hsecond, -⟩ := h
  obtain ⟨date, hour, minute, second, nanos⟩ := t
  dsimp only at *
  have hdays : (date.toDays * 86400000000 + hour * 3600000000 + minute * 60000000 +
      second * 1000000 + k) / 86400000000 = date.toDays := by omega
  simp only [ofMicros?, hmicros,
    Int.fdiv_eq_ediv_of_nonneg _ (show (0 : Int) ≤ 86400000000 by decide)]
  rw [hdays, Date.ofDays_toDays hdate.toProper, if_pos hdate.inRange]
  have hrest : (date.toDays * 86400000000 + hour * 3600000000 + minute * 60000000 +
      second * 1000000 + k - date.toDays * 86400000000).toNat =
      hour * 3600000000 + minute * 60000000 + second * 1000000 + k := by omega
  rw [hrest]
  simp only [Option.some.injEq, Timestamp.mk.injEq, true_and]
  omega

theorem Valid.toMicros_bounds {t : Timestamp} (h : t.Valid) :
    -9000000000000000000 ≤ t.toMicros ∧ t.toMicros ≤ 9000000000000000000 := by
  obtain ⟨hlow, hhigh⟩ := h.date.toDays_bounds
  obtain ⟨-, hhour, hminute, hsecond, hnanos⟩ := h
  have : -9000000000000000000000 ≤ t.toNanos ∧ t.toNanos ≤ 9000000000000000000000 := by
    unfold toNanos
    omega
  have hdiv : (t.toNanos.tdiv 1000).natAbs = t.toNanos.natAbs / 1000 := Int.natAbs_tdiv _ _
  unfold toMicros
  omega

end Timestamp

end SqlAccess
