import Keyring.Time.Date

/-!
# The calendar inverts

A day is found again from its date, and every date that is found is one that the calendar has. Both
follow from where a day stands in the cycle of 400 years (`Place`): the cycle has four centuries, a
century 25 leap periods and a leap period four years, of which the last one is a day longer, except in
the last period of each century but the fourth.

* `toDays_ofDays` and `isValid_ofDays` are the results.
-/

namespace Keyring.Date

/-! ## Places in the cycle -/

/-- A day of the cycle, with all its parts counted from zero. -/
structure Place where
  century : Nat
  period : Nat
  year : Nat
  day : Nat
  century_le : century ≤ 3
  period_le : period ≤ 24
  year_le : year ≤ 3
  day_le : day ≤ 365
  leap : day = 365 → year = 3 ∧ (period = 24 → century = 3)

namespace Place

/-- The number of the day in the cycle. -/
def dayOfCycle (p : Place) : Nat := 36524 * p.century + 1461 * p.period + 365 * p.year + p.day

def yearOfCycle (p : Place) : Nat := 100 * p.century + 4 * p.period + p.year

theorem exists_dayOfCycle {n : Nat} (h : n < 146097) : ∃ p : Place, p.dayOfCycle = n := by
  -- the last part of each kind is a day longer, so the quotients may overshoot by one
  have century : n - 36524 * min (n / 36524) 3 ≤ 36524 := by omega
  generalize hr : n - 36524 * min (n / 36524) 3 = r at century
  have period : r - 1461 * (r / 1461) ≤ 1460 := by omega
  generalize hs : r - 1461 * (r / 1461) = s at period
  refine ⟨⟨min (n / 36524) 3, r / 1461, min (s / 365) 3, s - 365 * min (s / 365) 3, ?_, ?_, ?_, ?_,
    ?_⟩, ?_⟩
  · omega
  · omega
  · omega
  · omega
  · omega
  · simp only [dayOfCycle]
    omega

theorem yearOfDay_dayOfCycle (p : Place) : yearOfDay p.dayOfCycle = p.yearOfCycle := by
  obtain ⟨c, q, y, d, hc, hq, hy, hd, leap⟩ := p
  simp only [dayOfCycle, yearOfCycle, yearOfDay]
  -- only the very last day of the cycle runs over its century
  have within : 1461 * q + 365 * y + d < 36524 ∨ 1461 * q + 365 * y + d = 36524 ∧ c = 3 := by omega
  generalize hn : 36524 * c + 1461 * q + 365 * y + d = n
  have centuries : n / 36524 = c + n / 146096 := by
    rcases within with lt | ⟨eq, rfl⟩
    · have inside : n / 36524 = c := by omega
      have before : n / 146096 = 0 := by omega
      omega
    · have last : n = 146096 := by omega
      rw [last]
  have periods : 25 * c + q ≤ n / 1460 := by omega
  rcases Nat.lt_or_ge d 365 with hlt | hge
  · have periods' : n / 1460 ≤ 25 * c + q + 1 := by omega
    have first : d = 0 → n / 1460 = 25 * c + q := by omega
    omega
  · have last : n / 1460 = 25 * c + q + 1 := by omega
    omega

theorem daysBeforeYear_yearOfCycle (p : Place) :
    daysBeforeYear p.yearOfCycle + p.day = p.dayOfCycle := by
  obtain ⟨c, q, y, d, hc, hq, hy, hd, leap⟩ := p
  simp only [dayOfCycle, yearOfCycle, daysBeforeYear]
  omega

theorem yearOfCycle_lt (p : Place) : p.yearOfCycle < 400 := by
  have century := p.century_le
  have period := p.period_le
  have year := p.year_le
  simp only [yearOfCycle]
  omega

theorem dayOfCycle_lt (p : Place) : p.dayOfCycle < 146097 := by
  obtain ⟨c, q, y, d, hc, hq, hy, hd, leap⟩ := p
  simp only [dayOfCycle]
  omega

/-! ## Months -/

/-- The month that holds the day; the year begins in March. -/
def month (p : Place) : Nat := (5 * p.day + 2) / 153

theorem month_lt (p : Place) : p.month < 12 := by
  have day := p.day_le
  simp only [month]
  omega

theorem daysBeforeMonth_le (p : Place) : daysBeforeMonth p.month ≤ p.day := by
  simp only [month, daysBeforeMonth]
  omega

theorem lt_daysBeforeMonth_succ (p : Place) : p.day < daysBeforeMonth (p.month + 1) := by
  simp only [month, daysBeforeMonth]
  omega

/-- The month by the calendar. -/
def civilMonth (p : Place) : Nat := if p.month < 10 then p.month + 3 else p.month - 9

/-- The year by the calendar, `cycle` cycles behind the year zero. -/
def civilYear (cycle : Int) (p : Place) : Int :=
  if p.civilMonth ≤ 2 then cycle * 400 + p.yearOfCycle + 1 else cycle * 400 + p.yearOfCycle

def date (cycle : Int) (p : Place) : Date :=
  ⟨p.civilYear cycle, p.civilMonth, p.day - daysBeforeMonth p.month + 1⟩

theorem civilMonth_bounds (p : Place) : 1 ≤ p.civilMonth ∧ p.civilMonth ≤ 12 := by
  have month := p.month_lt
  unfold civilMonth
  split <;> omega

theorem civilMonth_mod (p : Place) : (p.civilMonth + 9) % 12 = p.month := by
  have month := p.month_lt
  unfold civilMonth
  split <;> omega

/-- The year that began in March. -/
theorem year_date (cycle : Int) (p : Place) :
    (if (p.date cycle).month ≤ 2 then (p.date cycle).year - 1 else (p.date cycle).year) =
      cycle * 400 + p.yearOfCycle := by
  simp only [date, civilYear]
  split <;> omega

/-- The leap day comes in the years that the calendar calls leap years. -/
theorem isLeapYear_civilYear (cycle : Int) {p : Place} (h : p.day = 365) :
    isLeapYear (p.civilYear cycle) = true := by
  have leap := p.leap h
  have february : p.civilMonth = 2 := by
    simp [civilMonth, month, h]
  have century := p.century_le
  have period := p.period_le
  simp only [isLeapYear, civilYear, february, Nat.le_refl, if_true, yearOfCycle, Bool.and_eq_true,
    Bool.or_eq_true, beq_iff_eq, bne_iff_ne, ne_eq]
  omega

/-- A month is as long as the time to the next one, apart from the last one of a year. -/
theorem day_le_monthLength (cycle : Int) (p : Place) :
    p.day - daysBeforeMonth p.month + 1 ≤ monthLength (p.civilYear cycle) p.civilMonth := by
  have day := p.day_le
  have next := p.lt_daysBeforeMonth_succ
  have civil := p.civilMonth_bounds
  have month := p.civilMonth_mod
  unfold daysBeforeMonth at *
  unfold monthLength
  split
  · split
    · omega
    · rename_i common
      have short : p.day ≠ 365 := fun h => common (isLeapYear_civilYear cycle h)
      omega
  · split <;> omega

end Place

/-! ## Dates -/

theorem exists_place (days : Int) :
    ∃ (cycle : Int) (p : Place), days + 719468 = cycle * 146097 + p.dayOfCycle := by
  obtain ⟨p, hp⟩ := Place.exists_dayOfCycle (n := ((days + 719468) % 146097).toNat) (by omega)
  exact ⟨(days + 719468) / 146097, p, by omega⟩

theorem ofDays_eq {days cycle : Int} {p : Place}
    (h : days + 719468 = cycle * 146097 + p.dayOfCycle) : ofDays days = p.date cycle := by
  have bound := p.dayOfCycle_lt
  have sum := p.daysBeforeYear_yearOfCycle
  have cycles : (days + 719468) / 146097 = cycle := by omega
  have dayOfCycle : ((days + 719468) % 146097).toNat = p.dayOfCycle := by omega
  have day : p.dayOfCycle - daysBeforeYear p.yearOfCycle = p.day := by omega
  simp only [ofDays, cycles, dayOfCycle, p.yearOfDay_dayOfCycle, day]
  rfl

theorem toDays_date (cycle : Int) (p : Place) :
    (p.date cycle).toDays + 719468 = cycle * 146097 + p.dayOfCycle := by
  have year := p.yearOfCycle_lt
  have before := p.daysBeforeMonth_le
  have sum := p.daysBeforeYear_yearOfCycle
  have cycles : (cycle * 400 + p.yearOfCycle) / 400 = cycle := by omega
  have yearOfCycle : ((cycle * 400 + p.yearOfCycle) % 400).toNat = p.yearOfCycle := by omega
  have month : ((p.date cycle).month + 9) % 12 = p.month := p.civilMonth_mod
  have day : (p.date cycle).day = p.day - daysBeforeMonth p.month + 1 := rfl
  simp only [toDays, p.year_date, month, cycles, yearOfCycle, day]
  omega

theorem toDays_ofDays (days : Int) : (ofDays days).toDays = days := by
  obtain ⟨cycle, p, h⟩ := exists_place days
  have back := toDays_date cycle p
  rw [ofDays_eq h]
  omega

theorem isValid_ofDays (days : Int) : (ofDays days).isValid = true := by
  obtain ⟨cycle, p, h⟩ := exists_place days
  have civil := p.civilMonth_bounds
  have last := p.day_le_monthLength cycle
  rw [ofDays_eq h]
  simp [isValid, Place.date, civil, last]

theorem le_of_isValid {d : Date} (h : d.isValid = true) : d.month ≤ 12 ∧ d.day ≤ 31 := by
  simp only [isValid, Bool.and_eq_true, decide_eq_true_eq] at h
  obtain ⟨⟨⟨-, month⟩, -⟩, day⟩ := h
  refine ⟨month, Nat.le_trans day ?_⟩
  unfold monthLength
  repeat' split
  all_goals decide

end Keyring.Date
