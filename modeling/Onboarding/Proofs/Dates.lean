import Mathlib.Tactic.IntervalCases
import Onboarding.Instant.Calendar

namespace Onboarding

namespace Date

def daysBefore (year : Int) : Int := 365 * year + year / 4 - year / 100 + year / 400

def ofMarch (year day : Int) : Date :=
  let month := (5 * day + 2) / 153
  let civilMonth := if month < 10 then month + 3 else month - 9
  { year := year + (if civilMonth ≤ 2 then 1 else 0)
    month := civilMonth.toNat
    day := (day - (153 * month + 2) / 5 + 1).toNat }

structure LiesIn (dayOfEra century cycle year day : Int) : Prop where
  -- A year of 366 days is the last one of its cycle of four, and this is not the last one of its
  -- century, unless that is the last of the era's four.
  century_nonneg : 0 ≤ century
  century_le : century ≤ 3
  cycle_nonneg : 0 ≤ cycle
  cycle_le : cycle ≤ 24
  year_nonneg : 0 ≤ year
  year_le : year ≤ 3
  day_nonneg : 0 ≤ day
  day_le : day ≤ 365
  year_eq : day = 365 → year = 3
  century_eq : day = 365 → cycle = 24 → century = 3
  eq : dayOfEra = 36524 * century + 1461 * cycle + 365 * year + day

/-- Every day of an era has its century, its cycle of four years, its year and its place in that. -/
theorem exists_liesIn {dayOfEra : Int} (h0 : 0 ≤ dayOfEra) (h : dayOfEra < 146097) :
    ∃ century cycle year day, LiesIn dayOfEra century cycle year day := by
  obtain ⟨century, rest, hcentury, hcentury', hrest, hrest', hfirst, hlast⟩ :
      ∃ century rest, 0 ≤ century ∧ century ≤ 3 ∧ 0 ≤ rest ∧ rest ≤ 36524 ∧
        dayOfEra = 36524 * century + rest ∧ (rest = 36524 → century = 3) := by
    refine ⟨min (dayOfEra / 36524) 3, dayOfEra - 36524 * min (dayOfEra / 36524) 3, ?_⟩
    omega
  let cycle := rest / 1461
  obtain ⟨year, day, hyear, hyear', hday, hday', hsecond, hend⟩ :
      ∃ year day, 0 ≤ year ∧ year ≤ 3 ∧ 0 ≤ day ∧ day ≤ 365 ∧
        rest % 1461 = 365 * year + day ∧ (day = 365 → year = 3) := by
    refine ⟨min (rest % 1461 / 365) 3, rest % 1461 - 365 * min (rest % 1461 / 365) 3, ?_⟩
    omega
  refine ⟨century, cycle, year, day, ?_⟩
  constructor <;> omega

namespace LiesIn

variable {dayOfEra century cycle year day : Int}

/-- The year of an era is found by taking out the leap days before it. -/
theorem yearOfEra_eq (h : LiesIn dayOfEra century cycle year day) :
    (dayOfEra - dayOfEra / 1460 + dayOfEra / 36524 - dayOfEra / 146096) / 365 =
      100 * century + 4 * cycle + year := by
  obtain ⟨hcentury, hcentury', hcycle, hcycle', hyear, hyear', hday, hday', hthree, hlast, heq⟩ := h
  have hcenturies : dayOfEra / 36524 - dayOfEra / 146096 = century := by
    by_cases hend : dayOfEra = 146096
    · omega
    · have hnot : dayOfEra / 146096 = 0 := by omega
      have hday : dayOfEra / 36524 = century := by omega
      omega
  have hcycles : dayOfEra / 1460 =
      25 * century + cycle + (24 * century + cycle + 365 * year + day) / 1460 := by omega
  have hdays : dayOfEra - dayOfEra / 1460 + dayOfEra / 36524 - dayOfEra / 146096 =
      365 * (100 * century + 4 * cycle + year) +
        (day - (24 * century + cycle + 365 * year + day) / 1460) := by
    omega
  rw [hdays]
  omega

theorem fours_eq (h : LiesIn dayOfEra century cycle year day) :
    (100 * century + 4 * cycle + year) / 4 = 25 * century + cycle := by
  obtain ⟨-, -, -, -, hyear, hyear', -, -, -, -, -⟩ := h
  omega

theorem hundreds_eq (h : LiesIn dayOfEra century cycle year day) :
    (100 * century + 4 * cycle + year) / 100 = century := by
  obtain ⟨-, -, hcycle, hcycle', hyear, hyear', -, -, -, -, -⟩ := h
  omega

theorem dayOfYear_eq (h : LiesIn dayOfEra century cycle year day) :
    dayOfEra - (365 * (100 * century + 4 * cycle + year) +
      (100 * century + 4 * cycle + year) / 4 - (100 * century + 4 * cycle + year) / 100) = day := by
  rw [h.fours_eq, h.hundreds_eq, h.eq]
  omega

/-- Eras are alike, also in their leap days. -/
theorem daysBefore_eq (h : LiesIn dayOfEra century cycle year day) (era : Int) :
    daysBefore (100 * century + 4 * cycle + year + era * 400) + day = 146097 * era + dayOfEra := by
  obtain ⟨hcentury, hcentury', hcycle, hcycle', hyear, hyear', -, -, -, -, heq⟩ := h
  rw [heq, daysBefore]
  omega

/-- A year that begins in March and has 366 days ends in a leap year. -/
theorem isLeapYear_of_eq (h : LiesIn dayOfEra century cycle year day) (era : Int)
    (hday : day = 365) :
    isLeapYear (100 * century + 4 * cycle + year + era * 400 + 1) = true := by
  have hyear := h.year_eq hday
  have hcentury := h.century_eq hday
  obtain ⟨-, -, hcycle, hcycle', -, -, -, -, -, -, -⟩ := h
  simp only [isLeapYear, decide_eq_true_eq]
  omega

end LiesIn

structure IsDayOf (year day : Int) : Prop where
  -- The last of 366 days is a leap day.
  nonneg : 0 ≤ day
  le : day ≤ 365
  leap : day = 365 → isLeapYear (year + 1) = true

/-- Every day is found as a day of a year that begins in March. -/
theorem exists_ofDayNumber_eq (n : Int) : ∃ year day, IsDayOf year day ∧
    n + 719468 = daysBefore year + day ∧ ofDayNumber n = ofMarch year day := by
  have hsplit : n + 719468 = 146097 * ((n + 719468) / 146097) + (n + 719468) % 146097 :=
    (Int.mul_ediv_add_emod _ _).symm
  obtain ⟨century, cycle, year, day, h⟩ :=
    exists_liesIn (Int.emod_nonneg (n + 719468) (by decide))
      (Int.emod_lt_of_pos (n + 719468) (by decide))
  refine ⟨_, day, ⟨h.day_nonneg, h.day_le, h.isLeapYear_of_eq ((n + 719468) / 146097)⟩, ?_, ?_⟩
  · rw [h.daysBefore_eq]
    exact hsplit
  · unfold ofDayNumber ofMarch
    simp only [h.yearOfEra_eq, h.dayOfYear_eq]

variable {year day : Int}

/-- The months from March on have by turns 31 and 30 days, beginning anew in August and January. -/
theorem IsDayOf.exists_month (h : IsDayOf year day) :
    ∃ month dayOfMonth, 0 ≤ month ∧ month ≤ 11 ∧ 0 ≤ dayOfMonth ∧
      (5 * day + 2) / 153 = month ∧ day = (153 * month + 2) / 5 + dayOfMonth ∧
      5 * day + 2 < 153 * month + 153 := by
  obtain ⟨hday, hday', -⟩ := h
  refine ⟨(5 * day + 2) / 153, day - (153 * ((5 * day + 2) / 153) + 2) / 5, ?_⟩
  omega

theorem isValid_ofMarch (h : IsDayOf year day) : (ofMarch year day).isValid = true := by
  obtain ⟨month, dayOfMonth, hmonth, hmonth', hday, hfound, heq, hlt⟩ := h.exists_month
  have hle := h.le
  unfold ofMarch
  rw [hfound, heq]
  -- Only the length of the last month depends on the year.
  by_cases hfebruary : month = 11
  · subst hfebruary
    have hlength : dayOfMonth + 1 ≤ if isLeapYear (year + 1) then 29 else 28 := by
      split_ifs with hyear
      · omega
      · have hshort : day ≠ 365 := fun hlast => hyear (h.leap hlast)
        omega
    have hfirst : 1 ≤ (dayOfMonth + 1).toNat := by omega
    simpa [isValid, daysInMonth] using ⟨hfirst, hlength⟩
  · clear h
    interval_cases month <;> simp [isValid, daysInMonth] <;> omega

/-- Counting the days up to the date of such a day leads back to it. -/
theorem dayNumber_ofMarch (h : IsDayOf year day) :
    (ofMarch year day).dayNumber = daysBefore year + day - 719468 := by
  obtain ⟨month, dayOfMonth, hmonth, hmonth', hday, hfound, heq, hlt⟩ := h.exists_month
  have hle := h.le
  unfold ofMarch
  rw [hfound, heq]
  clear h
  interval_cases month <;> simp [dayNumber, daysBefore] <;> omega

variable (n : Int)

/-- No two days have the same date. -/
theorem dayNumber_ofDayNumber : (ofDayNumber n).dayNumber = n := by
  obtain ⟨year, day, h, hday, heq⟩ := exists_ofDayNumber_eq n
  rw [heq, dayNumber_ofMarch h]
  omega

theorem isValid_ofDayNumber : (ofDayNumber n).isValid = true := by
  obtain ⟨year, day, h, -, heq⟩ := exists_ofDayNumber_eq n
  rw [heq]
  exact isValid_ofMarch h

/-- A year that begins in March ends with the January and the February of the next one. -/
theorem year_ofMarch (h : IsDayOf year day) :
    (ofMarch year day).year = if day < 306 then year else year + 1 := by
  obtain ⟨month, dayOfMonth, hmonth, hmonth', hday, hfound, heq, hlt⟩ := h.exists_month
  have hle := h.le
  unfold ofMarch
  rw [hfound, heq]
  change year + (if (if month < 10 then month + 3 else month - 9) ≤ 2 then 1 else 0) = _
  split_ifs <;> omega

variable {n}

theorem daysBefore_add_le {year year' : Int} (h : year < year') :
    daysBefore year + 365 ≤ daysBefore year' := by
  have hfours : year / 4 ≤ year' / 4 := Int.ediv_le_ediv (by decide) h.le
  have heras : year / 400 ≤ year' / 400 := Int.ediv_le_ediv (by decide) h.le
  -- A year that ends a century also ends a cycle of four.
  have hcenturies : year / 4 - year / 100 ≤ year' / 4 - year' / 100 := by omega
  unfold daysBefore
  omega

theorem daysBefore_mono {year year' : Int} (h : year ≤ year') :
    daysBefore year ≤ daysBefore year' := by
  obtain hlt | heq := h.lt_or_eq
  · have hle := daysBefore_add_le hlt
    omega
  · rw [heq]

/-- A day between the first and the last is in a year between theirs. -/
theorem year_ofDayNumber (hfirst : firstSecond / 86400 ≤ n) (hlast : n ≤ lastSecond / 86400) :
    -262143 ≤ (ofDayNumber n).year ∧ (ofDayNumber n).year ≤ 262142 := by
  obtain ⟨year, day, h, hday, heq⟩ := exists_ofDayNumber_eq n
  have hle := h.le
  have hbegin : firstSecond / 86400 + 719468 = daysBefore (-262144) + 306 := by decide
  have hend : lastSecond / 86400 + 719468 = daysBefore 262142 + 305 := by decide
  rw [heq, year_ofMarch h]
  -- The first day is a first of January, and the last one a last of December.
  constructor
  · split_ifs with hmonth
    · by_contra hbefore
      have hmono := daysBefore_mono (show year ≤ -262144 by omega)
      omega
    · by_contra hbefore
      have hmono := daysBefore_add_le (show year < -262144 by omega)
      omega
  · split_ifs with hmonth
    · by_contra hafter
      have hmono := daysBefore_add_le (show 262142 < year by omega)
      have hnonneg := h.nonneg
      omega
    · by_contra hafter
      have hmono := daysBefore_mono (show 262142 ≤ year by omega)
      omega

end Date

end Onboarding
