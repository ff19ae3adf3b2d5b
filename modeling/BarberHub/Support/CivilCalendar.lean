import Mathlib.Data.Int.Interval
import Mathlib.Data.List.Basic

/-!
# The proleptic Gregorian calendar

A date is its ordinal, and 1 is the first of January of the year 1.  This module
computes the year and the month of a date, and the first days of months, and
shows that the dates of a month are those between two first days.
-/

namespace CivilCalendar

def isLeap (year : ℤ) : Bool :=
  year % 4 = 0 ∧ (year % 100 ≠ 0 ∨ year % 400 = 0)

/-- The days before the first of January of a year. -/
def daysBeforeYear (year : ℤ) : ℤ :=
  (year - 1) * 365 + (year - 1) / 4 - (year - 1) / 100 + (year - 1) / 400

/-- The days of a common year before the months from February on, December
first. -/
def monthLengths : List (ℤ × ℤ) :=
  [(12, 334), (11, 304), (10, 273), (9, 243), (8, 212), (7, 181), (6, 151),
    (5, 120), (4, 90), (3, 59), (2, 31)]

/-- The days of a year before a month. -/
def daysBeforeMonth (year month : ℤ) : ℤ :=
  (monthLengths.lookup month).getD 0 +
    if month > 2 ∧ isLeap year then 1 else 0

/-- The first day of a month. -/
def firstOfMonth (year month : ℤ) : ℤ :=
  daysBeforeYear year + daysBeforeMonth year month + 1

/-- The year of a date: whole cycles of 400, 100, 4 and 1 years, and the last
day of a leap year, which would begin another. -/
def yearOf (day : ℤ) : ℤ :=
  let n := (day - 1) % 146097
  let centuries := n / 36524
  let cycles := n % 36524 / 1461
  let years := n % 36524 % 1461 / 365
  let year := (day - 1) / 146097 * 400 + centuries * 100 + cycles * 4 + years + 1
  if centuries = 4 ∨ years = 4 then year - 1 else year

/-- The month of a date: the last one that has begun. -/
def monthOf (day : ℤ) : ℤ :=
  let year := yearOf day
  ((monthLengths.map Prod.fst).find? fun month =>
    firstOfMonth year month ≤ day).getD 1

/-- The place of a date in its month, from 1. -/
def dayOfMonth (day : ℤ) : ℤ :=
  day - firstOfMonth (yearOf day) (monthOf day) + 1

/-- The day with that number of a month, the months counted from 0.  Months
outside a year and numbers outside a month carry over. -/
def makeDay (year monthIndex number : ℤ) : ℤ :=
  firstOfMonth (year + monthIndex / 12) (monthIndex % 12 + 1) + number - 1

/-- Two dates are in the same month of the same year. -/
def SharesMonth (day day' : ℤ) : Prop :=
  yearOf day = yearOf day' ∧ monthOf day = monthOf day'

instance (day day' : ℤ) : Decidable (SharesMonth day day') :=
  inferInstanceAs (Decidable (_ ∧ _))

example : (yearOf 739704, monthOf 739704) = (2026, 3) := by decide

example : firstOfMonth 2026 3 = 739704 - 28 := by decide

/-! ## Years -/

theorem isLeap_iff {year : ℤ} :
    isLeap year = true ↔ year % 4 = 0 ∧ (year % 100 ≠ 0 ∨ year % 400 = 0) := by
  rw [isLeap, decide_eq_true_eq]

theorem daysBeforeYear_succ (year : ℤ) :
    daysBeforeYear (year + 1) =
      daysBeforeYear year + if isLeap year then 366 else 365 := by
  rw [daysBeforeYear, daysBeforeYear]
  split
  next h =>
    rw [isLeap_iff] at h
    omega
  next h =>
    rw [isLeap_iff] at h
    omega

/-- The years are one after the other. -/
theorem daysBeforeYear_mono {year year' : ℤ} (h : year ≤ year') :
    daysBeforeYear year ≤ daysBeforeYear year' := by
  rw [daysBeforeYear, daysBeforeYear]
  omega

/-- A year by its place in the cycles of 400, of 100 and of 4 years. -/
structure Place (year q c k r : ℤ) : Prop where
  eq : year = 400 * q + 100 * c + 4 * k + r + 1
  century : 0 ≤ c ∧ c < 4
  cycle : 0 ≤ k ∧ k < 25
  rest : 0 ≤ r ∧ r < 4

theorem Place.daysBeforeYear_eq {year q c k r : ℤ} (h : Place year q c k r) :
    daysBeforeYear year = 146097 * q + 36524 * c + 1461 * k + 365 * r := by
  obtain ⟨rfl, hc, hk, hr⟩ := h
  rw [daysBeforeYear]
  omega

/-- Where the year of a date is, and that the date is in it. -/
theorem exists_place (day : ℤ) : ∃ q c k r, Place (yearOf day) q c k r ∧
    146097 * q + 36524 * c + 1461 * k + 365 * r < day ∧
    (day ≤ 146097 * q + 36524 * c + 1461 * k + 365 * (r + 1) ∨
      r = 3 ∧ (k < 24 ∨ c = 3) ∧
        day = 146097 * q + 36524 * c + 1461 * k + 365 * (r + 1) + 1) := by
  obtain ⟨n, hn⟩ : ∃ n, n = (day - 1) % 146097 := ⟨_, rfl⟩
  obtain ⟨m, hm⟩ : ∃ m, m = n % 36524 := ⟨_, rfl⟩
  obtain ⟨p, hp⟩ : ∃ p, p = m % 1461 := ⟨_, rfl⟩
  rw [yearOf]
  rw [← hn, ← hm, ← hp]
  by_cases hcentury : n / 36524 = 4
  · refine ⟨(day - 1) / 146097, 3, 24, 3, ⟨?_, ?_, ?_, ?_⟩, ?_, ?_⟩
    · rw [if_pos (Or.inl hcentury)]
      omega
    all_goals omega
  · by_cases hyear : p / 365 = 4
    · refine ⟨(day - 1) / 146097, n / 36524, m / 1461, 3,
        ⟨?_, ?_, ?_, ?_⟩, ?_, ?_⟩
      · rw [if_pos (Or.inr hyear)]
        omega
      all_goals omega
    · refine ⟨(day - 1) / 146097, n / 36524, m / 1461, p / 365,
        ⟨?_, ?_, ?_, ?_⟩, ?_, ?_⟩
      · rw [if_neg (not_or.mpr ⟨hcentury, hyear⟩)]
        omega
      all_goals omega

/-- A date is in its year. -/
theorem yearOf_spec (day : ℤ) :
    daysBeforeYear (yearOf day) < day ∧ day ≤ daysBeforeYear (yearOf day + 1) := by
  obtain ⟨q, c, k, r, hplace, hlow, hhigh⟩ := exists_place day
  rw [daysBeforeYear_succ, hplace.daysBeforeYear_eq]
  refine ⟨hlow, ?_⟩
  obtain ⟨heq, hc, hk, hr⟩ := hplace
  rcases hhigh with hhigh | ⟨rfl, hleap, hday⟩
  · split <;> omega
  · have hlong : isLeap (yearOf day) = true := by
      rw [isLeap_iff, heq]
      omega
    rw [if_pos hlong]
    omega

/-! ## Months -/

/-- The year and the month after a month. -/
def nextMonth (year month : ℤ) : ℤ × ℤ :=
  if month = 12 then (year + 1, 1) else (year, month + 1)

/-- The first day after a month. -/
def nextFirst (year month : ℤ) : ℤ :=
  firstOfMonth (nextMonth year month).1 (nextMonth year month).2

theorem daysBeforeMonth_one (year : ℤ) : daysBeforeMonth year 1 = 0 := by
  rfl

/-- The months of a year begin one after the other, at least four weeks apart. -/
theorem daysBeforeMonth_lt (year : ℤ) {month month' : ℤ} (hlow : 1 ≤ month)
    (hlt : month < month') (hhigh : month' ≤ 12) :
    daysBeforeMonth year month + 28 ≤ daysBeforeMonth year month' := by
  have hcommon : ∀ n ∈ Finset.Icc (1 : ℤ) 12, ∀ n' ∈ Finset.Icc (1 : ℤ) 12,
      n < n' → (monthLengths.lookup n).getD 0 + 28 ≤ (monthLengths.lookup n').getD 0 := by
    decide
  have hdays := hcommon month (Finset.mem_Icc.mpr ⟨hlow, by omega⟩) month'
    (Finset.mem_Icc.mpr ⟨by omega, hhigh⟩) hlt
  rw [daysBeforeMonth, daysBeforeMonth]
  cases isLeap year with
  | false => simpa using hdays
  | true =>
      simp only [and_true]
      split <;> split <;> omega

/-- A month ends in its year. -/
theorem daysBeforeMonth_lt_year (year : ℤ) {month : ℤ} (hlow : 1 ≤ month)
    (hhigh : month ≤ 12) :
    0 ≤ daysBeforeMonth year month ∧
      daysBeforeYear year + daysBeforeMonth year month + 28 ≤
        daysBeforeYear (year + 1) := by
  have hcommon : ∀ n ∈ Finset.Icc (1 : ℤ) 12, 0 ≤ (monthLengths.lookup n).getD 0 ∧
      (monthLengths.lookup n).getD 0 + 31 ≤ 365 := by
    decide
  obtain ⟨hbegun, hyear⟩ := hcommon month (Finset.mem_Icc.mpr ⟨hlow, hhigh⟩)
  rw [daysBeforeMonth, daysBeforeYear_succ]
  cases isLeap year with
  | false =>
      simp only [Bool.false_eq_true, and_false, if_false]
      omega
  | true =>
      simp only [and_true, if_true]
      split <;> omega

theorem mem_months {month : ℤ} :
    month ∈ monthLengths.map Prod.fst ↔ 2 ≤ month ∧ month ≤ 12 := by
  simp only [monthLengths, List.map_cons, List.map_nil, List.mem_cons,
    List.not_mem_nil, or_false]
  omega

/-- The month of a date is the last one that has begun. -/
theorem monthOf_spec (day : ℤ) :
    (1 ≤ monthOf day ∧ monthOf day ≤ 12) ∧
      firstOfMonth (yearOf day) (monthOf day) ≤ day ∧
      ∀ month, monthOf day < month → month ≤ 12 →
        day < firstOfMonth (yearOf day) month := by
  have hyear : firstOfMonth (yearOf day) 1 ≤ day := by
    rw [firstOfMonth, daysBeforeMonth_one]
    have hafter := (yearOf_spec day).1
    omega
  rw [monthOf]
  generalize yearOf day = year at hyear ⊢
  cases hfound : (monthLengths.map Prod.fst).find? fun month =>
      firstOfMonth year month ≤ day with
  | none =>
      rw [List.find?_eq_none] at hfound
      refine ⟨by simp, hyear, ?_⟩
      intro month hlt hhigh
      rw [Option.getD_none] at hlt
      simpa using hfound month (mem_months.mpr ⟨by omega, hhigh⟩)
  | some last =>
      rw [List.find?_eq_some_iff_append] at hfound
      obtain ⟨hbegun, later, earlier, hmonths, hlater⟩ := hfound
      have hlast : last ∈ monthLengths.map Prod.fst := by
        rw [hmonths]
        exact List.mem_append_right later List.mem_cons_self
      obtain ⟨hlow, hhigh⟩ := mem_months.mp hlast
      rw [Option.getD_some]
      refine ⟨⟨by omega, hhigh⟩, of_decide_eq_true hbegun, ?_⟩
      intro month hlt hle
      -- the months are listed from the last one down
      have hdown : (monthLengths.map Prod.fst).Pairwise (· > ·) := by decide
      rw [hmonths] at hdown
      have hrest := (List.pairwise_cons.mp (List.pairwise_append.mp hdown).2.1).1
      have hmem : month ∈ later ++ last :: earlier := by
        rw [← hmonths]
        exact mem_months.mpr ⟨by omega, hle⟩
      rcases List.mem_append.mp hmem with hmem | hmem
      · simpa using hlater month hmem
      · rcases List.mem_cons.mp hmem with rfl | hmem
        · exact absurd hlt (lt_irrefl _)
        · exact absurd hlt (lt_asymm (hrest month hmem))

theorem nextFirst_eq (year month : ℤ) :
    nextFirst year month = if month = 12 then daysBeforeYear (year + 1) + 1
      else firstOfMonth year (month + 1) := by
  rw [nextFirst, nextMonth]
  split
  · dsimp only
    rw [firstOfMonth, daysBeforeMonth_one, add_zero]
  · rfl

/-- A date is in its month. -/
theorem firstOfMonth_le_lt (day : ℤ) :
    firstOfMonth (yearOf day) (monthOf day) ≤ day ∧
      day < nextFirst (yearOf day) (monthOf day) := by
  obtain ⟨⟨hlow, hhigh⟩, hbegun, hlater⟩ := monthOf_spec day
  refine ⟨hbegun, ?_⟩
  rw [nextFirst_eq]
  split
  · exact Int.lt_add_one_of_le (yearOf_spec day).2
  · exact hlater _ (by omega) (by omega)

/-- A month has at least four weeks. -/
theorem firstOfMonth_add_le (year : ℤ) {month : ℤ} (hlow : 1 ≤ month)
    (hhigh : month ≤ 12) :
    firstOfMonth year month + 28 ≤ nextFirst year month := by
  rw [nextFirst_eq]
  split
  next =>
    have hdays := (daysBeforeMonth_lt_year year hlow hhigh).2
    rw [firstOfMonth]
    omega
  next hnot =>
    have hdays := daysBeforeMonth_lt year hlow (by omega : month < month + 1)
      (by omega)
    rw [firstOfMonth, firstOfMonth]
    omega

/-- The dates of a month are those from its first day to the next month's. -/
theorem mem_month_iff {day year month : ℤ} (hlow : 1 ≤ month)
    (hhigh : month ≤ 12) :
    (yearOf day = year ∧ monthOf day = month) ↔
      firstOfMonth year month ≤ day ∧ day < nextFirst year month := by
  constructor
  · rintro ⟨rfl, rfl⟩
    exact firstOfMonth_le_lt day
  · rintro ⟨hbegun, hnext⟩
    have hmonth := daysBeforeMonth_lt_year year hlow hhigh
    have hends : nextFirst year month ≤ daysBeforeYear (year + 1) + 1 := by
      rw [nextFirst_eq]
      split
      · exact le_rfl
      · have hnext :=
          daysBeforeMonth_lt_year year (by omega : 1 ≤ month + 1) (by omega)
        rw [firstOfMonth]
        omega
    have hyear : yearOf day = year := by
      obtain ⟨hafter, hbefore⟩ := yearOf_spec day
      rw [firstOfMonth] at hbegun
      rcases lt_trichotomy (yearOf day) year with hlt | heq | hgt
      · have hmono := daysBeforeYear_mono (by omega : yearOf day + 1 ≤ year)
        omega
      · exact heq
      · have hmono := daysBeforeYear_mono (by omega : year + 1 ≤ yearOf day)
        omega
    obtain ⟨⟨hlow', hhigh'⟩, hbegun', hlater'⟩ := monthOf_spec day
    rw [hyear] at hbegun' hlater'
    refine ⟨hyear, ?_⟩
    rcases lt_trichotomy (monthOf day) month with hlt | heq | hgt
    · exact absurd hbegun (not_le.mpr (hlater' month hlt hhigh))
    · exact heq
    · exfalso
      have hle : nextFirst year month ≤ firstOfMonth year (monthOf day) := by
        rw [nextFirst_eq, if_neg (by omega)]
        rcases (by omega : month + 1 ≤ monthOf day).eq_or_lt with heq | hlt
        · rw [heq]
        · have hdays :=
            daysBeforeMonth_lt year (by omega : 1 ≤ month + 1) hlt hhigh'
          rw [firstOfMonth, firstOfMonth]
          omega
      omega

/-- A later date is not in an earlier year. -/
theorem yearOf_mono {day day' : ℤ} (h : day ≤ day') : yearOf day ≤ yearOf day' := by
  by_contra hlt
  have hmono := daysBeforeYear_mono (by omega : yearOf day' + 1 ≤ yearOf day)
  have hafter := (yearOf_spec day).1
  have hbefore := (yearOf_spec day').2
  omega

theorem sharesMonth_firstOfMonth (year : ℤ) {month : ℤ} (hlow : 1 ≤ month)
    (hhigh : month ≤ 12) :
    yearOf (firstOfMonth year month) = year ∧
      monthOf (firstOfMonth year month) = month := by
  have hlength := firstOfMonth_add_le year hlow hhigh
  exact (mem_month_iff hlow hhigh).mpr ⟨le_rfl, by omega⟩

/-- Dates are in the same month when their months begin on the same day. -/
theorem sharesMonth_iff {day day' : ℤ} :
    SharesMonth day day' ↔
      firstOfMonth (yearOf day) (monthOf day) =
        firstOfMonth (yearOf day') (monthOf day') := by
  constructor
  · rintro ⟨hyear, hmonth⟩
    rw [hyear, hmonth]
  · intro h
    obtain ⟨hlow, hhigh⟩ := (monthOf_spec day).1
    obtain ⟨hlow', hhigh'⟩ := (monthOf_spec day').1
    obtain ⟨hyear, hmonth⟩ := sharesMonth_firstOfMonth (yearOf day) hlow hhigh
    obtain ⟨hyear', hmonth'⟩ := sharesMonth_firstOfMonth (yearOf day') hlow' hhigh'
    rw [h] at hyear hmonth
    exact ⟨hyear.symm.trans hyear', hmonth.symm.trans hmonth'⟩

/-- Within a year the number of a day counts from the month's first day. -/
theorem makeDay_eq (year number : ℤ) {month : ℤ} (hlow : 1 ≤ month)
    (hhigh : month ≤ 12) :
    makeDay year (month - 1) number = firstOfMonth year month + number - 1 := by
  have hyear : (month - 1) / 12 = 0 := by omega
  have hmonth : (month - 1) % 12 + 1 = month := by omega
  rw [makeDay, hyear, hmonth, add_zero]

/-- A date is the day with its number of its month. -/
theorem makeDay_dayOfMonth (day : ℤ) :
    makeDay (yearOf day) (monthOf day - 1) (dayOfMonth day) = day := by
  obtain ⟨hlow, hhigh⟩ := (monthOf_spec day).1
  rw [makeDay_eq _ _ hlow hhigh, dayOfMonth]
  omega

theorem dayOfMonth_pos (day : ℤ) : 1 ≤ dayOfMonth day := by
  have hbegun := (firstOfMonth_le_lt day).1
  rw [dayOfMonth]
  omega

/-- Carrying over leads to no earlier year. -/
theorem le_yearOf_makeDay (year : ℤ) {monthIndex number : ℤ}
    (hmonth : 0 ≤ monthIndex) (hnumber : 1 ≤ number) :
    year ≤ yearOf (makeDay year monthIndex number) := by
  have hfirst := (sharesMonth_firstOfMonth (year + monthIndex / 12)
    (by omega : 1 ≤ monthIndex % 12 + 1) (by omega)).1
  have hmono := yearOf_mono
    (by rw [makeDay]; omega :
      firstOfMonth (year + monthIndex / 12) (monthIndex % 12 + 1) ≤
        makeDay year monthIndex number)
  omega

end CivilCalendar
