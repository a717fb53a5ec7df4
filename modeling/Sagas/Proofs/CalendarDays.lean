import Mathlib.Tactic.ByContra
import Sagas.Time.Calendar

/-! Every day number is that of one day of the calendar. -/
namespace Sagas.Calendar

/-- The year of an era that a day of the era falls in. Years begin in March. -/
def yearOfEra (day : Int) : Int :=
  (day - day / 1460 + day / 36524 - day / 146096) / 365

/-- How many days of that year have gone by. -/
def dayOfYear (day : Int) : Int :=
  day - (365 * yearOfEra day + yearOfEra day / 4 - yearOfEra day / 100)

/-- A year has 365 days, and one more if a leap day ends it. -/
theorem dayOfYear_bounds {day : Int} (h0 : 0 ≤ day) (h1 : day < 146097) :
    0 ≤ yearOfEra day ∧ yearOfEra day ≤ 399 ∧ 0 ≤ dayOfYear day ∧ dayOfYear day ≤ 365 ∧
      (dayOfYear day = 365 → isLeapYear (yearOfEra day + 1) = true) := by
  by_cases hlast : day = 146096
  · subst hlast
    decide
  simp only [dayOfYear, isLeapYear]
  generalize hy : yearOfEra day = year
  rw [yearOfEra] at hy
  -- The century is the same whether counted in days or in years, and the leap days before the year
  -- are those of the cycles before the day, up to one.
  have hera : day / 146096 = 0 := by omega
  have hcycles : day / 1460 ≤ 100 := by omega
  have hcenturies : 0 ≤ day / 36524 ∧ day / 36524 ≤ 3 := by omega
  have hcentury : year / 100 = day / 36524 := by omega
  have hleaps : year / 4 ≤ day / 1460 ∧ day / 1460 ≤ year / 4 + 1 := by omega
  refine ⟨by omega, by omega, by omega, by omega, fun h => ?_⟩
  have hcycle : day / 1460 = year / 4 + 1 := by omega
  have hfourth : year % 4 = 3 := by omega
  have hfirst : year % 100 ≠ 99 := by omega
  simp only [Bool.and_eq_true, Bool.or_eq_true, decide_eq_true_eq]
  omega

/-- The date of a day of a year that begins in March, counted from the beginning of an era. -/
def dateOf (era year day : Int) : Date :=
  let month := (5 * day + 2) / 153
  let civilMonth := if month < 10 then month + 3 else month - 9
  ⟨year + era * 400 + (if civilMonth ≤ 2 then 1 else 0), civilMonth.toNat,
    (day - (153 * month + 2) / 5 + 1).toNat⟩

theorem ofDays_eq_dateOf (days : Int) :
    let day := (days + 719468) % 146097
    ofDays days = dateOf ((days + 719468) / 146097) (yearOfEra day) (dayOfYear day) := by
  have hera : Int.fdiv (days + 719468) 146097 = (days + 719468) / 146097 :=
    Int.fdiv_eq_ediv_of_nonneg _ (by decide)
  have hday : days + 719468 - (days + 719468) / 146097 * 146097 = (days + 719468) % 146097 := by
    omega
  simp only [ofDays, hera, hday]
  rfl

section
variable {era year day : Int}

theorem toDays_dateOf (hy0 : 0 ≤ year) (hy1 : year ≤ 399) (hd0 : 0 ≤ day) (hd1 : day ≤ 365) :
    (dateOf era year day).toDays =
      era * 146097 + (365 * year + year / 4 - year / 100) + day - 719468 := by
  have hera : Int.fdiv (year + era * 400) 400 = era := by
    rw [Int.fdiv_eq_ediv_of_nonneg _ (by decide)]
    omega
  obtain ⟨month, hmonth⟩ : ∃ month, month = (5 * day + 2) / 153 := ⟨_, rfl⟩
  simp only [Date.toDays, dateOf, ← hmonth]
  have hm0 : 0 ≤ month := by omega
  have hm1 : month ≤ 11 := by omega
  by_cases hm : month < 10
  · have hcivil : ¬ (month + 3).toNat ≤ 2 := by omega
    have hcivil' : ¬ month + 3 ≤ 2 := by omega
    simp only [hm, if_true, hcivil, hcivil', if_false, Int.add_zero, hera]
    omega
  · have hcivil : (month - 9).toNat ≤ 2 := by omega
    have hcivil' : month - 9 ≤ 2 := by omega
    simp only [hm, if_false, hcivil, hcivil', if_true, Int.add_sub_cancel, hera]
    omega

/-- From March to January the months have their lengths by a formula; February is what remains. -/
theorem isValid_dateOf (hd0 : 0 ≤ day) (hd1 : day ≤ 365)
    (hleap : day = 365 → isLeapYear (year + 1) = true) : (dateOf era year day).isValid = true := by
  obtain ⟨month, hmonth⟩ : ∃ month, month = (5 * day + 2) / 153 := ⟨_, rfl⟩
  have hera : isLeapYear (year + era * 400 + 1) = isLeapYear (year + 1) := by
    rw [Bool.eq_iff_iff]
    simp only [isLeapYear, Bool.and_eq_true, Bool.or_eq_true, decide_eq_true_eq]
    omega
  simp only [Date.isValid, dateOf, ← hmonth, Bool.and_eq_true, decide_eq_true_eq]
  by_cases hlast : month = 11
  · subst hlast
    by_cases hl : isLeapYear (year + 1) = true
    · simp [daysInMonth, hera, hl]
      omega
    · have hshort : day ≠ 365 := fun h => hl (hleap h)
      simp [daysInMonth, hera, hl]
      omega
  · have hcases : month = 0 ∨ month = 1 ∨ month = 2 ∨ month = 3 ∨ month = 4 ∨ month = 5 ∨
        month = 6 ∨ month = 7 ∨ month = 8 ∨ month = 9 ∨ month = 10 := by omega
    rcases hcases with rfl | rfl | rfl | rfl | rfl | rfl | rfl | rfl | rfl | rfl | rfl
    all_goals
      simp [daysInMonth]
      omega

end

theorem toDays_ofDays (days : Int) : (ofDays days).toDays = days := by
  obtain ⟨hy0, hy1, hd0, hd1, -⟩ := dayOfYear_bounds
    (Int.emod_nonneg (days + 719468) (by decide)) (Int.emod_lt_of_pos (days + 719468) (by decide))
  rw [ofDays_eq_dateOf, toDays_dateOf hy0 hy1 hd0 hd1, dayOfYear]
  omega

theorem isValid_ofDays (days : Int) : (ofDays days).isValid = true := by
  obtain ⟨-, -, hd0, hd1, hleap⟩ := dayOfYear_bounds
    (Int.emod_nonneg (days + 719468) (by decide)) (Int.emod_lt_of_pos (days + 719468) (by decide))
  rw [ofDays_eq_dateOf]
  exact isValid_dateOf hd0 hd1 hleap

theorem daysInMonth_le (year : Int) (month : Nat) : daysInMonth year month ≤ 31 := by
  rw [daysInMonth.eq_def]
  repeat' split
  all_goals decide

theorem Date.bounds_of_isValid {d : Date} (h : d.isValid = true) : d.month ≤ 12 ∧ d.day ≤ 31 := by
  simp only [Date.isValid, Bool.and_eq_true, decide_eq_true_eq] at h
  obtain ⟨hfirst, hlast⟩ := h
  refine ⟨?_, Nat.le_trans hlast (daysInMonth_le _ _)⟩
  by_contra hm
  obtain ⟨k, hk⟩ := Nat.exists_eq_add_of_le (Nat.lt_of_not_le hm)
  have hnone : daysInMonth d.year d.month = 0 := by
    rw [hk, Nat.add_comm]
    rfl
  omega

end Sagas.Calendar
