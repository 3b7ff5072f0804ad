import Mathlib.Algebra.Order.Group.Int
import Mathlib.Algebra.Order.SuccPred
import Mathlib.Order.SuccPred.Archimedean
import Mathlib.Data.Int.ConditionallyCompleteOrder
import Mathlib.Data.Int.SuccPred

namespace NukeLab.Calendar

def isLeap (year : Int) : Bool := year % 4 = 0 ∧ (year % 100 ≠ 0 ∨ year % 400 = 0)

def daysBeforeYear (year : Int) : Int := (year - 1) * 365 + (year - 1) / 4 - (year - 1) / 100 + (year - 1) / 400

def leapDay (year : Int) : Int := if isLeap year then 1 else 0

def daysBeforeMonth (year month : Int) : Int :=
  if month ≤ 1 then 0
  else if month = 2 then 31
  else
    leapDay year +
      (if month = 3 then 59 else if month = 4 then 90 else if month = 5 then 120 else if month = 6 then 151
        else if month = 7 then 181 else if month = 8 then 212 else if month = 9 then 243 else if month = 10 then 273
        else if month = 11 then 304 else 334)

def daysInMonth (year month : Int) : Int :=
  if month = 2 then 28 + leapDay year else if month = 4 ∨ month = 6 ∨ month = 9 ∨ month = 11 then 30 else 31

def monthNumber (year month : Int) : Int := year * 12 + month

def yearOf (ym : Int) : Int := (ym - 1) / 12

def monthOf (ym : Int) : Int := (ym - 1) % 12 + 1

theorem yearOf_monthNumber {year month : Int} (hlow : 1 ≤ month) (hhigh : month ≤ 12) :
    yearOf (monthNumber year month) = year := by
  simp only [yearOf, monthNumber]
  omega

theorem monthOf_monthNumber {year month : Int} (hlow : 1 ≤ month) (hhigh : month ≤ 12) :
    monthOf (monthNumber year month) = month := by
  simp only [monthOf, monthNumber]
  omega

theorem monthNumber_yearOf (ym : Int) : monthNumber (yearOf ym) (monthOf ym) = ym := by
  simp only [monthNumber, yearOf, monthOf]
  omega

/-- The number of the day on which a month begins, the first of year one being day 1. -/
def firstDay (ym : Int) : Int := daysBeforeYear (yearOf ym) + daysBeforeMonth (yearOf ym) (monthOf ym) + 1

theorem leapDay_nonneg (year : Int) : 0 ≤ leapDay year := by
  rw [leapDay]
  split <;> omega

theorem daysBeforeYear_add_one (year : Int) : daysBeforeYear (year + 1) = daysBeforeYear year + 365 + leapDay year := by
  simp only [daysBeforeYear, leapDay, isLeap, decide_eq_true_eq]
  split <;> omega

theorem daysBeforeMonth_add_one (year : Int) {month : Int} (hlow : 1 ≤ month) (hhigh : month ≤ 11) :
    daysBeforeMonth year (month + 1) = daysBeforeMonth year month + daysInMonth year month := by
  obtain rfl | rfl | rfl | rfl | rfl | rfl | rfl | rfl | rfl | rfl | rfl :
      month = 1 ∨ month = 2 ∨ month = 3 ∨ month = 4 ∨ month = 5 ∨ month = 6 ∨ month = 7 ∨ month = 8 ∨ month = 9 ∨
        month = 10 ∨ month = 11 := by omega
  all_goals
    simp [daysBeforeMonth, daysInMonth]
    try omega

theorem daysBeforeMonth_december (year : Int) : daysBeforeMonth year 12 + daysInMonth year 12 = 365 + leapDay year := by
  simp [daysBeforeMonth, daysInMonth]
  omega

theorem firstDay_add_one (ym : Int) : firstDay (ym + 1) = firstDay ym + daysInMonth (yearOf ym) (monthOf ym) := by
  have hlow : 1 ≤ monthOf ym := by
    simp only [monthOf]
    omega
  have hhigh : monthOf ym ≤ 12 := by
    simp only [monthOf]
    omega
  by_cases hdecember : monthOf ym = 12
  · have hyear : yearOf (ym + 1) = yearOf ym + 1 := by
      simp only [yearOf, monthOf] at *
      omega
    have hmonth : monthOf (ym + 1) = 1 := by
      simp only [monthOf] at *
      omega
    have hfirst : daysBeforeMonth (yearOf ym + 1) 1 = 0 := if_pos le_rfl
    have hlast := daysBeforeMonth_december (yearOf ym)
    have hnext := daysBeforeYear_add_one (yearOf ym)
    rw [firstDay, firstDay, hyear, hmonth, hdecember]
    omega
  · have hyear : yearOf (ym + 1) = yearOf ym := by
      simp only [yearOf, monthOf] at *
      omega
    have hmonth : monthOf (ym + 1) = monthOf ym + 1 := by
      simp only [monthOf] at *
      omega
    have hnext := daysBeforeMonth_add_one (yearOf ym) hlow (by omega)
    rw [firstDay, firstDay, hyear, hmonth]
    omega

theorem daysInMonth_pos (year month : Int) : 0 < daysInMonth year month := by
  have := leapDay_nonneg year
  rw [daysInMonth]
  split
  · omega
  · split <;> omega

theorem firstDay_strictMono : StrictMono firstDay := by
  apply strictMono_int_of_lt_succ
  intro ym
  have := daysInMonth_pos (yearOf ym) (monthOf ym)
  rw [firstDay_add_one]
  omega

theorem daysBeforeMonth_sub_leapDay (year other month : Int) :
    daysBeforeMonth year month - (if month ≤ 2 then 0 else leapDay year) =
      daysBeforeMonth other month - (if month ≤ 2 then 0 else leapDay other) := by
  rw [daysBeforeMonth, daysBeforeMonth]
  by_cases hearly : month ≤ 2
  · rw [if_pos hearly, if_pos hearly]
    by_cases hfirst : month ≤ 1
    · rw [if_pos hfirst, if_pos hfirst]
    · have hsecond : month = 2 := by omega
      rw [if_neg hfirst, if_neg hfirst, if_pos hsecond, if_pos hsecond]
  · have hfirst : ¬ month ≤ 1 := by omega
    have hsecond : month ≠ 2 := by omega
    rw [if_neg hearly, if_neg hearly, if_neg hfirst, if_neg hfirst, if_neg hsecond, if_neg hsecond]
    omega

theorem firstDay_sub_twelve (ym : Int) : firstDay (ym - 12) + 365 ≤ firstDay ym := by
  have hyear : yearOf ym = yearOf (ym - 12) + 1 := by
    simp only [yearOf]
    omega
  have hmonth : monthOf (ym - 12) = monthOf ym := by
    simp only [monthOf]
    omega
  have hnext := daysBeforeYear_add_one (yearOf (ym - 12))
  have hmonths := daysBeforeMonth_sub_leapDay (yearOf ym) (yearOf (ym - 12)) (monthOf ym)
  have hleap := leapDay_nonneg (yearOf (ym - 12))
  have hleap' := leapDay_nonneg (yearOf ym)
  rw [firstDay, firstDay, hmonth, hyear, hnext]
  rw [hyear] at hmonths hleap'
  split at hmonths <;> omega

end NukeLab.Calendar
