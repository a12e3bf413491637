import FeedClient.Calendar.Instant

/-!
# Days and dates

Years follow one another without a gap, and so do the months of a year. Hence the
date at a count of days is the one that counts these days, and it has a month and
day that exist.
-/
namespace FeedClient.Calendar

theorem daysBeforeYear_eq (year : Int) : daysBeforeYear year =
    365 * (year - 1970) + ((year - 1) / 4 - (year - 1) / 100 + (year - 1) / 400) - 477 := by
  simp only [daysBeforeYear, Int.fdiv_eq_ediv_of_nonneg _ (by decide : (0 : Int) ≤ 4),
    Int.fdiv_eq_ediv_of_nonneg _ (by decide : (0 : Int) ≤ 100),
    Int.fdiv_eq_ediv_of_nonneg _ (by decide : (0 : Int) ≤ 400)]

theorem isLeap_iff (year : Int) :
    isLeap year = true ↔ year % 4 = 0 ∧ (year % 100 ≠ 0 ∨ year % 400 = 0) := by
  simp [isLeap]

theorem daysBeforeYear_succ (year : Int) :
    daysBeforeYear (year + 1) = daysBeforeYear year + Date.yearLength year := by
  rw [daysBeforeYear_eq, daysBeforeYear_eq, Date.yearLength]
  have hleap := isLeap_iff year
  split
  · rename_i h
    have := hleap.mp h
    omega
  · rename_i h
    have := mt hleap.mpr h
    omega

section Months

variable (year : Int)

theorem daysBeforeMonth_succ {month : Nat} (h : 1 ≤ month) :
    daysBeforeMonth year (month + 1) = daysBeforeMonth year month + daysInMonth year month := by
  obtain ⟨m, rfl⟩ : ∃ m, month = m + 1 := ⟨month - 1, by omega⟩
  simp [daysBeforeMonth, List.range_succ]

theorem daysBeforeMonth_thirteen : daysBeforeMonth year 13 = Date.yearLength year := by
  simp only [daysBeforeMonth, Date.yearLength, daysInMonth]
  cases isLeap year <;> rfl

/-- The month and day at a day of the year count the days before them. The induction is on the months
that are left. -/
theorem monthDay_spec {fuel month rest : Nat} (hmonth : 1 ≤ month)
    (hrest : daysBeforeMonth year month + rest < daysBeforeMonth year (month + fuel + 1)) :
    month ≤ (Date.monthDay year fuel month rest).1 ∧
    (Date.monthDay year fuel month rest).1 ≤ month + fuel ∧
    1 ≤ (Date.monthDay year fuel month rest).2 ∧
    (Date.monthDay year fuel month rest).2 ≤ daysInMonth year (Date.monthDay year fuel month rest).1 ∧
    daysBeforeMonth year (Date.monthDay year fuel month rest).1 + (Date.monthDay year fuel month rest).2
      = daysBeforeMonth year month + rest + 1 := by
  induction fuel generalizing month rest with
  | zero =>
      rw [Nat.add_zero, daysBeforeMonth_succ year hmonth] at hrest
      simp only [Date.monthDay]
      omega
  | succ fuel ih =>
      have hnext := daysBeforeMonth_succ year hmonth
      simp only [Date.monthDay]
      split
      · simp only
        omega
      · have hmore : month + (fuel + 1) + 1 = month + 1 + fuel + 1 := by omega
        rw [hmore] at hrest
        have := @ih (month + 1) (rest - daysInMonth year month) (by omega) (by omega)
        omega

end Months

namespace Date

/-- The year at a count of days. -/
def yearAt (days : Int) : Int :=
  let estimate := 1970 + (days * 400).fdiv 146097
  if days < daysBeforeYear estimate then estimate - 1
  else if daysBeforeYear (estimate + 1) ≤ days then estimate + 1
  else estimate

/-- A day lies in its year: the estimate by the mean length of a year is off by one at most. -/
theorem yearAt_spec (days : Int) :
    daysBeforeYear (yearAt days) ≤ days ∧ days < daysBeforeYear (yearAt days + 1) := by
  have hmean : (days * 400).fdiv 146097 = days * 400 / 146097 :=
    Int.fdiv_eq_ediv_of_nonneg _ (by decide)
  simp only [yearAt, hmean, daysBeforeYear_eq]
  split
  · rw [Int.sub_add_cancel]
    omega
  · split
    · omega
    · omega

theorem ofDays_eq (days : Int) : ofDays days =
    ⟨yearAt days, (monthDay (yearAt days) 11 1 (days - daysBeforeYear (yearAt days)).toNat).1,
      (monthDay (yearAt days) 11 1 (days - daysBeforeYear (yearAt days)).toNat).2⟩ := rfl

theorem ofDays_spec (days : Int) :
    1 ≤ (ofDays days).month ∧ (ofDays days).month ≤ 12 ∧ 1 ≤ (ofDays days).day ∧
      (ofDays days).day ≤ daysInMonth (ofDays days).year (ofDays days).month ∧
      (ofDays days).toDays = days := by
  obtain ⟨hlow, hhigh⟩ := yearAt_spec days
  rw [daysBeforeYear_succ] at hhigh
  have hyear : daysBeforeMonth (yearAt days) 1 = 0 := rfl
  have hend : daysBeforeMonth (yearAt days) (1 + 11 + 1) = yearLength (yearAt days) :=
    daysBeforeMonth_thirteen (yearAt days)
  have hspec := @monthDay_spec (yearAt days) 11 1 (days - daysBeforeYear (yearAt days)).toNat
    (Nat.le_refl 1) (by omega)
  rw [ofDays_eq, toDays, ordinal]
  simp only
  omega

@[simp] theorem toDays_ofDays (days : Int) : (ofDays days).toDays = days :=
  (ofDays_spec days).2.2.2.2

/-- Only the year can make the date at a count of days one that instants do not reach. -/
theorem isValid_ofDays_iff {days : Int} : (ofDays days).isValid = true ↔
    -262143 ≤ (ofDays days).year ∧ (ofDays days).year ≤ 262142 := by
  obtain ⟨hfirst, hlast, hday, hlength, -⟩ := ofDays_spec days
  simp [isValid, hfirst, hlast, hday, hlength]

end Date

end FeedClient.Calendar
