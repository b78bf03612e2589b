import Mathlib.Data.List.Basic
import Sequencer.Calendar

/-!
# Days and dates

Each day has exactly one date that exists, and the date leads back to the day.  The year
of a day is found by an estimate that is corrected by one; it is shown here that this
suffices for all days, before and after the year zero.  The month is found by going
through the months of that year.

## Main Results

* `daysBefore_succ`, `daysBefore_mono` — the lengths of years.
* `Date.yearOf_spec` — a day lies in its year.
* `Date.monthAndDay_spec` — a day of a year lies in its month.
* `Date.dayNumber_bounds` — a date that exists lies in its year.
* `Date.isValid_ofDayNumber`, `Date.dayNumber_ofDayNumber` — dates of days exist and
  lead back to them.
-/

namespace Sequencer.Calendar

/-! ### Years -/

theorem isLeap_iff {year : Int} :
    isLeap year = true ↔ year % 4 = 0 ∧ (year % 100 ≠ 0 ∨ year % 400 = 0) := by
  simp [isLeap]

/-- **A year has 365 days**, and one more if it is a leap year. -/
theorem daysBefore_succ (year : Int) :
    daysBefore (year + 1) = daysBefore year + if isLeap year then 366 else 365 := by
  -- each of the three quotients goes up by one where its divisor is met
  have hfour : (year + 1 + 3) / 4 = (year + 3) / 4 + if year % 4 = 0 then 1 else 0 := by
    split <;> omega
  have hhundred : (year + 1 + 99) / 100 = (year + 99) / 100 + if year % 100 = 0 then 1 else 0 := by
    split <;> omega
  have hcycle : (year + 1 + 399) / 400 = (year + 399) / 400 + if year % 400 = 0 then 1 else 0 := by
    split <;> omega
  have hcentury : year % 100 = 0 → year % 4 = 0 := by omega
  have hfourth : year % 400 = 0 → year % 100 = 0 := by omega
  unfold daysBefore
  rw [hfour, hhundred, hcycle]
  simp only [isLeap_iff]
  split <;> split <;> split <;> split <;> omega

/-- Later years begin later. -/
theorem daysBefore_mono {year year' : Int} (h : year ≤ year') : daysBefore year ≤ daysBefore year' := by
  unfold daysBefore
  omega

/-- The months of a year have as many days as the year. -/
theorem sum_monthLengths (leap : Bool) :
    (monthLengths leap).foldr (· + ·) 0 = if leap then 366 else 365 := by
  cases leap <;> rfl

namespace Date

/-- **A day lies in its year.** -/
theorem yearOf_spec (day : Int) :
    daysBefore (yearOf day) ≤ day ∧ day < daysBefore (yearOf day + 1) := by
  -- the estimate is at most one year off, in either direction
  have hlow : daysBefore (400 * day / 146097 - 1) ≤ day := by
    unfold daysBefore
    omega
  have hhigh : day < daysBefore (400 * day / 146097 + 1 + 1) := by
    unfold daysBefore
    omega
  unfold yearOf
  dsimp only
  split
  · rename_i hbefore
    rw [Int.sub_add_cancel]
    exact ⟨hlow, hbefore⟩
  · rename_i hfrom
    split
    · rename_i hafter
      exact ⟨hafter, hhigh⟩
    · rename_i huntil
      exact ⟨Int.not_lt.mp hfrom, Int.not_le.mp huntil⟩

/-- The day of a year, counted from zero, is one of its days. -/
theorem dayOfYear_lt (day : Int) :
    (day - daysBefore (yearOf day)).toNat <
      (monthLengths (isLeap (yearOf day))).foldr (· + ·) 0 := by
  obtain ⟨hfrom, huntil⟩ := yearOf_spec day
  rw [daysBefore_succ] at huntil
  rw [sum_monthLengths]
  split at huntil
  · rename_i hleap
    rw [if_pos hleap]
    omega
  · rename_i hleap
    rw [if_neg hleap]
    omega

/-! ### Months -/

/-- **A day of a year lies in its month**, behind the days of the months before. -/
theorem monthAndDay_spec {lengths : List Nat} {day : Nat}
    (h : day < lengths.foldr (· + ·) 0) :
    (monthAndDay lengths day).1 < lengths.length ∧
      (monthAndDay lengths day).2 < lengths.getD (monthAndDay lengths day).1 0 ∧
      (lengths.take (monthAndDay lengths day).1).foldr (· + ·) 0 +
        (monthAndDay lengths day).2 = day := by
  induction lengths generalizing day with
  | nil => exact absurd h (Nat.not_lt_zero day)
  | cons length lengths ih =>
      rw [List.foldr_cons] at h
      unfold monthAndDay
      split
      · rename_i hday
        exact ⟨Nat.succ_pos _, hday, Nat.zero_add day⟩
      · rename_i hday
        have hlater : day - length < lengths.foldr (· + ·) 0 := by omega
        obtain ⟨hmonth, hrest, hsum⟩ := ih hlater
        refine ⟨Nat.succ_lt_succ hmonth, hrest, ?_⟩
        show (length :: lengths.take (monthAndDay lengths (day - length)).1).foldr (· + ·) 0 +
          (monthAndDay lengths (day - length)).2 = day
        rw [List.foldr_cons]
        omega

/-! ### Dates -/

/-- **The date of a day exists.** -/
theorem isValid_ofDayNumber (day : Int) : (ofDayNumber day).isValid = true := by
  obtain ⟨hmonth, hday, -⟩ := monthAndDay_spec (dayOfYear_lt day)
  have hlength : ∀ leap, (monthLengths leap).length = 12 := fun _ => rfl
  rw [hlength] at hmonth
  unfold ofDayNumber isValid
  simp only [Bool.and_eq_true, decide_eq_true_eq, Nat.add_sub_cancel]
  exact ⟨⟨⟨Nat.le_add_left 1 _, hmonth⟩, Nat.le_add_left 1 _⟩, hday⟩

/-- The month and the day of a date have two digits. -/
theorem isValid_bounds {d : Date} (h : d.isValid = true) :
    (1 ≤ d.month ∧ d.month ≤ 12) ∧ 1 ≤ d.day ∧ d.day ≤ 31 := by
  have hlengths : ∀ leap, ∀ month < 12, (monthLengths leap).getD month 0 ≤ 31 := by decide
  simp only [isValid, Bool.and_eq_true, decide_eq_true_eq] at h
  obtain ⟨⟨⟨hmonth, hmonth'⟩, hday⟩, hlength⟩ := h
  exact ⟨⟨hmonth, hmonth'⟩, hday, Nat.le_trans hlength (hlengths _ _ (by omega))⟩

/-- **A date that exists lies in its year.** -/
theorem dayNumber_bounds {d : Date} (h : d.isValid = true) :
    daysBefore d.year ≤ d.dayNumber ∧ d.dayNumber < daysBefore (d.year + 1) := by
  have hmonths : ∀ leap, ∀ month < 13,
      daysBeforeMonth leap month + (monthLengths leap).getD (month - 1) 0 ≤
        if leap then 366 else 365 := by decide
  simp only [isValid, Bool.and_eq_true, decide_eq_true_eq] at h
  obtain ⟨⟨⟨-, hmonth⟩, hday⟩, hlength⟩ := h
  have hwithin := hmonths (isLeap d.year) d.month (by omega)
  rw [daysBefore_succ]
  unfold dayNumber
  split at hwithin
  · rename_i hleap
    rw [if_pos hleap]
    omega
  · rename_i hleap
    rw [if_neg hleap]
    omega

/-- **The date of a day leads back to the day.** -/
theorem dayNumber_ofDayNumber (day : Int) : (ofDayNumber day).dayNumber = day := by
  obtain ⟨hfrom, -⟩ := yearOf_spec day
  obtain ⟨-, -, hsum⟩ := monthAndDay_spec (dayOfYear_lt day)
  have hbefore : ∀ leap month, daysBeforeMonth leap (month + 1) =
      ((monthLengths leap).take month).foldr (· + ·) 0 := fun _ _ => rfl
  unfold ofDayNumber dayNumber
  dsimp only
  rw [hbefore]
  omega

end Date

end Sequencer.Calendar
