import Mathlib.Data.Nat.Find
import Mathlib.Tactic.SplitIfs

/-!
# The Gregorian calendar

Dates of the proleptic Gregorian calendar and their day numbers, counted from 0001-01-01 as day 0.
`Date.toOrdinal` inverts `Date.ofOrdinal`, so different days have different dates.
-/

namespace Kit

def isLeap (y : Nat) : Bool := y % 4 == 0 && (y % 100 != 0 || y % 400 == 0)

def daysInMonth (y m : Nat) : Nat :=
  if m = 2 then if isLeap y then 29 else 28
  else if m = 4 ∨ m = 6 ∨ m = 9 ∨ m = 11 then 30
  else 31

/-- The days from 0001-01-01 to the first of January. -/
def daysBeforeYear (y : Nat) : Nat := 365 * (y - 1) + (y - 1) / 4 - (y - 1) / 100 + (y - 1) / 400

/-- The days from the first of January to the first of month `m + 1`. -/
def daysOfMonths (y : Nat) : Nat → Nat
  | 0 => 0
  | m + 1 => daysOfMonths y m + daysInMonth y (m + 1)

/-- A date of the calendar. -/
structure Date where
  year : Nat
  month : Nat
  day : Nat
  year_pos : 0 < year
  month_pos : 0 < month
  month_le : month ≤ 12
  day_pos : 0 < day
  day_le : day ≤ daysInMonth year month
deriving DecidableEq

theorem daysInMonth_pos (y m : Nat) : 0 < daysInMonth y m := by
  unfold daysInMonth; split_ifs <;> omega

theorem daysOfMonths_year (y : Nat) : daysOfMonths y 12 = if isLeap y then 366 else 365 := by
  cases h : isLeap y <;> simp [daysOfMonths, daysInMonth, h]

theorem isLeap_iff (y : Nat) : isLeap y = true ↔ 4 ∣ y ∧ (¬ 100 ∣ y ∨ 400 ∣ y) := by
  simp [isLeap, Nat.dvd_iff_mod_eq_zero]

theorem daysBeforeYear_succ {y : Nat} (h : 0 < y) : daysBeforeYear (y + 1) = daysBeforeYear y +
    daysOfMonths y 12 := by
  obtain ⟨k, rfl⟩ : ∃ k, y = k + 1 := ⟨y - 1, by omega⟩
  have h₁ : 100 ∣ k + 1 → 4 ∣ k + 1 := Nat.dvd_trans (by decide)
  have h₂ : 400 ∣ k + 1 → 100 ∣ k + 1 := Nat.dvd_trans (by decide)
  have h₃ : k / 100 ≤ k := Nat.div_le_self k 100
  rw [daysOfMonths_year]
  simp only [daysBeforeYear, Nat.add_sub_cancel, isLeap_iff, Nat.succ_div]
  by_cases a : 4 ∣ k + 1 <;> by_cases b : 100 ∣ k + 1 <;> by_cases c : 400 ∣ k + 1 <;>
    simp only [a, b, c, true_and, false_and, not_true, not_false_iff, or_true, or_false,
      if_true, if_false]
  all_goals omega

theorem le_daysBeforeYear (k : Nat) : 365 * k ≤ daysBeforeYear (k + 1) := by
  simp only [daysBeforeYear, Nat.add_sub_cancel]
  omega

/-! ### Day numbers -/

namespace Date

/-- The day number of a date. -/
def toOrdinal (d : Date) : Nat := daysBeforeYear d.year +
    daysOfMonths d.year (d.month - 1) + (d.day - 1)

/-- The greatest `k ≤ bound` with `f k ≤ n`. -/
def search (f : Nat → Nat) (n bound : Nat) : Nat := Nat.findGreatest (fun k => f k ≤ n) bound

theorem search_le {f : Nat → Nat} {n bound : Nat} (h : f 0 ≤ n) : f (search f n bound) ≤ n :=
  Nat.findGreatest_spec (P := fun k => f k ≤ n) (Nat.zero_le bound) h

theorem search_lt {f : Nat → Nat} {n bound : Nat} (h : n < f (bound + 1)) :
    n < f (search f n bound + 1) := by
  rcases Nat.lt_or_ge (search f n bound) bound with hlt | hge
  · exact Nat.lt_of_not_le
      (Nat.findGreatest_is_greatest (P := fun k => f k ≤ n) (Nat.lt_succ_self _) hlt)
  · have heq : search f n bound = bound := Nat.le_antisymm (Nat.findGreatest_le bound) hge
    rwa [heq]

/-- The year of day `n`, less one: no year is shorter than 365 days. -/
def yearIndex (n : Nat) : Nat := search (fun k => daysBeforeYear (k + 1)) n (n / 365)

/-- The month of day `n`, less one. -/
def monthIndex (n : Nat) : Nat :=
  search (daysOfMonths (yearIndex n + 1)) (n - daysBeforeYear (yearIndex n + 1)) 11

theorem search_bound (f : Nat → Nat) (n bound : Nat) : search f n bound ≤ bound :=
  Nat.findGreatest_le bound

theorem yearIndex_le (n : Nat) : daysBeforeYear (yearIndex n + 1) ≤ n :=
  search_le (f := fun k => daysBeforeYear (k + 1)) (Nat.zero_le n)

theorem lt_yearIndex (n : Nat) : n < daysBeforeYear (yearIndex n + 2) := by
  refine search_lt (f := fun k => daysBeforeYear (k + 1))
    (Nat.lt_of_lt_of_le ?_ (le_daysBeforeYear (n / 365 + 1)))
  omega

theorem monthIndex_le (n : Nat) :
    daysOfMonths (yearIndex n + 1) (monthIndex n) ≤ n - daysBeforeYear (yearIndex n + 1) :=
  search_le (Nat.zero_le _)

theorem lt_monthIndex (n : Nat) :
    n - daysBeforeYear (yearIndex n + 1) < daysOfMonths (yearIndex n + 1) (monthIndex n + 1) := by
  refine search_lt ?_
  have hlt := lt_yearIndex n
  have hle := yearIndex_le n
  rw [daysBeforeYear_succ (y := yearIndex n + 1) (Nat.succ_pos _)] at hlt
  change _ < daysOfMonths _ 12
  omega

/-- The date of day `n`. -/
def ofOrdinal (n : Nat) : Date where
  year := yearIndex n + 1
  month := monthIndex n + 1
  day := n - daysBeforeYear (yearIndex n + 1) - daysOfMonths (yearIndex n + 1) (monthIndex n) + 1
  year_pos := Nat.succ_pos _
  month_pos := Nat.succ_pos _
  month_le := Nat.succ_le_succ (search_bound _ _ _)
  day_pos := Nat.succ_pos _
  day_le := by
    have h₁ := monthIndex_le n
    have h₂ := lt_monthIndex n
    simp only [daysOfMonths] at h₂
    omega

@[simp] theorem toOrdinal_ofOrdinal (n : Nat) : (ofOrdinal n).toOrdinal = n := by
  have h₁ := yearIndex_le n
  have h₂ := monthIndex_le n
  simp only [toOrdinal, ofOrdinal, Nat.add_sub_cancel]
  omega

theorem ofOrdinal_injective {n n' : Nat} (h : ofOrdinal n = ofOrdinal n') : n = n' := by
  rw [← toOrdinal_ofOrdinal n, h, toOrdinal_ofOrdinal]

theorem ext_iff' {d d' : Date} : d = d' ↔ d.year = d'.year ∧ d.month = d'.month ∧ d.day = d'.day := by
  constructor
  · rintro rfl; exact ⟨rfl, rfl, rfl⟩
  · obtain ⟨y, m, dd, _⟩ := d
    obtain ⟨y', m', dd', _⟩ := d'
    rintro ⟨rfl, rfl, rfl⟩; rfl

/-! ### Months -/

/-- The first day of the next month. -/
def nextMonth (d : Date) : Date :=
  if h : d.month = 12 then
    { year := d.year + 1, month := 1, day := 1, year_pos := Nat.succ_pos _, month_pos := Nat.one_pos
      month_le := by omega, day_pos := Nat.one_pos, day_le := daysInMonth_pos _ _ }
  else
    { year := d.year, month := d.month + 1, day := 1, year_pos := d.year_pos,
      month_pos := Nat.succ_pos _
      month_le := have := d.month_le; by omega
      day_pos := Nat.one_pos, day_le := daysInMonth_pos _ _ }

end Date

end Kit
