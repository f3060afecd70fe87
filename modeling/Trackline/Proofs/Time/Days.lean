import Mathlib.Algebra.BigOperators.Intervals
import Mathlib.Algebra.Order.BigOperators.Group.Finset
import Mathlib.Tactic.IntervalCases
import Mathlib.Tactic.Ring
import Trackline.Proofs.Time.Calendar

/-! Days counted plainly: the years and the months that are over, and the days of the month
that has begun. The day number of a date is this count, and later dates have more of it. -/
namespace Trackline.Date

/-- A month of the year, and a day that this month has in this year. -/
structure Valid (d : Date) : Prop where
  month : 1 ≤ d.month ∧ d.month ≤ 12
  day : 1 ≤ d.day ∧ d.day ≤ monthLength d.year d.month

/-- Days of a year before one of its months begins; the thirteenth month is the next year. -/
def beforeMonth (year : Int) (month : Nat) : Int := ∑ m ∈ Finset.Ico 1 month, (monthLength year m : Int)

def yearLength (year : Int) : Int := beforeMonth year 13

/-- Days from 1970-01-01 to a date. -/
def elapsed (d : Date) : Int :=
  ∑ n ∈ Finset.range (d.year - 1970).toNat, yearLength (1970 + n) -
    ∑ n ∈ Finset.range (1970 - d.year).toNat, yearLength (d.year + n) +
    beforeMonth d.year d.month + d.day - 1

/-- Earlier in the calendar. -/
def Before (d e : Date) : Prop :=
  d.year < e.year ∨ d.year = e.year ∧ (d.month < e.month ∨ d.month = e.month ∧ d.day < e.day)

theorem monthLength_le (year : Int) (month : Nat) : monthLength year month ≤ 31 := by
  unfold monthLength
  split_ifs <;> decide

private theorem leap_cases (year : Int) :
    (leap year = true ∧ year % 4 = 0 ∧ (year % 100 ≠ 0 ∨ year % 400 = 0)) ∨
      (leap year = false ∧ (year % 4 ≠ 0 ∨ year % 100 = 0 ∧ year % 400 ≠ 0)) := by
  cases rule : leap year <;> simp [leap] at rule <;> simp <;> omega

private theorem beforeMonth_succ (year : Int) {month : Nat} (positive : 1 ≤ month) :
    beforeMonth year (month + 1) = beforeMonth year month + monthLength year month :=
  Finset.sum_Ico_succ_top positive _

private theorem beforeMonth_table (year : Int) {month : Nat} (first : 1 ≤ month) (last : month ≤ 13) :
    beforeMonth year month =
      if month ≤ 2 then 31 * ((month : Int) - 1)
      else monthStart (month - 3) + 59 + if leap year then 1 else 0 := by
  cases ordinary : leap year <;> interval_cases month <;>
    simp [beforeMonth, Finset.sum_Ico_succ_top, monthLength, monthStart, ordinary]

/-- Days from the first year on; a year that can be divided by four has one more, but for three
of four centuries. -/
def yearStart (year : Int) : Int :=
  365 * year + (year + 3) / 4 - (year + 99) / 100 + (year + 399) / 400

private theorem yearStart_succ (year : Int) : yearStart (year + 1) = yearStart year + yearLength year := by
  rw [yearLength, beforeMonth_table year (by decide) (by decide), if_neg (by decide)]
  rcases leap_cases year with ⟨long, rule⟩ | ⟨short, rule⟩
  · simp only [yearStart, monthStart, long, if_true]
    omega
  · simp only [yearStart, monthStart, short, Bool.false_eq_true, if_false]
    omega

private theorem sum_years (year : Int) (count : Nat) :
    ∑ n ∈ Finset.range count, yearLength (year + n) = yearStart (year + count) - yearStart year := by
  induction count with
  | zero => simp
  | succ count ih =>
    have next := yearStart_succ (year + count)
    rw [Int.add_assoc] at next
    rw [Finset.sum_range_succ, ih, Int.natCast_succ]
    omega

/-- The count of days in closed form. -/
theorem elapsed_eq (d : Date) :
    d.elapsed = yearStart d.year - 719528 + beforeMonth d.year d.month + d.day - 1 := by
  have start : yearStart 1970 = 719528 := rfl
  rw [elapsed, sum_years, sum_years, start]
  rcases Int.le_total 1970 d.year with later | earlier
  · have reached : 1970 + ((d.year - 1970).toNat : Int) = d.year := by omega
    have nothing : d.year + ((1970 - d.year).toNat : Int) = d.year := by omega
    rw [reached, nothing]
    omega
  · have nothing : 1970 + ((d.year - 1970).toNat : Int) = 1970 := by omega
    have reached : d.year + ((1970 - d.year).toNat : Int) = 1970 := by omega
    rw [nothing, reached, start]
    omega

/-- The day number, found through years that begin in March, is the plain count. -/
theorem toDays_eq_elapsed {d : Date} (valid : d.Valid) : d.toDays = d.elapsed := by
  obtain ⟨first, last⟩ := valid.month
  rw [elapsed_eq, beforeMonth_table d.year first (by omega)]
  by_cases early : d.month ≤ 2
  · simp only [toDays, yearStart, monthStart, early, if_true]
    omega
  · rcases leap_cases d.year with ⟨long, rule⟩ | ⟨short, rule⟩
    · simp only [toDays, yearStart, monthStart, early, long, if_true, if_false]
      omega
    · simp only [toDays, yearStart, monthStart, early, short, Bool.false_eq_true, if_false]
      omega

private theorem beforeMonth_mono (year : Int) {m n : Nat} (first : 1 ≤ m) (less : m < n) :
    beforeMonth year m + monthLength year m ≤ beforeMonth year n := by
  rw [← beforeMonth_succ year first]
  exact Finset.sum_le_sum_of_subset_of_nonneg (Finset.Ico_subset_Ico_right less) fun m _ _ => by omega

private theorem yearStart_mono {y z : Int} (less : y < z) : yearStart y + yearLength y ≤ yearStart z := by
  rw [← yearStart_succ]
  simp only [yearStart]
  omega

private theorem elapsed_mono {d e : Date} (left : d.Valid) (right : e.Valid) (before : d.Before e) :
    d.elapsed < e.elapsed := by
  have low := right.day.1
  have high := left.day.2
  rw [elapsed_eq, elapsed_eq]
  rcases before with year | ⟨year, month | ⟨month, day⟩⟩
  · have within : d.month < 13 := Nat.lt_succ_of_le left.month.2
    have rest := beforeMonth_mono d.year left.month.1 within
    have start : 0 ≤ beforeMonth e.year e.month := Finset.sum_nonneg fun m _ => by omega
    have years := yearStart_mono year
    rw [yearLength] at years
    omega
  · have months := beforeMonth_mono d.year left.month.1 month
    rw [year] at months high ⊢
    omega
  · rw [year, month]
    omega

/-- Valid dates come in the order of their days. -/
theorem elapsed_lt_iff {d e : Date} (left : d.Valid) (right : e.Valid) :
    d.elapsed < e.elapsed ↔ d.Before e := by
  refine ⟨fun less => ?_, elapsed_mono left right⟩
  have other := mt (elapsed_mono right left)
  have same : ¬(d.year = e.year ∧ d.month = e.month ∧ d.day = e.day) := by
    rintro ⟨year, month, day⟩
    rw [elapsed_eq, elapsed_eq, year, month, day] at less
    exact absurd less (Int.lt_irrefl _)
  have not : ¬e.Before d := other (by omega)
  unfold Before at *
  omega

private theorem monthLength_later (year : Int) {month : Nat} (first : 3 ≤ month) (last : month ≤ 12) :
    (monthLength year month : Int) = monthStart (month - 2) - monthStart (month - 3) := by
  interval_cases month <;> rfl

theorem ofDays_valid (days : Int) : (ofDays days).Valid := by
  have low : 0 ≤ (days + 719468) % 146097 := by omega
  have high : (days + 719468) % 146097 < 146097 := by omega
  obtain ⟨century, cycle, year, day, parts⟩ := eraDay_exists low high
  obtain ⟨first, last, start, _⟩ := month_bounds parts.days.1 parts.days.2
  simp only [ofDays, parts.yearOfEra, parts.dayOfYear rfl]
  obtain ⟨_, centuries, cycles, years, bounds, rule⟩ := parts
  generalize (days + 719468) / 146097 = era
  have next : day < monthStart ((5 * day + 2) / 153 + 1) := by
    unfold monthStart
    omega
  generalize (5 * day + 2) / 153 = month at *
  rcases lt_or_ge month 10 with early | late
  · have later : ¬month + 3 ≤ 2 := by omega
    have same : ((month + 3).toNat : Int) = month + 3 := by omega
    rw [if_pos early, if_neg later]
    constructor <;> dsimp only
    · omega
    have shifted : 3 ≤ (month + 3).toNat ∧ (month + 3).toNat ≤ 12 := by omega
    have room := monthLength_later (100 * century + 4 * cycle + year + era * 400) shifted.1 shifted.2
    rw [same, Int.add_sub_assoc, Int.add_sub_assoc] at room
    simp only [Int.reduceSub, Int.add_zero] at room
    omega
  · have sooner : month - 9 ≤ 2 := by omega
    rw [if_neg (not_lt.mpr late), if_pos sooner]
    constructor <;> dsimp only
    · omega
    rcases (by omega : month = 10 ∨ month = 11) with rfl | rfl
    · have room : monthLength (100 * century + 4 * cycle + year + era * 400 + 1) (10 - 9 : Int).toNat = 31 := rfl
      rw [room]
      simp only [monthStart] at *
      omega
    -- The year that begins in March ends with February, which belongs to the next year.
    · have room : monthLength (100 * century + 4 * cycle + year + era * 400 + 1) (11 - 9 : Int).toNat =
          if leap (100 * century + 4 * cycle + year + era * 400 + 1) then 29 else 28 := rfl
      rw [room]
      simp only [monthStart] at *
      rcases leap_cases (100 * century + 4 * cycle + year + era * 400 + 1) with ⟨long, _⟩ | ⟨short, _⟩
      · rw [long, if_pos rfl]
        omega
      · rw [short, if_neg Bool.false_ne_true]
        omega

/-- The date of a day is the one that the plain count gives this day. -/
theorem elapsed_ofDays (days : Int) : (ofDays days).elapsed = days := by
  rw [← toDays_eq_elapsed (ofDays_valid days), toDays_ofDays]

end Trackline.Date
