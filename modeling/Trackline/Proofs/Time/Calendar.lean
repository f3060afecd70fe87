import Trackline.Time.Instant

/-! Dates of days. An era of 400 years is made of centuries, a century of cycles of four
years, and each of these may only be longer than the others where it is the last one. -/
namespace Trackline.Date

/-- A day of an era: in which century, cycle and year it is, and which day of that year. -/
structure EraDay (inEra century cycle year day : Int) : Prop where
  sum : inEra = 36524 * century + 1461 * cycle + 365 * year + day
  centuries : 0 ≤ century ∧ century ≤ 3
  cycles : 0 ≤ cycle ∧ cycle ≤ 24
  years : 0 ≤ year ∧ year ≤ 3
  days : 0 ≤ day ∧ day ≤ 365
  /-- A day more than 365 needs the last year of a cycle, and in the last cycle of a century
  the last century. -/
  leap : day < 365 ∨ (year = 3 ∧ (cycle < 24 ∨ century = 3))

theorem eraDay_exists {inEra : Int} (low : 0 ≤ inEra) (high : inEra < 146097) :
    ∃ century cycle year day, EraDay inEra century cycle year day := by
  let century := min (inEra / 36524) 3
  let inCentury := inEra - 36524 * century
  let cycle := inCentury / 1461
  let inCycle := inCentury % 1461
  let year := min (inCycle / 365) 3
  refine ⟨century, cycle, year, inCycle - 365 * year, ?_, ?_, ?_, ?_, ?_, ?_⟩ <;> omega

namespace EraDay

variable {inEra century cycle year day : Int} (parts : EraDay inEra century cycle year day)

include parts

theorem yearOfEra :
    (inEra - inEra / 1460 + inEra / 36524 - inEra / 146096) / 365 = 100 * century + 4 * cycle + year := by
  obtain ⟨sum, centuries, cycles, years, days, leap⟩ := parts
  have whole : inEra / 36524 - inEra / 146096 = century := by
    obtain ⟨inCentury, rest⟩ : ∃ inCentury, inCentury = 1461 * cycle + 365 * year + day := ⟨_, rfl⟩
    have ends : 0 ≤ inCentury ∧ (inCentury < 36524 ∨ (inCentury = 36524 ∧ century = 3)) := by omega
    have split : inEra = 36524 * century + inCentury := by omega
    clear sum rest
    omega
  -- The last days of a cycle may already count as a cycle more, but the year is its last one then.
  have counted : inEra / 1460 = 25 * century + cycle ∨
      (inEra / 1460 = 25 * century + cycle + 1 ∧ 1364 ≤ 365 * year + day) := by
    obtain ⟨inCycle, rest⟩ : ∃ inCycle, inCycle = 24 * century + cycle + (365 * year + day) := ⟨_, rfl⟩
    have split : inEra = 1460 * (25 * century + cycle) + inCycle := by omega
    have ends : 0 ≤ inCycle ∧ inCycle < 2 * 1460 := by omega
    omega
  omega

theorem dayOfYear {yearOfEra : Int} (found : yearOfEra = 100 * century + 4 * cycle + year) :
    inEra - (365 * yearOfEra + yearOfEra / 4 - yearOfEra / 100) = day := by
  obtain ⟨sum, centuries, cycles, years, days, leap⟩ := parts
  omega

end EraDay

theorem month_bounds {day : Int} (low : 0 ≤ day) (high : day ≤ 365) :
    0 ≤ (5 * day + 2) / 153 ∧ (5 * day + 2) / 153 ≤ 11 ∧ 0 ≤ day - monthStart ((5 * day + 2) / 153) ∧
      day - monthStart ((5 * day + 2) / 153) ≤ 30 := by
  unfold monthStart
  omega

private theorem era_bounds {inEra yearOfEra : Int} {century cycle year day : Int}
    (parts : EraDay inEra century cycle year day) (found : yearOfEra = 100 * century + 4 * cycle + year) :
    0 ≤ yearOfEra ∧ yearOfEra < 400 := by
  obtain ⟨_, centuries, cycles, years, _, _⟩ := parts
  omega

/-- A day that is turned into a date is found again. -/
theorem toDays_ofDays (days : Int) : (ofDays days).toDays = days := by
  have low : 0 ≤ (days + 719468) % 146097 := by omega
  have high : (days + 719468) % 146097 < 146097 := by omega
  obtain ⟨century, cycle, year, day, parts⟩ := eraDay_exists low high
  obtain ⟨first, last, start, _⟩ := month_bounds parts.days.1 parts.days.2
  have found := parts.dayOfYear rfl
  obtain ⟨least, most⟩ := era_bounds parts rfl
  simp only [ofDays, parts.yearOfEra, found]
  generalize 100 * century + 4 * cycle + year = yearOfEra at *
  -- What is left is linear once the year of the era and the start of the month are known.
  have era : (yearOfEra + (days + 719468) / 146097 * 400) / 400 = (days + 719468) / 146097 := by omega
  have inEra : (yearOfEra + (days + 719468) / 146097 * 400) % 400 = yearOfEra := by omega
  generalize (5 * day + 2) / 153 = month at *
  generalize started : monthStart month = begins at *
  by_cases early : month < 10
  · have later : ¬(month + 3).toNat ≤ 2 := by omega
    have same : ((month + 3).toNat : Int) - 3 = month := by omega
    have late : ¬month + 3 ≤ 2 := by omega
    simp only [toDays, if_pos early, if_neg later, if_neg late, same, started, era, inEra]
    omega
  · have sooner : (month - 9).toNat ≤ 2 := by omega
    have same : ((month - 9).toNat : Int) + 9 = month := by omega
    have soon : month - 9 ≤ 2 := by omega
    simp only [toDays, if_neg early, if_pos sooner, if_pos soon, same, started, Int.add_sub_cancel, era,
      inEra]
    omega

end Trackline.Date
