import Trackline.Number.Decimal

/-! Instants in universal time, the spans between them, and the proleptic Gregorian
calendar. Days are counted from 1970-01-01, and the year is taken to begin in March, so
that the leap day is its last day. -/
namespace Trackline

structure Date where
  year : Int
  month : Nat
  day : Nat
  deriving DecidableEq, Repr

namespace Date

def leap (year : Int) : Bool := year % 4 == 0 && (year % 100 != 0 || year % 400 == 0)

def monthLength (year : Int) (month : Nat) : Nat :=
  if month = 2 then (if leap year then 29 else 28)
  else if month = 4 ∨ month = 6 ∨ month = 9 ∨ month = 11 then 30
  else 31

/-- Days of the year before the first of a month counted from March. -/
def monthStart (fromMarch : Int) : Int := (153 * fromMarch + 2) / 5

def toDays (d : Date) : Int :=
  let year := if d.month ≤ 2 then d.year - 1 else d.year
  let fromMarch := if d.month ≤ 2 then (d.month : Int) + 9 else (d.month : Int) - 3
  let inEra := year % 400
  year / 400 * 146097 + inEra * 365 + inEra / 4 - inEra / 100
    + monthStart fromMarch + d.day - 719469

def ofDays (days : Int) : Date :=
  let shifted := days + 719468
  let inEra := shifted % 146097
  let yearOfEra := (inEra - inEra / 1460 + inEra / 36524 - inEra / 146096) / 365
  let dayOfYear := inEra - (365 * yearOfEra + yearOfEra / 4 - yearOfEra / 100)
  let fromMarch := (5 * dayOfYear + 2) / 153
  let month := if fromMarch < 10 then fromMarch + 3 else fromMarch - 9
  let year := yearOfEra + shifted / 146097 * 400
  ⟨if month ≤ 2 then year + 1 else year, month.toNat, (dayOfYear - monthStart fromMarch + 1).toNat⟩

end Date

/-- Seconds since 1970-01-01, with a fraction in nanoseconds. -/
structure Instant where
  seconds : Int
  nanos : Nat
  earliest : -8334601228800 ≤ seconds
  latest : seconds ≤ 8210266876799
  deriving DecidableEq

namespace Instant

def of? (seconds : Int) (nanos : Nat) : Option Instant :=
  if h : -8334601228800 ≤ seconds ∧ seconds ≤ 8210266876799 then
    some ⟨seconds, nanos, h.1, h.2⟩
  else none

theorem of?_none (seconds : Int) (nanos : Nat) : of? seconds nanos = none ↔
    ¬(-8334601228800 ≤ seconds ∧ seconds ≤ 8210266876799) := by
  rw [of?]
  split <;> simp [*]

theorem of?_some {seconds : Int} {nanos : Nat} {t : Instant} (found : of? seconds nanos = some t) :
    t.seconds = seconds ∧ t.nanos = nanos := by
  rw [of?] at found
  split at found
  · cases found
    exact ⟨rfl, rfl⟩
  · contradiction

/-- Four digits, or more with a sign in front, which negative years have too. -/
def yearText (year : Int) : List Char :=
  if year < 0 then '-' :: Decimal.padded 4 year.natAbs
  else if 9999 < year then '+' :: Decimal.padded 4 year.natAbs
  else Decimal.padded 4 year.natAbs

/-- Date and time of day to the second; a fraction is dropped. -/
def chars (t : Instant) : List Char :=
  let date := Date.ofDays (t.seconds / 86400)
  let second := (t.seconds % 86400).toNat
  yearText date.year ++ '-' :: Decimal.padded 2 date.month ++ '-' :: Decimal.padded 2 date.day
    ++ 'T' :: Decimal.padded 2 (second / 3600) ++ ':' :: Decimal.padded 2 (second / 60 % 60)
    ++ ':' :: Decimal.padded 2 (second % 60) ++ ['Z']

def text (t : Instant) : String := String.ofList t.chars

end Instant

structure TimeSpan where
  start : Instant
  stop : Instant
  deriving DecidableEq

/-- A span between two whole seconds, both in the range of instants. -/
def TimeSpan.ofUnix? (start stop : Int) : Option TimeSpan := do
  return ⟨← Instant.of? start 0, ← Instant.of? stop 0⟩

end Trackline
