import Trackline.Time.Timestamp

/-! Reading timestamps in the forms of the international standard. The date is a day
of a month, of a year or of a week, the parts with dashes between them or without; the
time of day may end after any part and that part may have a fraction; its parts stand
with colons exactly if the date has dashes. Without an offset the time is universal, and
what is read is told in universal time. -/
namespace Trackline.Timestamp

/-- A year of four digits, or a sign and six. -/
def year? : List Char → Option (Int × List Char)
  | s => do
    let (year, rest) ← match s with
      | '+' :: s => (digits? 6 s).map fun r => ((r.1 : Int), r.2)
      | '-' :: s => (digits? 6 s).map fun r => (-(r.1 : Int), r.2)
      | s => (digits? 4 s).map fun r => ((r.1 : Int), r.2)
    if year.natAbs ≤ 9999 then some (year, rest) else none

def separator? (extended : Bool) (c : Char) (s : List Char) : Option (List Char) :=
  if extended then past? c s else some s

/-- A month and a day that are not plainly impossible. -/
def monthDay? (extended : Bool) (s : List Char) : Option (Nat × Nat × List Char) := do
  let (month, s) ← digits? 2 s
  let (day, s) ← digits? 2 (← separator? extended '-' s)
  if 1 ≤ month ∧ month ≤ 12 ∧ 1 ≤ day then some (month, day, s) else none

/-- The day number of the Monday that begins the first week of a year, the week of
the fourth of January. -/
def firstMonday (year : Int) : Int :=
  let fourth := Date.toDays ⟨year, 1, 4⟩
  fourth - (fourth + 3) % 7

def weekDay? (extended : Bool) (year : Int) (s : List Char) : Option (Date × List Char) := do
  let (week, s) ← digits? 2 (← past? 'W' s)
  let (day, s) ← digits? 1 (← separator? extended '-' s)
  let start := firstMonday year
  if 1 ≤ week ∧ (week : Int) * 7 ≤ firstMonday (year + 1) - start ∧ 1 ≤ day ∧ day ≤ 7 then
    some (Date.ofDays (start + (week - 1) * 7 + (day - 1)), s)
  else none

def yearDay? (year : Int) (s : List Char) : Option (Date × List Char) := do
  let (day, s) ← digits? 3 s
  if 1 ≤ day ∧ day ≤ 365 + (if Date.leap year then 1 else 0) then
    some (Date.ofDays (Date.toDays ⟨year, 1, 1⟩ + (day - 1)), s)
  else none

/-- A date of a year of four digits, and whether it has dashes. -/
def date? (s : List Char) : Option (Date × Bool × List Char) := do
  let (year, s) ← year? s
  let (extended, s) := match past? '-' s with
    | some rest => (true, rest)
    | none => (false, s)
  match monthDay? extended s with
  | some (month, day, rest) =>
    if day ≤ Date.monthLength year month then some (⟨year, month, day⟩, extended, rest) else none
  | none =>
    let (date, rest) ← (if (digits? 3 s).isSome then yearDay? year s else weekDay? extended year s)
    if date.year.natAbs ≤ 9999 then some (date, extended, rest) else none

/-- The value of digits after a decimal sign, added up digit by digit. -/
def fractionOf (digits : List Char) : Float :=
  (digits.foldl (fun (acc : Float × Float) c =>
    let divisor := acc.2 * 10
    (acc.1 + Float.ofNat (c.toNat - 48) / divisor, divisor)) (0, 1)).1

/-- Two digits, and a fraction after a point or a comma. -/
def part? (s : List Char) : Option (Nat × Option Float × List Char) := do
  let (whole, s) ← digits? 2 s
  match s with
  | c :: rest =>
    if c = '.' ∨ c = ',' then
      let digits := rest.takeWhile Char.isDigit
      if digits.isEmpty then none
      else some (whole, some (fractionOf digits), rest.dropWhile Char.isDigit)
    else some (whole, none, s)
  | [] => some (whole, none, [])

def whole (x : Float) : Nat := x.toUInt64.toNat

/-- A time of day as its second and nanoseconds. The second 60 is let through here. -/
def time? (extended : Bool) (s : List Char) : Option (Nat × Nat × Nat × Nat × List Char) := do
  let (hour, fraction, s) ← part? s
  if 23 < hour then none
  match fraction with
  | some f =>
    if 59 < whole (f * 60) then none
    return (hour, whole (f * 60), whole (Double.modulo (f * 3600) 60),
      whole (Double.modulo (f * 3600000000000) 1000000000), s)
  | none =>
    let colon := past? ':' s
    if !extended && colon.isSome then none
    match part? (colon.getD s) with
    | none => if extended then none else return (hour, 0, 0, 0, s)
    | some (minute, fraction, s) =>
      if 59 < minute then none
      match fraction with
      | some f => return (hour, minute, whole (f * 60), whole (Double.modulo (f * 60000000000) 1000000000), s)
      | none =>
        let colon := past? ':' s
        if extended && colon.isNone then return (hour, minute, 0, 0, s)
        let s := if extended then colon.getD s else s
        match part? s with
        | none => if extended then none else return (hour, minute, 0, 0, s)
        | some (second, fraction, s) =>
          let nanos := (fraction.map fun f => whole (f * 1000000000).round).getD 0
          if 60 < second ∨ 999999999 < nanos then none else return (hour, minute, second, nanos, s)

/-- An offset of hours and perhaps minutes, in minutes. -/
def shift? (extended : Bool) (s : List Char) : Option Int :=
  match s with
  | ['Z'] => some 0
  | sign :: s => do
    let (hours, s) ← digits? 2 s
    let s := if extended then (past? ':' s).getD s else s
    let (minutes, s) := (digits? 2 s).getD (0, s)
    if s ≠ [] ∨ 25 < hours ∨ 59 < minutes then none
    else if sign = '+' then return ((hours * 60 + minutes : Nat) : Int)
    else if sign = '-' then return -((hours * 60 + minutes : Nat) : Int)
    else none
  | [] => none

/-- Whether a timestamp is in the last second of a month of universal time. -/
def endsMonth (t : Timestamp) : Bool :=
  let date := Date.ofDays (t.unix / 86400)
  t.unix % 86400 == 86399 && date.day == Date.monthLength date.year date.month &&
    date.year.natAbs ≤ 9999

def universal (t : Timestamp) : Timestamp :=
  ⟨Date.ofDays (t.unix / 86400), (t.unix % 86400).toNat, t.nanos, 0⟩

/-- A timestamp in any of the forms. A second 60 can only be the one inserted at the
end of a month, and counts as the last moment of the second before. -/
def read? (s : List Char) : Option Timestamp := do
  let (date, extended, s) ← date? s
  let (hour, minute, second, nanos, s) ← time? extended (← past? 'T' s)
  let offset ← if s.isEmpty then some none else (shift? extended s).map some
  if second = 60 then
    let t : Timestamp := ⟨date, hour * 3600 + minute * 60 + 59, 999999999, offset.getD 0⟩
    if offset.isSome && endsMonth t then some t.universal else none
  else
    let t : Timestamp := ⟨date, hour * 3600 + minute * 60 + second, nanos, offset.getD 0⟩
    some t.universal

end Trackline.Timestamp
