import Trackline.Number.Text
import Trackline.Time.Instant

/-! Timestamps: a date and a time of day at some offset from universal time. Their
plain form has a four digit year and an offset below a day, and from it the instant
is read; other timestamps have no plain form. -/
namespace Trackline

structure Timestamp where
  date : Date
  /-- Seconds since the day began. -/
  second : Nat
  nanos : Nat
  /-- Minutes ahead of universal time. -/
  offset : Int
  deriving DecidableEq, Repr

def digits? (n : Nat) (s : List Char) : Option (Nat × List Char) :=
  let front := s.take n
  if front.length = n then (readDigits front).map (·, s.drop n) else none

def past? (c : Char) : List Char → Option (List Char)
  | d :: s => if d = c then some s else none
  | [] => none

namespace Timestamp

/-- An offset of zero is `Z`; others have a sign, hours and minutes. -/
def offsetChars (offset : Int) : List Char :=
  if offset = 0 then ['Z']
  else
    (if offset < 0 then '-' else '+') :: Decimal.padded 2 (offset.natAbs / 60) ++
      ':' :: Decimal.padded 2 (offset.natAbs % 60)

/-- The plain form. A fraction is written without trailing zeros. -/
def plain? (t : Timestamp) : Option (List Char) :=
  if 0 ≤ t.date.year ∧ t.date.year ≤ 9999 ∧ t.offset.natAbs < 1440 then
    some (Decimal.padded 4 t.date.year.natAbs ++ '-' :: Decimal.padded 2 t.date.month ++
      '-' :: Decimal.padded 2 t.date.day ++ 'T' :: Decimal.padded 2 (t.second / 3600) ++
      ':' :: Decimal.padded 2 (t.second / 60 % 60) ++ ':' :: Decimal.padded 2 (t.second % 60) ++
      (Decimal.reduced t.nanos 9).chars.drop 1 ++ offsetChars t.offset)
  else none

def fraction? : List Char → Option (Nat × List Char)
  | '.' :: s =>
    let front := s.takeWhile Char.isDigit
    let kept := front.take 9
    (readDigits kept).map fun n => (n * Nat.pow 10 (9 - kept.length), s.dropWhile Char.isDigit)
  | s => some (0, s)

def offset? : List Char → Option Int
  | ['Z'] => some 0
  | sign :: s => do
    let (hours, s) ← digits? 2 s
    let (minutes, s) ← digits? 2 (← past? ':' s)
    if s ≠ [] ∨ 23 < hours ∨ 59 < minutes then none
    else if sign = '+' then return ((hours * 60 + minutes : Nat) : Int)
    else if sign = '-' then return -((hours * 60 + minutes : Nat) : Int)
    else none
  | [] => none

def ofPlain? (s : List Char) : Option Timestamp := do
  let (year, s) ← digits? 4 s
  let (month, s) ← digits? 2 (← past? '-' s)
  let (day, s) ← digits? 2 (← past? '-' s)
  let (hour, s) ← digits? 2 (← past? 'T' s)
  let (minute, s) ← digits? 2 (← past? ':' s)
  let (second, s) ← digits? 2 (← past? ':' s)
  let (nanos, s) ← fraction? s
  let offset ← offset? s
  if 1 ≤ month ∧ month ≤ 12 ∧ 1 ≤ day ∧ day ≤ Date.monthLength year month ∧
      hour ≤ 23 ∧ minute ≤ 59 ∧ second ≤ 59 then
    return ⟨⟨year, month, day⟩, hour * 3600 + minute * 60 + second, nanos, offset⟩
  else none

def unix (t : Timestamp) : Int := t.date.toDays * 86400 + t.second - t.offset * 60

/-- The instant of a timestamp that has a plain form, taken from that form. -/
def instant? (t : Timestamp) : Option Instant := do
  let plain ← ofPlain? (← t.plain?)
  Instant.of? plain.unix plain.nanos

end Timestamp
end Trackline
