import Trackline.Number.Double

/-! Decimal numbers and the doubles they stand for. -/
namespace Trackline

structure Decimal where
  digits : Nat
  scale : Int
  deriving DecidableEq, Repr

namespace Decimal

/-- The nearest magnitude. Beyond the range of doubles the power of ten is not
worked out: below `10 ^ -324` all is zero, from `10 ^ 309` on all is infinite. -/
def magnitude (d : Decimal) : Nat :=
  let size : Int := (Nat.toDigits 10 d.digits).length + d.scale
  if d.digits = 0 ∨ size ≤ -324 then 0
  else if 310 ≤ size then Double.infinity
  else Double.nearest (d.digits * Nat.pow 10 d.scale.toNat) (Nat.pow 10 (-d.scale).toNat)

def reduced (digits : Nat) : Nat → Decimal
  | 0 => ⟨digits, 0⟩
  | places + 1 =>
    if digits % 10 = 0 then reduced (digits / 10) places else ⟨digits, -(places + 1 : Nat)⟩

def exact (magnitude : Nat) : Decimal :=
  let e := Double.exponent magnitude
  if 0 ≤ e then ⟨Double.significand magnitude * Nat.pow 2 e.toNat, 0⟩
  else reduced (Double.significand magnitude * Nat.pow 5 (-e).toNat) (-e).toNat

def multiple (scale : Int) (digits : Nat) : Decimal :=
  if 0 ≤ scale then ⟨digits, scale⟩ else reduced digits (-scale).toNat

/-- The multiples of `10 ^ scale` next to a magnitude, the nearer one first and
the upper one first at equal distance. -/
def neighbours (magnitude : Nat) (scale : Int) : List Decimal :=
  let e := Double.exponent magnitude
  let num := Double.significand magnitude * Nat.pow 2 e.toNat * Nat.pow 10 (-scale).toNat
  let den := Nat.pow 2 (-e).toNat * Nat.pow 10 scale.toNat
  let q := num / den
  (if 2 * (num % den) < den then [q, q + 1] else [q + 1, q]).map (multiple scale)

def leading (magnitude : Nat) : Int :=
  let e := Double.exponent magnitude
  let m := Double.significand magnitude
  let guess := (((m.log2 : Int) + e) * 30103).fdiv 100000
  let next := guess + 1
  if Nat.pow 2 (-e).toNat * Nat.pow 10 next.toNat ≤ m * Nat.pow 2 e.toNat * Nat.pow 10 (-next).toNat then
    next
  else guess

/-- The fewest digits that read back as the magnitude, and of these the nearest.
Seventeen are enough for every double. -/
def shortest (magnitude : Nat) : Decimal :=
  let found := (List.range 17).findSome? fun (n : Nat) =>
    (neighbours magnitude (leading magnitude - n)).find? fun d => d.magnitude = magnitude
  found.getD (exact magnitude)

def padded (width n : Nat) : List Char :=
  let ds := Nat.toDigits 10 n
  List.replicate (width - ds.length) '0' ++ ds

/-- A number with `places` digits after the point, and no point when there are none. -/
def pointed (digits places : Nat) : List Char :=
  if places = 0 then Nat.toDigits 10 digits
  else Nat.toDigits 10 (digits / Nat.pow 10 places) ++ '.' :: padded places (digits % Nat.pow 10 places)

def chars (d : Decimal) : List Char :=
  if 0 ≤ d.scale then pointed (d.digits * Nat.pow 10 d.scale.toNat) 0 else pointed d.digits (-d.scale).toNat

end Decimal
end Trackline
