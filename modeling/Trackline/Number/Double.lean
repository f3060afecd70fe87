/-! Doubles seen as exact numbers. The bits below the sign number the magnitudes
upward from zero, so a magnitude is a `Nat`, comparing magnitudes is comparing
their numbers, and rounding a fraction is finding the number of the nearest one.
In the order of doubles NaN has no rank, and the two zeros share one.
Powers are written `Nat.pow`, so that they are the same term under any imports. -/
namespace Trackline.Double

/-- The number of infinity among the magnitudes; NaN lies beyond it. -/
def infinity : Nat := 2047 * Nat.pow 2 52

def magnitude (x : Float) : Nat := x.toBits.toNat % Nat.pow 2 63

def negative (x : Float) : Bool := decide (Nat.pow 2 63 ≤ x.toBits.toNat)

def isNaN (x : Float) : Bool := decide (infinity < magnitude x)

def isFinite (x : Float) : Bool := decide (magnitude x < infinity)

def ofMagnitude (negative : Bool) (magnitude : Nat) : Float :=
  Float.ofBits (UInt64.ofNat (magnitude + if negative then Nat.pow 2 63 else 0))

def nan : Float := Float.ofBits 0x7ff8000000000000

/-- A finite magnitude is `significand * 2 ^ exponent`. -/
def significand (magnitude : Nat) : Nat :=
  if magnitude < Nat.pow 2 52 then magnitude else Nat.pow 2 52 + magnitude % Nat.pow 2 52

def exponent (magnitude : Nat) : Int :=
  if magnitude < Nat.pow 2 52 then -1074 else (magnitude / Nat.pow 2 52 : Nat) - 1075

def roundEven (n d : Nat) : Nat :=
  if d < 2 * (n % d) ∨ (d = 2 * (n % d) ∧ n / d % 2 = 1) then n / d + 1 else n / d

/-- The magnitude nearest to `num / den`, ties to the even significand, infinity
past the largest finite one. The exponent is the one that leaves a quotient of 53
bits, or the least there is. -/
def nearest (num den : Nat) : Nat :=
  if num = 0 then 0 else
    let guess : Int := (num.log2 : Int) - den.log2 - 52
    let low := num * Nat.pow 2 (-guess).toNat < den * Nat.pow 2 guess.toNat * Nat.pow 2 52
    let e := max (-1074) (if low then guess - 1 else guess)
    min infinity
      ((e + 1074).toNat * Nat.pow 2 52 +
        roundEven (num * Nat.pow 2 (-e).toNat) (den * Nat.pow 2 e.toNat))

/-- Euclidean remainder by a whole number: exact while the sign is kept, then
moved up by the divisor when negative. -/
def modulo (x : Float) (n : Nat) : Float :=
  if isFinite x then
    let e := exponent (magnitude x)
    let r := significand (magnitude x) * Nat.pow 2 e.toNat % (n * Nat.pow 2 (-e).toNat)
    let signed := ofMagnitude (negative x) (nearest r (Nat.pow 2 (-e).toNat))
    if negative x && r != 0 then signed + Float.ofNat n else signed
  else nan

def rank (x : Float) : Option Int :=
  if isNaN x then none
  else if negative x then some (-(magnitude x : Int))
  else some (magnitude x : Int)

/-- Strict order; false as soon as one side is NaN. -/
def lt (x y : Float) : Bool :=
  match rank x, rank y with
  | some a, some b => decide (a < b)
  | _, _ => false

/-- Equality of values: NaN differs from itself, the two zeros agree. -/
def same (x y : Float) : Bool :=
  match rank x, rank y with
  | some a, some b => decide (a = b)
  | _, _ => false

/-- The lesser operand; the other one when one is NaN. -/
def least (x y : Float) : Float :=
  if isNaN x then y else if lt y x then y else x

/-- The greater operand; the other one when one is NaN. -/
def greatest (x y : Float) : Float :=
  if isNaN x then y else if lt x y then y else x

end Trackline.Double
