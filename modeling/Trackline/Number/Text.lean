import Trackline.Number.Decimal

/-! How numbers are written and read. Written are the shortest digits that read back,
positional at any size, with no point on whole numbers and a sign on negative zero; or
a fixed number of places for reports. Digits to be read are ASCII, blanks are not
allowed, and the whole text has to be used. -/
namespace Trackline

namespace Double

def written (digits : Nat → List Char) (x : Float) : List Char :=
  if isNaN x then "NaN".toList
  else
    let sign := if negative x then ['-'] else []
    if isFinite x then sign ++ digits (magnitude x) else sign ++ "inf".toList

def chars (x : Float) : List Char :=
  written (fun m => (Decimal.shortest m).chars) x

def text (x : Float) : String := String.ofList (chars x)

/-- Rounded to `places` digits after the point from the exact value, a half to the even digit. -/
def fixed (places : Nat) (x : Float) : String :=
  String.ofList (written digits x)
where
  digits (m : Nat) : List Char :=
    let d := Decimal.exact m
    let n := roundEven (d.digits * Nat.pow 10 places) (Nat.pow 10 (-d.scale).toNat)
    Decimal.pointed n places

end Double

def signed : List Char → Bool × List Char
  | '-' :: rest => (true, rest)
  | '+' :: rest => (false, rest)
  | rest => (false, rest)

def readDigits (s : List Char) : Option Nat :=
  if s.isEmpty || s.any (!·.isDigit) then none else some (Nat.ofDigitChars 10 s 0)

def readInt (s : List Char) : Option Int :=
  let (negative, rest) := signed s
  (readDigits rest).map fun n => if negative then -(n : Int) else n

/-- A count below `2 ^ 64`; it may carry a plus sign but no minus sign. -/
def readCount (s : List Char) : Option Nat :=
  match s with
  | '-' :: _ => none
  | _ => (readDigits (signed s).2).filter (· < Nat.pow 2 64)

namespace Decimal

/-- Digits with an optional point and an optional exponent; one digit is needed
before the exponent, on either side of the point. -/
def read? (s : List Char) : Option Decimal :=
  let whole := s.takeWhile Char.isDigit
  let rest := s.dropWhile Char.isDigit
  let (fraction, rest) := match rest with
    | '.' :: r => (r.takeWhile Char.isDigit, r.dropWhile Char.isDigit)
    | _ => ([], rest)
  if whole.isEmpty && fraction.isEmpty then none
  else
    let exponent := match rest with
      | [] => some 0
      | c :: r => if c = 'e' ∨ c = 'E' then readInt r else none
    exponent.map fun e => ⟨Nat.ofDigitChars 10 (whole ++ fraction) 0, e - fraction.length⟩

end Decimal

namespace Double

/-- A number, or the words for infinity and NaN in any case, after an optional sign. -/
def read? (s : List Char) : Option Float :=
  let (negative, rest) := signed s
  let word := rest.map Char.toLower
  if word = "inf".toList ∨ word = "infinity".toList then some (ofMagnitude negative infinity)
  else if word = "nan".toList then some nan
  else (Decimal.read? rest).map fun d => ofMagnitude negative d.magnitude

end Double
end Trackline
