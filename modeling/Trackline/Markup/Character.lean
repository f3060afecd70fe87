/-! The characters of marked-up text: blanks, those of names, those that an edition
allows, and the ones that references name or number. -/
namespace Trackline.Markup

def blank (c : Char) : Bool := c == ' ' || c == '\t' || c == '\n' || c == '\r'

def between (low high n : Nat) : Bool := low ≤ n && n ≤ high

def nameStart (c : Char) : Bool :=
  let n := c.toNat
  c == ':' || c == '_' || c.isAlpha || between 0xC0 0xD6 n || between 0xD8 0xF6 n ||
    between 0xF8 0x2FF n || between 0x370 0x37D n || between 0x37F 0x1FFF n ||
    between 0x200C 0x200D n || between 0x2070 0x218F n || between 0x2C00 0x2FEF n ||
    between 0x3001 0xD7FF n || between 0xF900 0xFDCF n || between 0xFDF0 0xFFFD n ||
    between 0x10000 0xEFFFF n

def nameChar (c : Char) : Bool :=
  let n := c.toNat
  nameStart c || c == '-' || c == '.' || c.isDigit || n == 0xB7 || between 0x300 0x3F6 n ||
    between 0x203F 0x2040 n

/-- The editions of the language, which differ in the control characters they let in. -/
inductive Edition where
  | v10
  | v11
  deriving DecidableEq, Repr

namespace Edition

def allows (e : Edition) (c : Char) : Bool :=
  let n := c.toNat
  between 0xE000 0xFFFD n || between 0x10000 0x10FFFF n ||
    match e with
    | .v10 => blank c || between 0x20 0xD7FF n
    | .v11 => between 1 0xD7FF n

def plain (e : Edition) (c : Char) : Bool :=
  let n := c.toNat
  e.allows c &&
    match e with
    | .v10 => true
    | .v11 => blank c || n == 0x85 || between 0x20 0x7E n || 0xA0 ≤ n

end Edition

def digit? (base : Nat) (c : Char) : Option Nat :=
  let n := if c.isDigit then c.toNat - 48
    else if 'a' ≤ c ∧ c ≤ 'f' then c.toNat - 87
    else if 'A' ≤ c ∧ c ≤ 'F' then c.toNat - 55
    else base
  if n < base then some n else none

/-- A number of digits in a base, with or without a plus sign. -/
def count? (base : Nat) (s : List Char) : Option Nat :=
  let digits := match s with
    | '+' :: digits => digits
    | digits => digits
  if digits.isEmpty then none
  else digits.foldlM (fun n c => (digit? base c).map (n * base + ·)) 0

/-- The character of a decimal number, or after an `x` of a hexadecimal one. -/
def numbered? (e : Edition) (number : List Char) : Option Char := do
  let n ← match number with
    | 'x' :: digits => count? 16 digits
    | digits => count? 10 digits
  let c := Char.ofNat n
  if c.toNat = n ∧ e.allows c then some c else none

def named? (name : List Char) : Option Char :=
  match String.ofList name with
  | "lt" => some '<'
  | "gt" => some '>'
  | "amp" => some '&'
  | "apos" => some '\''
  | "quot" => some '"'
  | _ => none

end Trackline.Markup
