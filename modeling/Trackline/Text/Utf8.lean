/-! Text from bytes. Each character has one form in bytes, the shortest; surrogates
and numbers past the last character have none. -/
namespace Trackline.Utf8

def char? (n : Nat) : Option Char :=
  if h : n.isValidChar then some (Char.ofNatAux n h) else none

/-- The low six bits of a byte that continues a character. -/
def tail? (b : UInt8) : Option Nat :=
  if 0x80 ≤ b ∧ b < 0xC0 then some (b.toNat - 0x80) else none

def first? : List UInt8 → Option (Char × List UInt8)
  | a :: rest =>
    if a < 0x80 then (char? a.toNat).map (·, rest)
    else if a < 0xC2 then none
    else if a < 0xE0 then
      match rest with
      | b :: rest => do
        let n := (a.toNat - 0xC0) * 64 + (← tail? b)
        return (← char? n, rest)
      | _ => none
    else if a < 0xF0 then
      match rest with
      | b :: c :: rest => do
        let n := ((a.toNat - 0xE0) * 64 + (← tail? b)) * 64 + (← tail? c)
        if n < 0x800 then none else return (← char? n, rest)
      | _ => none
    else
      match rest with
      | b :: c :: d :: rest => do
        let n := (((a.toNat - 0xF0) * 64 + (← tail? b)) * 64 + (← tail? c)) * 64 + (← tail? d)
        if n < 0x10000 then none else return (← char? n, rest)
      | _ => none
  | [] => none

theorem length_first? {bytes rest : List UInt8} {c : Char}
    (found : first? bytes = some (c, rest)) : rest.length < bytes.length := by
  unfold first? at found
  repeat' split at found
  all_goals simp_all [Option.bind_eq_some_iff]
  all_goals grind

/-- The characters up to the first bytes that are none, behind those already read,
which are kept reversed, and the bytes that are left. -/
def span : Nat → List Char → List UInt8 → List Char × List UInt8
  | 0, read, bytes => (read.reverse, bytes)
  | fuel + 1, read, bytes =>
    match first? bytes with
    | some (c, rest) => span fuel (c :: read) rest
    | none => (read.reverse, bytes)

def decode? (bytes : List UInt8) : Option (List Char) :=
  match span bytes.length [] bytes with
  | (chars, []) => some chars
  | _ => none

end Trackline.Utf8
