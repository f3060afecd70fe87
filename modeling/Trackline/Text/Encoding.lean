import Trackline.Text.Utf8

/-! Characters from bytes in one of several encodings, one at a time. A mark in front
settles the encoding; without one the bytes are taken for UTF-8 until the text itself
names its encoding. -/
namespace Trackline

namespace Utf16

/-- The unit of two bytes, the greater one first or last. -/
def unit (greaterFirst : Bool) (a b : UInt8) : Nat :=
  if greaterFirst then a.toNat * 256 + b.toNat else b.toNat * 256 + a.toNat

def pair? (high low : Nat) : Option Char :=
  if 0xD800 ≤ high ∧ high < 0xDC00 ∧ 0xDC00 ≤ low ∧ low < 0xE000 then
    Utf8.char? (0x10000 + (high - 0xD800) * 0x400 + (low - 0xDC00))
  else none

def first? (greaterFirst : Bool) : List UInt8 → Option (Char × List UInt8)
  | a :: b :: rest =>
    match Utf8.char? (unit greaterFirst a b), rest with
    | some c, rest => some (c, rest)
    | none, c :: d :: rest =>
      (pair? (unit greaterFirst a b) (unit greaterFirst c d)).map (·, rest)
    | none, _ => none
  | _ => none

theorem length_first? {greaterFirst : Bool} {bytes rest : List UInt8} {c : Char}
    (found : first? greaterFirst bytes = some (c, rest)) : rest.length < bytes.length := by
  unfold first? at found
  repeat' split at found
  all_goals simp_all
  all_goals grind

end Utf16

inductive Encoding where
  | utf8
  | latin1
  | ascii
  | utf16 (greaterFirst : Bool)
  deriving DecidableEq, Repr

namespace Encoding

def first? (e : Encoding) (bytes : List UInt8) : Option (Char × List UInt8) :=
  match e, bytes with
  | .utf8, bytes => Utf8.first? bytes
  | .utf16 greaterFirst, bytes => Utf16.first? greaterFirst bytes
  | .latin1, b :: rest => some (Char.ofNat b.toNat, rest)
  | .ascii, b :: rest => if b < 0x80 then some (Char.ofNat b.toNat, rest) else none
  | _, [] => none

theorem length_first? {e : Encoding} {bytes rest : List UInt8} {c : Char}
    (found : e.first? bytes = some (c, rest)) : rest.length < bytes.length := by
  unfold first? at found
  split at found
  · exact Utf8.length_first? found
  · exact Utf16.length_first? found
  all_goals simp_all

/-- Whether a given name is a known one, as far as the shorter of both goes. -/
def agrees (known : String) (given : List Char) : Bool :=
  (known.toList.zip given).all fun p => p.1 == p.2.toLower

end Encoding

structure Encoded where
  bytes : List UInt8
  encoding : Encoding := .utf8
  /-- Whether a mark in front has settled the encoding. -/
  marked : Bool := false
  deriving DecidableEq

namespace Encoded

/-- The bytes behind a mark, if there is one. -/
def ofBytes : List UInt8 → Encoded
  | 0xEF :: 0xBB :: 0xBF :: rest => ⟨rest, .utf8, true⟩
  | 0xFE :: 0xFF :: rest => ⟨rest, .utf16 true, true⟩
  | 0xFF :: 0xFE :: rest => ⟨rest, .utf16 false, true⟩
  | bytes => ⟨bytes, .utf8, false⟩

def next? (s : Encoded) : Option (Char × Encoded) :=
  (s.encoding.first? s.bytes).map fun (c, rest) => (c, { s with bytes := rest })

theorem length_next? {s next : Encoded} {c : Char} (found : s.next? = some (c, next)) :
    next.bytes.length < s.bytes.length := by
  simp only [next?, Option.map_eq_some_iff] at found
  obtain ⟨⟨d, rest⟩, found, same⟩ := found
  cases same
  exact Encoding.length_first? found

/-- The encoding that a text goes on in once it names one. A mark has to agree with the
name, and two-byte units cannot be named without one. -/
def declared? (s : Encoded) (name : List Char) : Option Encoding :=
  let isAny (names : List String) : Bool := names.any (Encoding.agrees · name)
  let become (e : Encoding) : Option Encoding :=
    if !s.marked || s.encoding = e then some e else none
  if isAny ["utf-8", "utf8"] then become .utf8
  else if isAny ["iso-8859-1", "latin1"] then become .latin1
  else if isAny ["utf-16", "utf16"] then
    match s.encoding with
    | .utf16 greaterFirst => some (.utf16 greaterFirst)
    | _ => none
  else if isAny ["ascii", "us-ascii"] then become .ascii
  else none

end Encoded
end Trackline
