import Mathlib
import Trackline.Proofs.Number.Range
import Trackline.Proofs.Number.Text

/-! Finite numbers in texts. A double is written in digits just when it is finite, and a text is read as a
finite double just when it is a decimal below the limit: the words for infinity and NaN are read as well.
So every double, finite or not, reads back from its text. -/
namespace Trackline

def Digits (s : List Char) : Prop := s ≠ [] ∧ ∀ c ∈ s, c.isDigit = true

inductive Unsigned : List Char → Prop
  | whole {s : List Char} (digits : Digits s) : Unsigned s
  | pointed {s t : List Char} (before : Digits s) (behind : Digits t) : Unsigned (s ++ '.' :: t)

/-- Digits, with an optional minus sign in front and an optional point with digits behind. -/
def Numeral (s : List Char) : Prop :=
  ∃ sign digits, s = sign ++ digits ∧ (sign = [] ∨ sign = ['-']) ∧ Unsigned digits

/-- What is written of a number that has no digits. -/
def Word (s : List Char) : Prop := s = "NaN".toList ∨ s = "inf".toList ∨ s = "-inf".toList

private theorem Unsigned.head {s : List Char} (written : Unsigned s) :
    ∃ c rest, s = c :: rest ∧ c.isDigit = true := by
  obtain ⟨⟨nonempty, digits⟩⟩ | ⟨⟨nonempty, digits⟩, _⟩ := written
  all_goals
    obtain ⟨c, rest, rfl⟩ := List.exists_cons_of_ne_nil nonempty
    exact ⟨c, _, rfl, digits c List.mem_cons_self⟩

theorem Numeral.not_word {s : List Char} (written : Numeral s) : ¬Word s := by
  obtain ⟨sign, digits, rfl, signs, unsigned⟩ := written
  obtain ⟨c, rest, rfl, digit⟩ := unsigned.head
  rcases signs with rfl | rfl <;> rintro (word | word | word) <;> simp_all

private theorem Decimal.chars_unsigned (d : Decimal) : Unsigned d.chars := by
  have whole : ∀ n, Unsigned (Nat.toDigits 10 n) := fun n => .whole ⟨Nat.toDigits_ne_nil, toDigits_digits n⟩
  rw [chars_eq]
  split
  case isTrue _ =>
    rw [pointed_eq, if_pos rfl]
    exact whole _
  case isFalse negative =>
    have places : (-d.scale).toNat ≠ 0 := by omega
    have padding : padded (-d.scale).toNat (d.digits % 10 ^ (-d.scale).toNat) ≠ [] := by
      simp [padded]
    rw [pointed_eq, if_neg places]
    exact .pointed ⟨Nat.toDigits_ne_nil, toDigits_digits _⟩ ⟨padding, padded_digits⟩

namespace Double

/-- The words stand for what is not finite, and everything else is written in digits. -/
theorem numeral_chars (x : Float) :
    (Numeral (chars x) ∨ Word (chars x)) ∧ (Numeral (chars x) ↔ isFinite x = true) := by
  rcases chars_cases x with ⟨nan, word⟩ | ⟨infinite, word⟩ | ⟨finite, digits⟩
  · have named : Word (chars x) := .inl word
    have size : infinity < magnitude x := of_decide_eq_true nan
    exact ⟨.inr named, iff_of_false (fun number => number.not_word named) (by simp [isFinite, size.le])⟩
  · have named : Word (chars x) := .inr (by rw [word]; cases negative x <;> simp)
    exact ⟨.inr named, iff_of_false (fun number => number.not_word named) (by simp [isFinite, infinite])⟩
  · have number : Numeral (chars x) :=
      ⟨_, _, digits, by cases negative x <;> simp, Decimal.chars_unsigned _⟩
    exact ⟨.inl number, iff_of_true number (by simpa [isFinite] using finite)⟩

private theorem ofMagnitude_valid (sign : Bool) {m : Nat} (bound : m ≤ infinity) :
    Float.Model.Format.binary64.Valid (UInt64.ofNat (m + if sign then Nat.pow 2 63 else 0)).toBitVec := by
  rw [infinity_eq] at bound
  have wide : Nat.pow 2 63 = 2 ^ 63 := rfl
  refine ⟨fun exponent mantissa => absurd ?_ mantissa⟩
  have ones := congrArg BitVec.toNat exponent
  simp only [Float.Model.UnpackedFloat.unpackExponent, BitVec.toNat_cast, BitVec.extractLsb_toNat,
    Nat.shiftRight_eq_div_pow] at ones
  change (UInt64.ofNat _).toNat / 2 ^ 52 % 2 ^ 11 = 2047 at ones
  apply BitVec.eq_of_toNat_eq
  simp only [Float.Model.UnpackedFloat.unpackMantissa, BitVec.toNat_cast, BitVec.extractLsb_toNat,
    Nat.shiftRight_eq_div_pow]
  change (UInt64.ofNat _).toNat / 2 ^ 0 % 2 ^ 52 = 0
  rw [UInt64.toNat_ofNat'] at ones ⊢
  cases sign <;> simp only [wide, if_true, Bool.false_eq_true, if_false] at ones ⊢ <;> omega

private theorem toBits_ofBits {b : UInt64} (valid : Float.Model.Format.binary64.Valid b.toBitVec) :
    (Float.ofBits b).toBits = b :=
  UInt64.toBitVec_inj.mp (Float.Model.UnpackedFloat.pack_unpack_of_valid valid)

private theorem magnitude_ofMagnitude (sign : Bool) {m : Nat} (bound : m ≤ infinity) :
    magnitude (ofMagnitude sign m) = m := by
  rw [infinity_eq] at bound
  rw [magnitude_eq, ofMagnitude, toBits_ofBits (ofMagnitude_valid sign bound), UInt64.toNat_ofNat']
  cases sign <;> simp <;> omega

private theorem negative_ofMagnitude (sign : Bool) {m : Nat} (bound : m ≤ infinity) :
    negative (ofMagnitude sign m) = sign := by
  rw [infinity_eq] at bound
  have wide : Nat.pow 2 63 = 2 ^ 63 := rfl
  rw [negative, ofMagnitude, toBits_ofBits (ofMagnitude_valid sign bound), UInt64.toNat_ofNat', wide]
  cases sign <;> simp <;> omega

private theorem ofMagnitude_parts {x : Float} (number : magnitude x ≤ infinity) :
    ofMagnitude (negative x) (magnitude x) = x :=
  ext_parts (negative_ofMagnitude _ number) (magnitude_ofMagnitude _ number)

end Double

private theorem digit_toLower {c : Char} (digit : c.isDigit = true) : c.toLower = c := by
  apply Char.toLower_eq_of_not_isUpper
  intro upper
  simp only [Char.isDigit, Char.isUpper, Bool.and_eq_true, decide_eq_true_eq] at digit upper
  have above : '9'.val < 'A'.val := by decide
  exact UInt32.not_le.mpr above (UInt32.le_trans upper.1 digit.2)

private theorem Decimal.read?_word {s : List Char} {c : Char} {rest : List Char} (word : s.map Char.toLower = c :: rest)
    (letter : c.isDigit = false) (point : c ≠ '.') : read? s = none := by
  obtain ⟨first, others, rfl, rfl, _⟩ := List.map_eq_cons_iff.mp word
  have undigit : first.isDigit = false := by
    by_contra digit
    rw [digit_toLower (by simpa using digit)] at letter
    exact digit letter
  simp only [read?, List.takeWhile_cons, List.dropWhile_cons, undigit, Bool.false_eq_true, if_false,
    List.isEmpty_nil, Bool.true_and]
  split
  next opened =>
    rw [(List.cons.inj opened).1] at point
    exact absurd rfl point
  next => rfl

/-- A decimal after an optional sign, below the limit of finite doubles. -/
def Moderate (cell : List Char) : Prop := ∃ d, Decimal.read? (signed cell).2 = some d ∧ d.value < Double.limit

theorem Double.read?_finite_iff {cell : List Char} {x : Float} (read : Double.read? cell = some x) :
    isFinite x = true ↔ Moderate cell := by
  unfold Moderate
  simp only [Double.read?] at read
  split at read
  case isTrue word =>
    have size : magnitude x = infinity := by
      rw [← Option.some.inj read]
      exact magnitude_ofMagnitude _ (Nat.le_refl _)
    have wordy : Decimal.read? (signed cell).2 = none := by
      rcases word with short | long
      · exact Decimal.read?_word short (by decide) (by decide)
      · exact Decimal.read?_word long (by decide) (by decide)
    simp [isFinite, size, wordy]
  case isFalse _ =>
    split at read
    case isTrue word =>
      have size : infinity < magnitude x := by
        rw [← Option.some.inj read]
        decide +kernel
      have wordy : Decimal.read? (signed cell).2 = none := Decimal.read?_word word (by decide) (by decide)
      simp [isFinite, size.le, wordy]
    case isFalse _ =>
      obtain ⟨d, digits, rfl⟩ := Option.map_eq_some_iff.mp read
      have size := magnitude_ofMagnitude (signed cell).1 d.magnitude_bound
      simp [isFinite, size, digits, d.magnitude_finite_iff]

private theorem Decimal.lower_ne_word (d : Decimal) {c : Char} {rest : List Char} (letter : c.isDigit = false) :
    d.chars.map Char.toLower ≠ c :: rest := by
  obtain ⟨first, others, digits, digit⟩ := chars_head d
  rw [digits, List.map_cons, digit_toLower digit]
  intro same
  rw [(List.cons.inj same).1, letter] at digit
  contradiction

/-- Every number reads back from its text, NaN and the infinities from their words. -/
theorem Double.read?_chars (x : Float) : read? (chars x) = some x := by
  rcases signed_chars x with ⟨left, parts⟩ | ⟨infinite, parts⟩ | ⟨finite, parts⟩
  · have right : isNaN nan = true := by decide +kernel
    rw [nan_unique left right] at parts ⊢
    simp [read?, parts]
  · simp [read?, parts, ← infinite, ofMagnitude_parts infinite.le]
  · have digits := Decimal.read?_chars (Decimal.shortest (magnitude x))
    have short : (Decimal.shortest (magnitude x)).chars.map Char.toLower ≠ "inf".toList :=
      Decimal.lower_ne_word _ (by decide)
    have long : (Decimal.shortest (magnitude x)).chars.map Char.toLower ≠ "infinity".toList :=
      Decimal.lower_ne_word _ (by decide)
    have other : (Decimal.shortest (magnitude x)).chars.map Char.toLower ≠ "nan".toList :=
      Decimal.lower_ne_word _ (by decide)
    simp only [read?, parts]
    rw [if_neg (not_or.mpr ⟨short, long⟩), if_neg other, digits, Option.map_some, Decimal.magnitude_positional,
      Decimal.magnitude_shortest finite, ofMagnitude_parts finite.le]

end Trackline
