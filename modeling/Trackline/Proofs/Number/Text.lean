import Mathlib.Data.List.TakeWhile
import Trackline.Number.Text
import Trackline.Proofs.Number.Decimal

/-! The text of a double determines it. Its digits read back as a decimal that stands for the
same magnitude, the sign stands in front, and the two words have no digits. -/
namespace Trackline
namespace Decimal

theorem padded_length {width n : Nat} (positive : 0 < width) (bound : n < 10 ^ width) :
    (padded width n).length = width := by
  have fits := (Nat.length_toDigits_le_iff (by decide) positive).mpr bound
  simp only [padded, List.length_append, List.length_replicate]
  omega

theorem ofDigitChars_padded (width n : Nat) : Nat.ofDigitChars 10 (padded width n) 0 = n := by
  simp [padded, Nat.ofDigitChars_append]

theorem padded_injective {width n m : Nat} (same : padded width n = padded width m) : n = m := by
  rw [← ofDigitChars_padded width n, same, ofDigitChars_padded]

theorem toDigits_digits (n : Nat) : ∀ c ∈ Nat.toDigits 10 n, c.isDigit = true := fun _ member =>
  Nat.isDigit_of_mem_toDigits (by decide) (by decide) member

theorem padded_digits {width n : Nat} : ∀ c ∈ padded width n, c.isDigit = true := by
  intro c member
  rcases List.mem_append.mp member with zero | digit
  · rw [(List.mem_replicate.mp zero).2]
    decide
  · exact toDigits_digits n c digit

theorem pointed_eq (digits places : Nat) : pointed digits places =
    if places = 0 then Nat.toDigits 10 digits
    else Nat.toDigits 10 (digits / 10 ^ places) ++ '.' :: padded places (digits % 10 ^ places) := rfl

theorem chars_eq (d : Decimal) : d.chars =
    if 0 ≤ d.scale then pointed (d.digits * 10 ^ d.scale.toNat) 0 else pointed d.digits (-d.scale).toNat := rfl

/-- The decimal as it is written: without a positive scale. -/
def positional (d : Decimal) : Decimal :=
  if 0 ≤ d.scale then ⟨d.digits * 10 ^ d.scale.toNat, 0⟩ else d

private theorem length_toDigits_shift {n : Nat} (positive : 0 < n) (places : Nat) :
    (Nat.toDigits 10 (n * 10 ^ places)).length = (Nat.toDigits 10 n).length + places := by
  induction places with
  | zero => simp
  | succ places ih =>
    have more : 0 < n * 10 ^ places := by positivity
    have next : n * 10 ^ (places + 1) = 10 * (n * 10 ^ places) + 0 := by ring
    rw [next, ← Nat.toDigits_append_toDigits (by decide) more (by decide), List.length_append, ih,
      Nat.toDigits_zero]
    rfl

theorem magnitude_positional (d : Decimal) : d.positional.magnitude = d.magnitude := by
  unfold positional
  split
  case isTrue whole =>
    rcases Nat.eq_zero_or_pos d.digits with nothing | positive
    · simp [magnitude, nothing]
    · have other : (-d.scale).toNat = 0 := by omega
      have length := length_toDigits_shift positive d.scale.toNat
      have size : ((Nat.toDigits 10 (d.digits * 10 ^ d.scale.toNat)).length : ℤ) + 0 =
          (Nat.toDigits 10 d.digits).length + d.scale := by omega
      have zero : d.digits * 10 ^ d.scale.toNat = 0 ↔ d.digits = 0 := by simp
      simp [magnitude, size, other]
  case isFalse _ => rfl

private theorem read?_digits {whole fraction : List Char} (nonempty : whole ≠ [])
    (first : ∀ c ∈ whole, c.isDigit = true) (second : ∀ c ∈ fraction, c.isDigit = true) :
    read? whole = some ⟨Nat.ofDigitChars 10 whole 0, 0⟩ ∧
      read? (whole ++ '.' :: fraction) =
        some ⟨Nat.ofDigitChars 10 (whole ++ fraction) 0, -(fraction.length : ℤ)⟩ := by
  have point : Char.isDigit '.' = false := by decide
  constructor
  · simp [read?, List.takeWhile_eq_self_iff.mpr first, List.dropWhile_eq_nil_iff.mpr first, nonempty]
  · simp [read?, List.takeWhile_append_of_pos first, List.dropWhile_append_of_pos first, point,
      List.takeWhile_eq_self_iff.mpr second, List.dropWhile_eq_nil_iff.mpr second, nonempty]

theorem read?_chars (d : Decimal) : read? d.chars = some d.positional := by
  rw [chars_eq, positional]
  split
  case isTrue whole =>
    rw [pointed_eq, if_pos rfl, (read?_digits Nat.toDigits_ne_nil (toDigits_digits _) (toDigits_digits 0)).1,
      Nat.ofDigitChars_ten_toDigits]
  case isFalse negative =>
    have places : 0 < (-d.scale).toNat := by omega
    have bound : d.digits % 10 ^ (-d.scale).toNat < 10 ^ (-d.scale).toNat := Nat.mod_lt _ (by positivity)
    have scale : -((-d.scale).toNat : ℤ) = d.scale := by omega
    have value : Nat.ofDigitChars 10 (Nat.toDigits 10 (d.digits / 10 ^ (-d.scale).toNat) ++
        padded (-d.scale).toNat (d.digits % 10 ^ (-d.scale).toNat)) 0 = d.digits := by
      rw [Nat.ofDigitChars_append, Nat.ofDigitChars_ten_toDigits, Nat.ofDigitChars_eq_ofDigitChars_zero,
        ofDigitChars_padded, padded_length places bound, Nat.div_add_mod]
    rw [pointed_eq, if_neg places.ne', (read?_digits Nat.toDigits_ne_nil (toDigits_digits _) padded_digits).2, value,
      padded_length places bound, scale]

private theorem shortest_injective {m n : Nat} (left : m < Double.infinity) (right : n < Double.infinity)
    (same : (shortest m).chars = (shortest n).chars) : m = n := by
  have written : (shortest m).positional = (shortest n).positional := by
    have read := congrArg read? same
    rw [read?_chars, read?_chars] at read
    exact Option.some.inj read
  rw [← magnitude_shortest left, ← magnitude_positional, written, magnitude_positional,
    magnitude_shortest right]

private theorem chars_parts (d : Decimal) : ∃ whole rest, d.chars = Nat.toDigits 10 whole ++ rest ∧
    ∀ c ∈ rest, c.isDigit = true ∨ c = '.' := by
  rw [chars_eq, pointed_eq, pointed_eq]
  split
  case isTrue _ => exact ⟨d.digits * 10 ^ d.scale.toNat, [], by rw [if_pos rfl, List.append_nil], by simp⟩
  case isFalse negative =>
    have places : (-d.scale).toNat ≠ 0 := by omega
    rw [if_neg places]
    refine ⟨_, _, rfl, ?_⟩
    intro c member
    rcases List.mem_cons.mp member with point | fraction
    · exact .inr point
    · exact .inl (padded_digits c fraction)

private theorem chars_digits (d : Decimal) : ∀ c ∈ d.chars, c.isDigit = true ∨ c = '.' := by
  obtain ⟨whole, rest, written, others⟩ := chars_parts d
  intro c member
  rw [written] at member
  rcases List.mem_append.mp member with front | back
  · exact .inl (toDigits_digits whole c front)
  · exact others c back

theorem chars_head (d : Decimal) : ∃ c rest, d.chars = c :: rest ∧ c.isDigit = true := by
  obtain ⟨whole, rest, written, _⟩ := chars_parts d
  obtain ⟨c, more, digits⟩ := List.exists_cons_of_ne_nil (Nat.toDigits_ne_nil (n := whole) (b := 10))
  have member : c ∈ Nat.toDigits 10 whole := by simp [digits]
  refine ⟨c, more ++ rest, ?_, toDigits_digits whole c member⟩
  rw [written, digits, List.cons_append]

end Decimal

namespace Double

theorem magnitude_eq (x : Float) : magnitude x = x.toBits.toNat % 2 ^ 63 := rfl

private theorem toBits_injective {x y : Float} (same : x.toBits = y.toBits) : x = y := by
  rcases x with ⟨⟨left, _⟩⟩
  rcases y with ⟨⟨right, _⟩⟩
  change left = right at same
  cases same
  rfl

theorem ext_parts {x y : Float} (sign : negative x = negative y) (size : magnitude x = magnitude y) :
    x = y := by
  have below : x.toBits.toNat < 2 ^ 64 := x.toBits.toNat_lt
  have above : y.toBits.toNat < 2 ^ 64 := y.toBits.toNat_lt
  have signs : 2 ^ 63 ≤ x.toBits.toNat ↔ 2 ^ 63 ≤ y.toBits.toNat := decide_eq_decide.mp sign
  rw [magnitude_eq, magnitude_eq] at size
  apply toBits_injective
  apply UInt64.toNat_inj.mp
  omega

open Float.Model in
private theorem nan_bits {x : Float} (nan : isNaN x = true) :
    x.toBits.toBitVec = UnpackedFloat.packedNaN Format.binary64 := by
  have size : infinity < x.toBits.toNat % 2 ^ 63 := of_decide_eq_true nan
  rw [infinity_eq] at size
  apply x.toModel.valid.eq_packedNaN
  · apply BitVec.eq_of_toNat_eq
    simp only [UnpackedFloat.unpackExponent, BitVec.toNat_cast, BitVec.extractLsb_toNat,
      Nat.shiftRight_eq_div_pow]
    change x.toBits.toNat / _ % _ = 2047
    omega
  · intro zero
    have rest := congrArg BitVec.toNat zero
    simp only [UnpackedFloat.unpackMantissa, BitVec.toNat_cast, BitVec.extractLsb_toNat,
      Nat.shiftRight_eq_div_pow] at rest
    change x.toBits.toNat / _ % _ = 0 at rest
    omega

theorem nan_unique {x y : Float} (left : isNaN x = true) (right : isNaN y = true) : x = y := by
  apply toBits_injective
  exact UInt64.toBitVec_inj.mp ((nan_bits left).trans (nan_bits right).symm)

private theorem signed_sign (negative : Bool) {c : Char} (rest : List Char) (minus : c ≠ '-') (plus : c ≠ '+') :
    signed ((if negative then ['-'] else []) ++ c :: rest) = (negative, c :: rest) := by
  cases negative with
  | true => rfl
  | false =>
    change signed (c :: rest) = _
    unfold signed
    split
    · exact absurd (List.cons.inj ‹_›).1 minus
    · exact absurd (List.cons.inj ‹_›).1 plus
    · rfl

theorem chars_cases (x : Float) :
    (isNaN x = true ∧ chars x = "NaN".toList) ∨
      (magnitude x = infinity ∧ chars x = (if negative x then ['-'] else []) ++ "inf".toList) ∨
      (magnitude x < infinity ∧
        chars x = (if negative x then ['-'] else []) ++ (Decimal.shortest (magnitude x)).chars) := by
  unfold chars written
  by_cases nan : isNaN x = true
  · exact .inl ⟨nan, by rw [if_pos nan]⟩
  · right
    have size : ¬infinity < magnitude x := by simpa [isNaN] using nan
    by_cases finite : magnitude x < infinity
    · exact .inr ⟨finite, by simp [nan, isFinite, finite]⟩
    · exact .inl ⟨by omega, by simp [nan, isFinite, finite]⟩

theorem signed_chars (x : Float) :
    (isNaN x = true ∧ signed (chars x) = (false, "NaN".toList)) ∨
      (magnitude x = infinity ∧ signed (chars x) = (negative x, "inf".toList)) ∨
      (magnitude x < infinity ∧ signed (chars x) = (negative x, (Decimal.shortest (magnitude x)).chars)) := by
  rcases chars_cases x with ⟨nan, word⟩ | ⟨infinite, word⟩ | ⟨finite, digits⟩
  · exact .inl ⟨nan, by rw [word]; rfl⟩
  · have behind := signed_sign (negative x) ['n', 'f'] (c := 'i') (by decide) (by decide)
    exact .inr (.inl ⟨infinite, by rw [word]; exact behind⟩)
  · obtain ⟨c, rest, first, digit⟩ := Decimal.chars_head (Decimal.shortest (magnitude x))
    have minus : c ≠ '-' := by
      rintro rfl
      contradiction
    have plus : c ≠ '+' := by
      rintro rfl
      contradiction
    exact .inr (.inr ⟨finite, by rw [digits, first, signed_sign (negative x) rest minus plus]⟩)

private theorem digits_ne_word (d : Decimal) : d.chars ≠ "NaN".toList ∧ d.chars ≠ "inf".toList := by
  obtain ⟨c, rest, digits, digit⟩ := Decimal.chars_head d
  rw [digits]
  constructor
  all_goals
    intro same
    rw [(List.cons.inj same).1] at digit
    contradiction

theorem chars_injective {x y : Float} (same : chars x = chars y) : x = y := by
  have parts := congrArg signed same
  rcases signed_chars x with ⟨left, first⟩ | ⟨left, first⟩ | ⟨left, first⟩ <;>
    rcases signed_chars y with ⟨right, second⟩ | ⟨right, second⟩ | ⟨right, second⟩ <;>
    rw [first, second] at parts <;> obtain ⟨sign, body⟩ := Prod.mk.inj parts
  · exact nan_unique left right
  · contradiction
  · exact absurd body.symm (digits_ne_word _).1
  · contradiction
  · exact ext_parts sign (left.trans right.symm)
  · exact absurd body.symm (digits_ne_word _).2
  · exact absurd body (digits_ne_word _).1
  · exact absurd body (digits_ne_word _).2
  · exact ext_parts sign (Decimal.shortest_injective left right body)

/-- Numbers with the same text are the same: there is one NaN, and the two zeros differ. -/
theorem text_injective {x y : Float} (same : text x = text y) : x = y :=
  chars_injective (String.ofList_inj.mp same)

theorem chars_safe (x : Float) : ∀ c ∈ chars x, c ≠ ',' ∧ c ≠ ' ' := by
  have nan : ∀ c ∈ "NaN".toList, c ≠ ',' ∧ c ≠ ' ' := by simp
  have infinite : ∀ c ∈ "inf".toList, c ≠ ',' ∧ c ≠ ' ' := by simp
  have sign : ∀ c ∈ if negative x then ['-'] else [], c ≠ ',' ∧ c ≠ ' ' := by
    split <;> simp
  have digits : ∀ c ∈ (Decimal.shortest (magnitude x)).chars, c ≠ ',' ∧ c ≠ ' ' := by
    intro c member
    rcases Decimal.chars_digits _ c member with digit | rfl
    · constructor
      all_goals
        rintro rfl
        exact absurd digit (by decide)
    · simp
  intro c member
  rcases chars_cases x with ⟨_, word⟩ | ⟨_, word⟩ | ⟨_, number⟩
  · rw [word] at member
    exact nan c member
  · rw [word] at member
    rcases List.mem_append.mp member with front | back
    · exact sign c front
    · exact infinite c back
  · rw [number] at member
    rcases List.mem_append.mp member with front | back
    · exact sign c front
    · exact digits c back

end Double
end Trackline
