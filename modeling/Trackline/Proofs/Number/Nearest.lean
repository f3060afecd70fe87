import Mathlib.Algebra.Order.Field.Power
import Mathlib.Data.Rat.Cast.Order
import Mathlib.Tactic.FieldSimp
import Mathlib.Tactic.Positivity
import Mathlib.Tactic.Ring
import Trackline.Number.Double

/-! Rounding is exact on the numbers that doubles stand for. The exponent that the search
settles on is the one of the magnitude, so its quotient is the significand. -/
namespace Trackline.Double

def value (magnitude : Nat) : ℚ := significand magnitude * 2 ^ exponent magnitude

theorem zpow_toNat (base : ℚ) (e : ℤ) : base ^ e = base ^ e.toNat / base ^ (-e).toNat := by
  rcases Int.le_total 0 e with positive | negative
  · have other : (-e).toNat = 0 := by omega
    rw [other, pow_zero, div_one, ← zpow_natCast, Int.toNat_of_nonneg positive]
  · have other : e.toNat = 0 := by omega
    rw [other, pow_zero, one_div, ← zpow_natCast, ← zpow_neg, Int.toNat_of_nonneg (by omega), neg_neg]

theorem infinity_eq : infinity = 2047 * 2 ^ 52 := rfl

private theorem significand_eq (m : Nat) : significand m = if m < 2 ^ 52 then m else 2 ^ 52 + m % 2 ^ 52 := rfl

theorem exponent_eq (m : Nat) :
    exponent m = if m < 2 ^ 52 then (-1074 : ℤ) else (m / 2 ^ 52 : ℕ) - 1075 := rfl

theorem significand_bound (m : Nat) : significand m < 2 ^ 53 := by
  rw [significand_eq]
  split <;> omega

theorem exponent_cases (m : Nat) :
    (significand m < 2 ^ 52 ∧ exponent m = -1074) ∨ (2 ^ 52 ≤ significand m ∧ -1074 ≤ exponent m) := by
  rw [significand_eq, exponent_eq]
  split
  · exact .inl ⟨‹_›, rfl⟩
  · right
    omega

private theorem number_eq (m : Nat) : (exponent m + 1074).toNat * 2 ^ 52 + significand m = m := by
  rw [significand_eq, exponent_eq]
  split <;> omega

theorem significand_pos {m : Nat} (positive : 0 < m) : 0 < significand m := by
  rw [significand_eq]
  split <;> omega

theorem value_pos {m : Nat} (positive : 0 < m) : 0 < value m := by
  have := significand_pos positive
  unfold value
  positivity

private theorem roundEven_exact (s d : Nat) (positive : 0 < d) : roundEven (s * d) d = s := by
  simp [roundEven, Nat.mul_div_cancel s positive, positive.ne']

private theorem log2_bounds {n : Nat} (positive : 0 < n) :
    (2 : ℚ) ^ (n.log2 : ℤ) ≤ n ∧ (n : ℚ) < 2 ^ ((n.log2 : ℤ) + 1) := by
  have low := Nat.log2_self_le positive.ne'
  have high := Nat.lt_log2_self (n := n)
  constructor
  · rw [zpow_natCast]
    exact_mod_cast low
  · rw [← Nat.cast_succ, zpow_natCast]
    exact_mod_cast high

private theorem ratio_bounds {num den : Nat} (nonzero : 0 < num) (positive : 0 < den) :
    (2 : ℚ) ^ ((num.log2 : ℤ) - den.log2 - 1) < num / den ∧
      (num : ℚ) / den < 2 ^ ((num.log2 : ℤ) - den.log2 + 1) := by
  obtain ⟨numLow, numHigh⟩ := log2_bounds nonzero
  obtain ⟨denLow, denHigh⟩ := log2_bounds positive
  have two : (0 : ℚ) < 2 := by norm_num
  have divisor : (0 : ℚ) < den := by exact_mod_cast positive
  constructor
  · rw [lt_div_iff₀ divisor]
    calc (2 : ℚ) ^ ((num.log2 : ℤ) - den.log2 - 1) * den
        < 2 ^ ((num.log2 : ℤ) - den.log2 - 1) * 2 ^ ((den.log2 : ℤ) + 1) := by gcongr
      _ = 2 ^ (num.log2 : ℤ) := by
        rw [← zpow_add₀ two.ne']
        congr 1
        ring
      _ ≤ num := numLow
  · rw [div_lt_iff₀ divisor]
    calc (num : ℚ) < 2 ^ ((num.log2 : ℤ) + 1) := numHigh
      _ = 2 ^ ((num.log2 : ℤ) - den.log2 + 1) * 2 ^ (den.log2 : ℤ) := by
        rw [← zpow_add₀ two.ne']
        congr 1
        ring
      _ ≤ 2 ^ ((num.log2 : ℤ) - den.log2 + 1) * den := by gcongr

theorem scaled_lt_iff {num den : Nat} (positive : 0 < den) (bits : Nat) (e : ℤ) :
    num * 2 ^ (-e).toNat < den * 2 ^ e.toNat * 2 ^ bits ↔ (num : ℚ) / den < 2 ^ (e + bits) := by
  have divisor : (0 : ℚ) < den := by exact_mod_cast positive
  have scale : (0 : ℚ) < 2 ^ (-e).toNat := by positivity
  rw [zpow_add₀ (by norm_num), zpow_toNat 2 e, div_lt_iff₀ divisor, div_mul_eq_mul_div, div_mul_eq_mul_div,
    lt_div_iff₀ scale, ← @Nat.cast_lt ℚ]
  push_cast
  rw [zpow_natCast, mul_comm (den : ℚ), mul_right_comm (2 ^ e.toNat : ℚ)]

theorem guess_bounds {num den : Nat} (nonzero : 0 < num) (positive : 0 < den) {guess e : ℤ}
    (guessed : guess = (num.log2 : ℤ) - den.log2 - 52)
    (chosen : e = if num * 2 ^ (-guess).toNat < den * 2 ^ guess.toNat * 2 ^ 52 then guess - 1 else guess) :
    (2 : ℚ) ^ (e + 52) ≤ num / den ∧ (num : ℚ) / den < 2 ^ (e + 53) := by
  obtain ⟨above, below⟩ := ratio_bounds nonzero positive
  have start : (num.log2 : ℤ) - den.log2 - 1 = guess + 51 := by omega
  have stop : (num.log2 : ℤ) - den.log2 + 1 = guess + 53 := by omega
  rw [start] at above
  rw [stop] at below
  split at chosen
  case isTrue less =>
    have low := (scaled_lt_iff positive 52 guess).mp less
    have lower : e + 52 = guess + 51 := by omega
    have upper : e + 53 = guess + 52 := by omega
    rw [lower, upper]
    exact ⟨above.le, low⟩
  case isFalse more =>
    have high := mt (scaled_lt_iff positive 52 guess).mpr more
    rw [chosen]
    exact ⟨not_lt.mp high, below⟩

private theorem exponent_unique {m : Nat} {e : ℤ} (low : (2 : ℚ) ^ (e + 52) ≤ value m)
    (high : value m < 2 ^ (e + 53)) : max (-1074) e = exponent m := by
  have two : (1 : ℚ) < 2 := by norm_num
  have scale : (0 : ℚ) < 2 ^ exponent m := by positivity
  have top : ∀ bits : ℤ, (2 : ℚ) ^ (exponent m + bits) = 2 ^ bits * 2 ^ exponent m := fun bits => by
    rw [zpow_add₀ (by norm_num), mul_comm]
  have below : value m < 2 ^ (exponent m + 53) := by
    rw [top, value]
    gcongr
    exact_mod_cast significand_bound m
  have ordered : e + 52 < exponent m + 53 := (zpow_lt_zpow_iff_right₀ two).mp (low.trans_lt below)
  rcases exponent_cases m with ⟨small, least⟩ | ⟨large, normal⟩
  · have under : value m < 2 ^ (exponent m + 52) := by
      rw [top, value]
      gcongr
      exact_mod_cast small
    have smaller : e + 52 < exponent m + 52 := (zpow_lt_zpow_iff_right₀ two).mp (low.trans_lt under)
    omega
  · have reached : (2 : ℚ) ^ (exponent m + 52) ≤ value m := by
      rw [top, value]
      gcongr
      exact_mod_cast large
    have larger : exponent m + 52 < e + 53 := (zpow_lt_zpow_iff_right₀ two).mp (reached.trans_lt high)
    omega

/-- A quotient that is the value of a finite magnitude is nearest to that magnitude. -/
theorem nearest_exact {num den m : Nat} (positive : 0 < den) (finite : m < infinity)
    (same : (num : ℚ) / den = value m) : nearest num den = m := by
  have divisor : (0 : ℚ) < den := by exact_mod_cast positive
  rcases Nat.eq_zero_or_pos num with rfl | nonzero
  · rcases Nat.eq_zero_or_pos m with rfl | more
    · rfl
    · have := value_pos more
      simp [← same] at this
  · obtain ⟨low, high⟩ := guess_bounds nonzero positive rfl rfl
    rw [same] at low high
    have found := exponent_unique low high
    have scale : (0 : ℚ) < 2 ^ (-exponent m).toNat := by positivity
    -- Both sides of the quotient at the exponent of the magnitude differ by its significand.
    have parts : num * 2 ^ (-exponent m).toNat = significand m * (den * 2 ^ (exponent m).toNat) := by
      rw [value, zpow_toNat, mul_div_assoc', div_eq_div_iff divisor.ne' scale.ne'] at same
      have natural : num * 2 ^ (-exponent m).toNat = significand m * 2 ^ (exponent m).toNat * den := by
        exact_mod_cast same
      rw [natural]
      ring
    have down : 0 < den * 2 ^ (exponent m).toNat := by positivity
    rw [nearest, if_neg nonzero.ne']
    simp only [Nat.pow_eq, found, parts, roundEven_exact _ _ down, number_eq]
    omega

end Trackline.Double
