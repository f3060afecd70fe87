import Mathlib.Tactic.Linarith
import Trackline.Proofs.Number.Decimal

/-! The range of doubles. A number is rounded to a finite magnitude just when it is below the middle between
the greatest of them and the power of two above it. -/
namespace Trackline
namespace Double

/-- Half way from the greatest finite double to the next power of two. -/
def limit : ℚ := 2 ^ 1024 - 2 ^ 970

private theorem limit_bounds : (2 : ℚ) ^ (1023 : ℤ) < limit ∧ limit < 2 ^ (1024 : ℤ) := by
  have room : (2 : ℕ) ^ 1023 + 2 ^ 970 < 2 ^ 1024 := by decide +kernel
  constructor
  · have apart : (2 : ℚ) ^ 1023 + 2 ^ 970 < 2 ^ 1024 := by exact_mod_cast room
    exact lt_sub_iff_add_lt.mpr apart
  · exact sub_lt_self _ (by positivity)

private theorem roundEven_bounds (n d : Nat) : n / d ≤ roundEven n d ∧ roundEven n d ≤ n / d + 1 := by
  unfold roundEven
  split <;> omega

/-- A tie below an even number goes up to it, so only what is nearer to the number before stays below. -/
theorem roundEven_lt_iff {n d m : Nat} (positive : 0 < d) (even : m % 2 = 0) :
    roundEven n d < m ↔ 2 * n + d < 2 * (m * d) := by
  have split := Nat.div_add_mod n d
  have rest := Nat.mod_lt n positive
  have bounds := roundEven_bounds n d
  rw [Nat.mul_comm] at split
  rcases Nat.lt_trichotomy (n / d + 1) m with below | here | above
  · have room := Nat.mul_le_mul_right d (Nat.succ_le_of_lt below)
    rw [Nat.succ_mul, Nat.add_one_mul] at room
    omega
  · have odd : n / d % 2 = 1 := by omega
    rw [roundEven, ← here, Nat.add_one_mul (n / d)]
    split <;> omega
  · have reached := Nat.mul_le_mul_right d (Nat.le_of_lt_succ above)
    omega

/-- At the greatest exponent the limit is where rounding reaches the next power of two. -/
theorem limit_iff {num den unit : Nat} (positive : 0 < den) (scale : unit = 2 ^ (971 : ℤ).toNat) :
    (num : ℚ) / den < limit ↔ roundEven num (den * unit) < 2 ^ 53 := by
  have divisor : (0 : ℚ) < den := by exact_mod_cast positive
  have nonzero : 0 < unit := by
    rw [scale]
    positivity
  have even : 2 ^ 53 % 2 = 0 := rfl
  have top : limit = (2 ^ 54 - 1) * 2 ^ 970 := by rw [limit, sub_one_mul, ← pow_add]
  have double : (unit : ℚ) = 2 * 2 ^ 970 := by
    rw [scale, ← pow_succ', Nat.cast_pow]
    rfl
  rw [roundEven_lt_iff (Nat.mul_pos positive nonzero) even, div_lt_iff₀ divisor, ← @Nat.cast_lt ℚ, top]
  push_cast
  rw [double]
  generalize (2 : ℚ) ^ 970 = half
  constructor <;> intro less <;> linarith only [less]

private theorem nearest_finite_iff {num den : Nat} (positive : 0 < den) :
    nearest num den < infinity ↔ (num : ℚ) / den < limit := by
  have two : (1 : ℚ) ≤ 2 := by norm_num
  obtain ⟨under, above⟩ := limit_bounds
  rcases Nat.eq_zero_or_pos num with rfl | nonzero
  · have least : (0 : ℚ) < limit := lt_trans (by positivity) under
    simpa [nearest, infinity] using least
  obtain ⟨low, high⟩ := guess_bounds nonzero positive rfl rfl
  rw [nearest, if_neg nonzero.ne']
  simp only [Nat.pow_eq]
  generalize (if num * 2 ^ (-((num.log2 : ℤ) - den.log2 - 52)).toNat <
    den * 2 ^ ((num.log2 : ℤ) - den.log2 - 52).toNat * 2 ^ 52 then (num.log2 : ℤ) - den.log2 - 52 - 1
      else (num.log2 : ℤ) - den.log2 - 52) = e at *
  rcases lt_trichotomy e 971 with small | rfl | large
  · have inside : (num : ℚ) / den < limit :=
      high.trans ((zpow_le_zpow_right₀ two (by omega)).trans_lt under)
    have fits : (num : ℚ) / den < 2 ^ (max (-1074) e + (53 : ℕ)) :=
      high.trans_le (zpow_le_zpow_right₀ two (by omega))
    have quotient := Nat.div_lt_of_lt_mul ((scaled_lt_iff positive 53 _).mpr fits)
    have bounds := roundEven_bounds (num * 2 ^ (-max (-1074) e).toNat) (den * 2 ^ (max (-1074) e).toNat)
    refine iff_of_true ?_ inside
    rw [infinity_eq]
    omega
  · have shift : (-971 : ℤ).toNat = 0 ∧ (971 + 1074 : ℤ).toNat = 2045 := ⟨rfl, rfl⟩
    rw [max_eq_right (by omega), shift.1, shift.2, pow_zero, Nat.mul_one, limit_iff positive rfl, infinity_eq]
    generalize roundEven num _ = rounded
    omega
  · have outside : limit ≤ (num : ℚ) / den :=
      above.le.trans ((zpow_le_zpow_right₀ two (by omega)).trans low)
    have fits : ¬(num : ℚ) / den < 2 ^ (max (-1074) e + (52 : ℕ)) :=
      not_lt.mpr (le_trans (zpow_le_zpow_right₀ two (by omega)) low)
    have down : 0 < den * 2 ^ (max (-1074) e).toNat := by positivity
    have reached := not_lt.mp (mt (scaled_lt_iff positive 52 _).mp fits)
    rw [Nat.mul_comm] at reached
    have quotient := (Nat.le_div_iff_mul_le down).mpr reached
    have bounds := roundEven_bounds (num * 2 ^ (-max (-1074) e).toNat) (den * 2 ^ (max (-1074) e).toNat)
    refine iff_of_false ?_ (not_lt.mpr outside)
    rw [infinity_eq]
    omega

end Double

namespace Decimal

theorem magnitude_bound (d : Decimal) : d.magnitude ≤ Double.infinity := by
  rw [magnitude]
  split
  · exact Nat.zero_le _
  · split
    · exact Nat.le_refl _
    · rw [Double.nearest]
      split
      · exact Nat.zero_le _
      · exact Nat.min_le_left _ _

/-- A decimal stands for a finite double just when it is below the limit. -/
theorem magnitude_finite_iff (d : Decimal) : d.magnitude < Double.infinity ↔ d.value < Double.limit := by
  obtain ⟨under, above⟩ := Double.limit_bounds
  have nonzero : 0 < Double.infinity := by decide
  have least : (0 : ℚ) < Double.limit := lt_trans (by positivity) under
  have ten : (1 : ℚ) ≤ 10 := by norm_num
  rw [magnitude]
  rcases Nat.eq_zero_or_pos d.digits with zero | positive
  · rw [if_pos (.inl zero), value_zero zero]
    exact iff_of_true nonzero least
  obtain ⟨low, high⟩ := value_bounds positive
  unfold size at low high
  split
  case isTrue tiny =>
    have small : (10 : ℚ) ^ ((Nat.toDigits 10 d.digits).length + d.scale) ≤ 1 :=
      zpow_le_one_of_nonpos₀ ten (by omega)
    have one : (1 : ℚ) ≤ 2 ^ (1023 : ℤ) := one_le_zpow₀ (by norm_num) (by omega)
    exact iff_of_true nonzero (high.trans_le (small.trans (one.trans under.le)))
  case isFalse _ =>
    split
    case isTrue huge =>
      have great : (10 : ℚ) ^ (309 : ℤ) ≤ 10 ^ ((Nat.toDigits 10 d.digits).length + d.scale - 1) :=
        zpow_le_zpow_right₀ ten (by omega)
      have outside : Double.limit ≤ d.value := above.le.trans (cuts.2.le.trans (great.trans low))
      exact iff_of_false (Nat.lt_irrefl _) (not_lt.mpr outside)
    case isFalse _ =>
      have power : 0 < 10 ^ (-d.scale).toNat := by positivity
      rw [value_ratio]
      exact Double.nearest_finite_iff power

end Decimal
end Trackline
