import Trackline.Number.Decimal
import Trackline.Proofs.Number.Nearest

/-! The digits of a number read back as the number. Whatever decimal has the value of a
finite magnitude is rounded to that magnitude, and the decimal that is written either was
tried or is the exact one. -/
namespace Trackline.Decimal

def value (d : Decimal) : ℚ := d.digits * 10 ^ d.scale

theorem value_zero {d : Decimal} (zero : d.digits = 0) : d.value = 0 := by
  simp [value, zero]

private theorem toDigits_bounds {n : Nat} (positive : 0 < n) :
    (10 : ℚ) ^ (((Nat.toDigits 10 n).length : ℤ) - 1) ≤ n ∧ (n : ℚ) < 10 ^ ((Nat.toDigits 10 n).length : ℤ) := by
  have filled : 0 < (Nat.toDigits 10 n).length := Nat.length_toDigits_pos
  constructor
  · have low : 10 ^ ((Nat.toDigits 10 n).length - 1) ≤ n := by
      rcases Nat.eq_zero_or_pos ((Nat.toDigits 10 n).length - 1) with single | more
      · rw [single]
        omega
      · have shorter : ¬(Nat.toDigits 10 n).length ≤ (Nat.toDigits 10 n).length - 1 := by omega
        exact Nat.not_lt.mp (mt (Nat.length_toDigits_le_iff (by decide) more).mpr shorter)
    have length : ((Nat.toDigits 10 n).length : ℤ) - 1 = (((Nat.toDigits 10 n).length - 1 : Nat) : ℤ) := by omega
    rw [length, zpow_natCast]
    exact_mod_cast low
  · have high := (Nat.length_toDigits_le_iff (by decide) filled).mp (Nat.le_refl _)
    rw [zpow_natCast]
    exact_mod_cast high

/-- The power of ten just above a decimal. -/
def size (d : Decimal) : ℤ := (Nat.toDigits 10 d.digits).length + d.scale

theorem value_bounds {d : Decimal} (positive : 0 < d.digits) :
    (10 : ℚ) ^ (d.size - 1) ≤ d.value ∧ d.value < 10 ^ d.size := by
  obtain ⟨low, high⟩ := toDigits_bounds positive
  have ten : (10 : ℚ) ≠ 0 := by norm_num
  have start : d.size - 1 = ((Nat.toDigits 10 d.digits).length : ℤ) - 1 + d.scale := by
    unfold size
    omega
  rw [start, size, value, zpow_add₀ ten, zpow_add₀ ten]
  constructor <;> gcongr

private theorem finite_bounds {m : Nat} (positive : 0 < m) (finite : m < Double.infinity) :
    (2 : ℚ) ^ (-1074 : ℤ) ≤ Double.value m ∧ Double.value m < 2 ^ (1024 : ℤ) := by
  have two : (1 : ℚ) ≤ 2 := by norm_num
  have least : -1074 ≤ Double.exponent m := by
    rcases Double.exponent_cases m with ⟨_, same⟩ | ⟨_, more⟩ <;> omega
  have most : Double.exponent m ≤ 971 := by
    rw [Double.exponent_eq]
    rw [Double.infinity_eq] at finite
    split <;> omega
  have one : (1 : ℚ) ≤ Double.significand m := by exact_mod_cast Double.significand_pos positive
  have bits : (Double.significand m : ℚ) < 2 ^ 53 := by exact_mod_cast Double.significand_bound m
  constructor
  · calc (2 : ℚ) ^ (-1074 : ℤ) ≤ 2 ^ Double.exponent m := zpow_le_zpow_right₀ two least
      _ = 1 * 2 ^ Double.exponent m := (one_mul _).symm
      _ ≤ Double.value m := by
        unfold Double.value
        gcongr
  · calc Double.value m < 2 ^ 53 * 2 ^ Double.exponent m := by
          unfold Double.value
          gcongr
      _ ≤ 2 ^ 53 * 2 ^ (971 : ℤ) := by
          gcongr
      _ = 2 ^ (1024 : ℤ) := by
          rw [← zpow_natCast, ← zpow_add₀ (by norm_num)]
          rfl

theorem cuts : (10 : ℚ) ^ (-324 : ℤ) < 2 ^ (-1074 : ℤ) ∧ (2 : ℚ) ^ (1024 : ℤ) < 10 ^ (309 : ℤ) := by
  have below : (2 : ℕ) ^ 1074 < 10 ^ 324 := by decide +kernel
  have above : (2 : ℕ) ^ 1024 < 10 ^ 309 := by decide +kernel
  constructor
  · have power : (0 : ℚ) < 2 ^ 1074 := by positivity
    change (10 ^ 324 : ℚ)⁻¹ < (2 ^ 1074)⁻¹
    exact inv_strictAnti₀ power (by exact_mod_cast below)
  · exact_mod_cast above

theorem value_ratio (d : Decimal) :
    d.value = ((d.digits * 10 ^ d.scale.toNat : Nat) : ℚ) / (10 ^ (-d.scale).toNat : Nat) := by
  rw [value, Double.zpow_toNat 10 d.scale]
  push_cast
  rw [mul_div_assoc]

private theorem magnitude_of_value {d : Decimal} {m : Nat} (finite : m < Double.infinity)
    (same : d.value = Double.value m) : d.magnitude = m := by
  rcases Nat.eq_zero_or_pos d.digits with zero | positive
  · rcases Nat.eq_zero_or_pos m with rfl | more
    · simp [magnitude, zero]
    · have := Double.value_pos more
      rw [← same, value_zero zero] at this
      exact absurd this (lt_irrefl 0)
  · obtain ⟨low, high⟩ := value_bounds positive
    have nonzero : 0 < m := by
      rcases Nat.eq_zero_or_pos m with rfl | more
      · have zero : Double.value 0 = 0 := by simp [Double.value, Double.significand]
        rw [same, zero] at low
        have power : (0 : ℚ) < 10 ^ (d.size - 1) := by positivity
        exact absurd low (not_le.mpr power)
      · exact more
    obtain ⟨least, most⟩ := finite_bounds nonzero finite
    rw [same] at low high
    have ten : (1 : ℚ) < 10 := by norm_num
    have above : -324 < d.size := by
      by_contra below
      have under : (10 : ℚ) ^ d.size ≤ 10 ^ (-324 : ℤ) := zpow_le_zpow_right₀ ten.le (not_lt.mp below)
      exact absurd (least.trans_lt high) (not_lt.mpr (under.trans cuts.1.le))
    have below : d.size < 310 := by
      by_contra above
      have reached : (10 : ℚ) ^ (309 : ℤ) ≤ 10 ^ (d.size - 1) := zpow_le_zpow_right₀ ten.le (by omega)
      exact absurd (low.trans_lt most) (not_lt.mpr (cuts.2.le.trans reached))
    unfold size at above below
    have first : ¬(d.digits = 0 ∨ (Nat.toDigits 10 d.digits).length + d.scale ≤ -324) := by omega
    have second : ¬310 ≤ (Nat.toDigits 10 d.digits).length + d.scale := by omega
    have power : 0 < 10 ^ (-d.scale).toNat := by positivity
    rw [magnitude, if_neg first, if_neg second]
    exact Double.nearest_exact power finite ((value_ratio d).symm.trans same)

/-- Trailing zeros are left out, and what is kept stands for the same number of the last place. -/
theorem reduced_parts (n places : Nat) : ∃ digits kept, kept ≤ places ∧
    reduced n places = ⟨digits, -(kept : ℤ)⟩ ∧ n = digits * 10 ^ (places - kept) := by
  induction places generalizing n with
  | zero => exact ⟨n, 0, le_rfl, rfl, by simp⟩
  | succ places ih =>
    rw [reduced]
    split
    case isTrue round =>
      obtain ⟨digits, kept, bound, form, value⟩ := ih (n / 10)
      have tens : n = n / 10 * 10 := by omega
      refine ⟨digits, kept, by omega, form, ?_⟩
      rw [tens, value, Nat.succ_sub bound, Nat.pow_succ, Nat.mul_assoc]
    case isFalse _ => exact ⟨n, places + 1, le_rfl, rfl, by simp⟩

private theorem value_reduced (digits places : Nat) :
    (reduced digits places).value = digits * 10 ^ (-(places : ℤ)) := by
  obtain ⟨front, kept, most, form, split⟩ := reduced_parts digits places
  have shift : (10 : ℚ) ^ (-(kept : ℤ)) = 10 ^ (places - kept) * 10 ^ (-(places : ℤ)) := by
    rw [← zpow_natCast, ← zpow_add₀ (by norm_num)]
    congr 1
    omega
  have cast : (digits : ℚ) = front * 10 ^ (places - kept) := by exact_mod_cast split
  rw [form, value, cast, mul_assoc, ← shift]

private theorem value_exact (m : Nat) : (exact m).value = Double.value m := by
  simp only [exact, Nat.pow_eq]
  split
  case isTrue positive =>
    have whole : (2 : ℚ) ^ Double.exponent m = 2 ^ (Double.exponent m).toNat := by
      rw [← zpow_natCast, Int.toNat_of_nonneg positive]
    rw [value, Double.value, whole, zpow_zero, mul_one]
    push_cast
    rfl
  case isFalse negative =>
    have places : -((-Double.exponent m).toNat : ℤ) = Double.exponent m := by omega
    have tenth : (10 : ℚ) ^ Double.exponent m = 5 ^ Double.exponent m * 2 ^ Double.exponent m := by
      rw [← mul_zpow]
      norm_num
    have fives : (5 : ℚ) ^ (-Double.exponent m).toNat * 5 ^ Double.exponent m = 1 := by
      rw [← zpow_natCast, Int.toNat_of_nonneg (by omega), ← zpow_add₀ (by norm_num), neg_add_cancel, zpow_zero]
    rw [value_reduced, places, Double.value, tenth]
    push_cast
    rw [mul_assoc, ← mul_assoc (5 ^ _), fives, one_mul]

/-- The shortest digits of a finite magnitude stand for it. -/
theorem magnitude_shortest {m : Nat} (finite : m < Double.infinity) : (shortest m).magnitude = m := by
  unfold shortest
  simp only
  cases found : (List.range 17).findSome? fun (n : Nat) =>
      (neighbours m (leading m - n)).find? fun d => d.magnitude = m with
  | none => exact magnitude_of_value finite (value_exact m)
  | some d =>
    obtain ⟨n, _, tried⟩ := List.exists_of_findSome?_eq_some found
    simpa using List.find?_some tried

end Trackline.Decimal
