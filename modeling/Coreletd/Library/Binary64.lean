/-
# Doubles as the rationals they stand for

A finite double is a rational; an operation on doubles is the exact one followed
by rounding to the nearest double, ties to the even significand. There is one
zero. The lemmas bound what a rounding can change.
-/

import Mathlib.Algebra.Order.Floor.Ring
import Mathlib.Data.Rat.Floor
import Mathlib.Tactic.Linarith
import Mathlib.Tactic.NormNum
import Mathlib.Tactic.Positivity

namespace Coreletd.Library.Binary64

/-- The nearest integer, ties to even. -/
def roundHalfEven (q : ℚ) : ℤ :=
  let below := ⌊q⌋
  if q - below < 1 / 2 then below
  else if 1 / 2 < q - below then below + 1
  else if below % 2 = 0 then below
  else below + 1

/-- The nearest integer, ties away from zero: `llround`. -/
def roundHalfAway (q : ℚ) : ℤ := if 0 ≤ q then ⌊q + 1 / 2⌋ else -⌊-q + 1 / 2⌋

/-- The exponent of the largest power of two up to a positive rational. -/
def log2Floor (q : ℚ) : ℤ :=
  if 1 ≤ q then Nat.log2 ⌊q⌋.toNat else -(Nat.log2 (⌈q⁻¹⌉.toNat - 1) + 1 : ℕ)

/-- The exponent of the last significant bit of a double of this size. -/
def lastBit (q : ℚ) : ℤ := max (log2Floor |q| - 52) (-1074)

/-- The nearest double. -/
def nearest (q : ℚ) : ℚ :=
  if q = 0 then 0 else roundHalfEven (q / 2 ^ lastBit q) * 2 ^ lastBit q

/-- The magnitudes below which a double has fewer significant bits, and from
which there is none. -/
def minNormal : ℚ := 2 ^ (-1022 : ℤ)
def overflow : ℚ := 2 ^ (1024 : ℤ)

theorem abs_roundHalfEven_sub_le (q : ℚ) : |(roundHalfEven q : ℚ) - q| ≤ 1 / 2 := by
  have hlow : (⌊q⌋ : ℚ) ≤ q := Int.floor_le q
  have hhigh : q < ⌊q⌋ + 1 := Int.lt_floor_add_one q
  rw [roundHalfEven, abs_le]
  split
  · constructor <;> linarith
  · split
    · push_cast
      constructor <;> linarith
    · split
      · constructor <;> linarith
      · push_cast
        constructor <;> linarith

/-- Anything less than a half away from an integer rounds to it. -/
theorem roundHalfAway_eq {q : ℚ} {n : ℤ} (hnear : |q - n| < 1 / 2) : roundHalfAway q = n := by
  obtain ⟨hlow, hhigh⟩ := abs_lt.mp hnear
  rw [roundHalfAway]
  split
  · exact Int.floor_eq_iff.mpr ⟨by linarith, by linarith⟩
  · have hfloor : ⌊-q + 1 / 2⌋ = -n :=
      Int.floor_eq_iff.mpr ⟨by push_cast; linarith, by push_cast; linarith⟩
    rw [hfloor, neg_neg]

theorem zpow_log2Floor_le {q : ℚ} (hq : 0 < q) : (2 : ℚ) ^ log2Floor q ≤ q := by
  rw [log2Floor]
  split
  next hone =>
    have hfloor : 1 ≤ ⌊q⌋ := Int.le_floor.mpr (by exact_mod_cast hone)
    have hpow : 2 ^ Nat.log2 ⌊q⌋.toNat ≤ ⌊q⌋.toNat := Nat.log2_self_le (by omega)
    have hcast : ((⌊q⌋.toNat : ℕ) : ℚ) = ⌊q⌋ := by
      exact_mod_cast Int.toNat_of_nonneg (by omega : 0 ≤ ⌊q⌋)
    calc (2 : ℚ) ^ (Nat.log2 ⌊q⌋.toNat : ℤ) = ((2 ^ Nat.log2 ⌊q⌋.toNat : ℕ) : ℚ) := by
          push_cast
          rfl
      _ ≤ (⌊q⌋.toNat : ℕ) := by exact_mod_cast hpow
      _ = ⌊q⌋ := hcast
      _ ≤ q := Int.floor_le q
  next hone =>
    have hceil : q⁻¹ ≤ ⌈q⁻¹⌉ := Int.le_ceil _
    have hpos : 0 < ⌈q⁻¹⌉ := Int.ceil_pos.mpr (inv_pos.mpr hq)
    have hlog : ⌈q⁻¹⌉.toNat - 1 < 2 ^ (Nat.log2 (⌈q⁻¹⌉.toNat - 1) + 1) := Nat.lt_log2_self
    generalize Nat.log2 (⌈q⁻¹⌉.toNat - 1) + 1 = exponent at hlog ⊢
    have hnat : ⌈q⁻¹⌉.toNat ≤ 2 ^ exponent := by omega
    have hcast : ((⌈q⁻¹⌉.toNat : ℕ) : ℚ) = ⌈q⁻¹⌉ := by
      exact_mod_cast Int.toNat_of_nonneg hpos.le
    have hbound : q⁻¹ ≤ 2 ^ exponent := by
      refine hceil.trans ?_
      rw [← hcast]
      exact_mod_cast hnat
    rw [zpow_neg, zpow_natCast]
    exact inv_le_of_inv_le₀ hq hbound

/-- Rounding is off by half of the last bit at most. -/
theorem abs_nearest_sub_le_half {q : ℚ} (hne : q ≠ 0) :
    |nearest q - q| ≤ 1 / 2 * 2 ^ lastBit q := by
  have hscale : (0 : ℚ) < 2 ^ lastBit q := zpow_pos (by norm_num) _
  have hround := abs_roundHalfEven_sub_le (q / 2 ^ lastBit q)
  have hdiff : nearest q - q =
      (roundHalfEven (q / 2 ^ lastBit q) - q / 2 ^ lastBit q) * 2 ^ lastBit q := by
    rw [nearest, if_neg hne, sub_mul, div_mul_cancel₀ _ hscale.ne']
  rw [hdiff, abs_mul, abs_of_pos hscale]
  exact mul_le_mul_of_nonneg_right hround hscale.le

/-- The last bit is worth a 2^52nd of the value at most, or that of the smallest
normal one. -/
theorem zpow_lastBit_le {q : ℚ} (hne : q ≠ 0) :
    (2 : ℚ) ^ lastBit q ≤ |q| / 2 ^ 52 ∨ (2 : ℚ) ^ lastBit q = minNormal / 2 ^ 52 := by
  rw [lastBit]
  rcases max_choice (log2Floor |q| - 52) (-1074) with hmax | hmax
  · left
    rw [hmax, le_div_iff₀ (by positivity), zpow_sub₀ (by norm_num), zpow_ofNat,
      div_mul_cancel₀ _ (by positivity)]
    exact zpow_log2Floor_le (abs_pos.mpr hne)
  · right
    rw [hmax, eq_div_iff (by positivity), minNormal, ← zpow_natCast, ← zpow_add₀ (by norm_num)]
    rfl

/-- Rounding a value of normal size changes it by a 2^53rd of it at most. -/
theorem abs_nearest_sub_le {q : ℚ} (hnormal : minNormal ≤ |q|) :
    |nearest q - q| ≤ |q| / 2 ^ 53 := by
  have hpos : 0 < |q| := lt_of_lt_of_le (zpow_pos (by norm_num) _) hnormal
  have hne : q ≠ 0 := abs_pos.mp hpos
  have hbit : (2 : ℚ) ^ lastBit q ≤ |q| / 2 ^ 52 := by
    rcases zpow_lastBit_le hne with hle | heq
    · exact hle
    · rw [heq]
      exact div_le_div_of_nonneg_right hnormal (by positivity)
  calc |nearest q - q| ≤ 1 / 2 * 2 ^ lastBit q := abs_nearest_sub_le_half hne
    _ ≤ 1 / 2 * (|q| / 2 ^ 52) := mul_le_mul_of_nonneg_left hbit (by norm_num)
    _ = |q| / 2 ^ 53 := by ring

@[simp]
theorem nearest_zero : nearest 0 = 0 := if_pos rfl

/-- Rounding any value changes it by little. -/
theorem abs_nearest_sub_le_of_le {q bound : ℚ} (hq : |q| ≤ bound) (hone : 1 ≤ bound) :
    |nearest q - q| ≤ bound / 2 ^ 53 := by
  by_cases hne : q = 0
  · rw [hne, nearest_zero, sub_zero, abs_zero]
    positivity
  have hmin : minNormal ≤ bound := by
    have hpow : minNormal ≤ (2 : ℚ) ^ (0 : ℤ) := zpow_le_zpow_right₀ (by norm_num) (by norm_num)
    exact hpow.trans (by simpa using hone)
  have hbit : (2 : ℚ) ^ lastBit q ≤ bound / 2 ^ 52 := by
    rcases zpow_lastBit_le hne with hle | heq
    · exact hle.trans (div_le_div_of_nonneg_right hq (by positivity))
    · rw [heq]
      exact div_le_div_of_nonneg_right hmin (by positivity)
  calc |nearest q - q| ≤ 1 / 2 * 2 ^ lastBit q := abs_nearest_sub_le_half hne
    _ ≤ 1 / 2 * (bound / 2 ^ 52) := mul_le_mul_of_nonneg_left hbit (by norm_num)
    _ = bound / 2 ^ 53 := by ring

theorem abs_roundHalfAway_le {q : ℚ} {bound : ℕ} (hq : |q| < bound + 1 / 2) :
    |roundHalfAway q| ≤ bound := by
  obtain ⟨hlow, hhigh⟩ := abs_lt.mp hq
  have hfloor : ∀ x : ℚ, 0 ≤ x → x < bound + 1 / 2 → 0 ≤ ⌊x + 1 / 2⌋ ∧ ⌊x + 1 / 2⌋ ≤ bound := by
    intro x hnonneg hx
    refine ⟨Int.floor_nonneg.mpr (by linarith), ?_⟩
    have hlt : ⌊x + 1 / 2⌋ < (bound : ℤ) + 1 := Int.floor_lt.mpr (by push_cast; linarith)
    omega
  rw [roundHalfAway, abs_le]
  split
  next hnonneg =>
    have hrange := hfloor q hnonneg hhigh
    omega
  next hnegative =>
    have hrange := hfloor (-q) (by linarith) (by linarith)
    omega

/-- An integer divided by a million and multiplied by it again, as doubles, is
nearest to itself. -/
theorem roundHalfAway_mul_div {n : ℤ} (hn : |n| ≤ 2 ^ 31) :
    roundHalfAway (nearest (nearest ((n : ℚ) / 1000000) * 1000000)) = n := by
  by_cases hzero : n = 0
  · subst hzero
    norm_num [roundHalfAway]
  have hsize : (1 : ℚ) ≤ |(n : ℚ)| := by exact_mod_cast Int.one_le_abs hzero
  have hlarge : |(n : ℚ)| ≤ 2 ^ 31 := by exact_mod_cast hn
  have hmin : minNormal ≤ 1 / 4000000 := by
    have hpow : minNormal ≤ (2 : ℚ) ^ (-22 : ℤ) := zpow_le_zpow_right₀ (by norm_num) (by norm_num)
    exact hpow.trans (by norm_num)
  have habs : |(n : ℚ) / 1000000| = |(n : ℚ)| / 1000000 := by
    rw [abs_div]
    norm_num
  have hfirst : |nearest ((n : ℚ) / 1000000) - n / 1000000| ≤ |(n : ℚ)| / 1000000 / 2 ^ 53 := by
    have hbound := abs_nearest_sub_le (q := (n : ℚ) / 1000000) (by rw [habs]; linarith)
    rwa [habs] at hbound
  generalize nearest ((n : ℚ) / 1000000) = d at hfirst ⊢
  have hback : |d * 1000000 - n| ≤ |(n : ℚ)| / 2 ^ 53 := by
    have hscaled : d * 1000000 - n = (d - n / 1000000) * 1000000 := by ring
    rw [hscaled, abs_mul]
    calc |d - (n : ℚ) / 1000000| * |(1000000 : ℚ)|
        ≤ |(n : ℚ)| / 1000000 / 2 ^ 53 * |(1000000 : ℚ)| :=
          mul_le_mul_of_nonneg_right hfirst (abs_nonneg _)
      _ = |(n : ℚ)| / 2 ^ 53 := by
          norm_num
          ring
  have hdlow : |(n : ℚ)| / 2 ≤ |d * 1000000| := by
    have htri := abs_sub_abs_le_abs_sub (n : ℚ) (d * 1000000)
    rw [abs_sub_comm] at htri
    have hsmall : |(n : ℚ)| / 2 ^ 53 ≤ |(n : ℚ)| / 2 := by
      apply div_le_div_of_nonneg_left (abs_nonneg _) <;> norm_num
    linarith
  have hdhigh : |d * 1000000| ≤ 2 * |(n : ℚ)| := by
    have htri := abs_sub_abs_le_abs_sub (d * 1000000) (n : ℚ)
    have hsmall : |(n : ℚ)| / 2 ^ 53 ≤ |(n : ℚ)| := div_le_self (abs_nonneg _) (by norm_num)
    linarith
  have hsecond := abs_nearest_sub_le (q := d * 1000000) (by linarith)
  apply roundHalfAway_eq
  have htri := abs_sub_le (nearest (d * 1000000)) (d * 1000000) (n : ℚ)
  have hlast : |d * 1000000| / 2 ^ 53 ≤ 2 * 2 ^ 31 / 2 ^ 53 := by
    apply div_le_div_of_nonneg_right _ (by norm_num)
    linarith
  have hmiddle : |(n : ℚ)| / 2 ^ 53 ≤ 2 ^ 31 / 2 ^ 53 :=
    div_le_div_of_nonneg_right hlarge (by norm_num)
  have hsum : (2 : ℚ) * 2 ^ 31 / 2 ^ 53 + 2 ^ 31 / 2 ^ 53 < 1 / 2 := by norm_num
  linarith

end Coreletd.Library.Binary64
