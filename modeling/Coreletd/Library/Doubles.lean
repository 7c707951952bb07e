/-
# Which rationals are doubles

A rounding gives a double, a double is an integer in units of its own last bit,
and what comes closer to it than seventeen digits tell apart rounds to it. The
spacing of doubles halves below a power of two, so the one case with an argument
is a rational below a double that is a power of two.
-/

import Coreletd.Library.Binary64

namespace Coreletd.Library.Binary64

/-- A double of any size, overflow aside: a significand of 53 bits, scaled. -/
def IsDouble (v : ℚ) : Prop := ∃ n e : ℤ, v = n * 2 ^ e ∧ |n| < 2 ^ 53 ∧ -1074 ≤ e

theorem lt_zpow_log2Floor {q : ℚ} (hq : 0 < q) : q < (2 : ℚ) ^ (log2Floor q + 1) := by
  rw [log2Floor]
  split
  next hone =>
    have hfloor : 1 ≤ ⌊q⌋ := Int.le_floor.mpr (by exact_mod_cast hone)
    have hcast : ((⌊q⌋.toNat : ℕ) : ℤ) = ⌊q⌋ := Int.toNat_of_nonneg (by omega)
    have hlog : ⌊q⌋.toNat < 2 ^ (Nat.log2 ⌊q⌋.toNat + 1) := Nat.lt_log2_self
    have hint : ⌊q⌋ + 1 ≤ 2 ^ (Nat.log2 ⌊q⌋.toNat + 1) := by
      rw [← hcast, Int.add_one_le_iff]
      exact_mod_cast hlog
    calc q < ⌊q⌋ + 1 := Int.lt_floor_add_one q
      _ ≤ 2 ^ (Nat.log2 ⌊q⌋.toNat + 1) := by exact_mod_cast hint
      _ = (2 : ℚ) ^ ((Nat.log2 ⌊q⌋.toNat : ℤ) + 1) := by
          exact_mod_cast rfl
  next hone =>
    have hinv : 1 < q⁻¹ := (one_lt_inv₀ hq).mpr (not_le.mp hone)
    have hceil : 1 < ⌈q⁻¹⌉ := Int.lt_ceil.mpr (by exact_mod_cast hinv)
    have hcast : ((⌈q⁻¹⌉.toNat - 1 : ℕ) : ℤ) = ⌈q⁻¹⌉ - 1 := by omega
    have hlog : 2 ^ Nat.log2 (⌈q⁻¹⌉.toNat - 1) ≤ ⌈q⁻¹⌉.toNat - 1 := Nat.log2_self_le (by omega)
    have hbelow : ((⌈q⁻¹⌉ - 1 : ℤ) : ℚ) < q⁻¹ := Int.lt_ceil.mp (by omega)
    have hpow : (2 : ℚ) ^ Nat.log2 (⌈q⁻¹⌉.toNat - 1) < q⁻¹ := by
      refine lt_of_le_of_lt ?_ hbelow
      rw [← hcast]
      exact_mod_cast hlog
    have hexp : -((Nat.log2 (⌈q⁻¹⌉.toNat - 1) + 1 : ℕ) : ℤ) + 1 =
        -(Nat.log2 (⌈q⁻¹⌉.toNat - 1) : ℤ) := by push_cast; ring
    rw [hexp, zpow_neg, zpow_natCast]
    exact (lt_inv_comm₀ (by positivity) hq).mp hpow

/-- The two bounds leave one exponent. -/
theorem log2Floor_eq {q : ℚ} {e : ℤ} (hlow : 2 ^ e ≤ q) (hhigh : q < 2 ^ (e + 1)) :
    log2Floor q = e := by
  have hq : 0 < q := lt_of_lt_of_le (zpow_pos (by norm_num) e) hlow
  have hbelow := (zpow_lt_zpow_iff_right₀ (by norm_num : (1 : ℚ) < 2)).mp
    (lt_of_le_of_lt hlow (lt_zpow_log2Floor hq))
  have habove := (zpow_lt_zpow_iff_right₀ (by norm_num : (1 : ℚ) < 2)).mp
    (lt_of_le_of_lt (zpow_log2Floor_le hq) hhigh)
  omega

/-- Anything less than a half away from an integer rounds to it. -/
theorem roundHalfEven_eq {q : ℚ} {n : ℤ} (hnear : |q - n| < 1 / 2) : roundHalfEven q = n := by
  have hround := abs_roundHalfEven_sub_le q
  have htri := abs_sub_le (roundHalfEven q : ℚ) q n
  have hclose : |((roundHalfEven q - n : ℤ) : ℚ)| < 1 := by
    push_cast
    linarith
  have hint : |roundHalfEven q - n| < 1 := by exact_mod_cast hclose
  have hzero := Int.abs_lt_one_iff.mp hint
  omega

theorem nearest_of_round {x : ℚ} (hx : x ≠ 0) {n : ℤ}
    (hnear : |x / 2 ^ lastBit x - n| < 1 / 2) : nearest x = n * 2 ^ lastBit x := by
  rw [nearest, if_neg hx, roundHalfEven_eq hnear]

theorem isDouble_nearest (q : ℚ) : IsDouble (nearest q) := by
  by_cases hzero : q = 0
  · exact ⟨0, 0, by simp [hzero], by norm_num, by norm_num⟩
  have hscale : (0 : ℚ) < 2 ^ lastBit q := zpow_pos (by norm_num) _
  -- A quotient below 2^53 rounds to an integer up to 2^53.
  have hsmall : |q / 2 ^ lastBit q| < 2 ^ 53 := by
    rw [abs_div, abs_of_pos hscale, div_lt_iff₀ hscale]
    calc |q| < 2 ^ (log2Floor |q| + 1) := lt_zpow_log2Floor (abs_pos.mpr hzero)
      _ ≤ 2 ^ (53 + lastBit q) := by
          apply zpow_le_zpow_right₀ (by norm_num)
          have hbit : log2Floor |q| - 52 ≤ lastBit q := le_max_left _ _
          omega
      _ = 2 ^ 53 * 2 ^ lastBit q := by
          rw [zpow_add₀ (by norm_num)]
          norm_num
  have hround := abs_roundHalfEven_sub_le (q / 2 ^ lastBit q)
  have hbound : |roundHalfEven (q / 2 ^ lastBit q)| ≤ 2 ^ 53 := by
    have htri := abs_sub_abs_le_abs_sub (roundHalfEven (q / 2 ^ lastBit q) : ℚ)
      (q / 2 ^ lastBit q)
    have hlt : (|roundHalfEven (q / 2 ^ lastBit q)| : ℚ) < 2 ^ 53 + 1 := by linarith
    have hint : |roundHalfEven (q / 2 ^ lastBit q)| < 2 ^ 53 + 1 := by exact_mod_cast hlt
    omega
  have hlast : -1074 ≤ lastBit q := le_max_right _ _
  rw [nearest, if_neg hzero]
  generalize roundHalfEven (q / 2 ^ lastBit q) = n at hbound
  rcases hbound.lt_or_eq with hlt | heq
  · exact ⟨n, lastBit q, rfl, hlt, hlast⟩
  · rcases abs_eq (by norm_num) |>.mp heq with rfl | rfl
    · refine ⟨2 ^ 52, lastBit q + 1, ?_, by norm_num, by omega⟩
      rw [zpow_add₀ (by norm_num)]
      push_cast
      ring
    · refine ⟨-2 ^ 52, lastBit q + 1, ?_, by norm_num, by omega⟩
      rw [zpow_add₀ (by norm_num)]
      push_cast
      ring

/-- A double is a multiple of its own last bit. -/
theorem IsDouble.eq_mul {v : ℚ} (hv : IsDouble v) (hne : v ≠ 0) :
    ∃ n : ℤ, v = n * 2 ^ lastBit v ∧ |(n : ℚ)| < 2 ^ 53 := by
  obtain ⟨m, e, hvalue, hm, he⟩ := hv
  have hpos : 0 < |v| := abs_pos.mpr hne
  have hsignificand : |(m : ℚ)| < 2 ^ 53 := by
    rw [← Int.cast_abs]
    exact_mod_cast hm
  have hlarge : |v| < 2 ^ (53 + e) := by
    have hscale : (0 : ℚ) < 2 ^ e := zpow_pos (by norm_num) e
    rw [hvalue, abs_mul, abs_of_pos hscale, zpow_add₀ (by norm_num)]
    exact mul_lt_mul_of_pos_right hsignificand hscale
  have hlog : log2Floor |v| < 53 + e := (zpow_lt_zpow_iff_right₀ (by norm_num : (1 : ℚ) < 2)).mp
    (lt_of_le_of_lt (zpow_log2Floor_le hpos) hlarge)
  have hbit : lastBit v ≤ e := max_le (by omega) he
  have hlow : log2Floor |v| - 52 ≤ lastBit v := le_max_left _ _
  have hbelow : |v| < 2 ^ 53 * 2 ^ lastBit v := by
    refine lt_of_lt_of_le (lt_zpow_log2Floor hpos) ?_
    rw [← zpow_natCast, ← zpow_add₀ (by norm_num)]
    exact zpow_le_zpow_right₀ (by norm_num) (by push_cast; omega)
  generalize lastBit v = bit at hbit hbelow ⊢
  obtain ⟨k, hk⟩ := Int.eq_ofNat_of_zero_le (by omega : 0 ≤ e - bit)
  have hscale : (0 : ℚ) < 2 ^ bit := zpow_pos (by norm_num) _
  have hscaled : v = ((m * 2 ^ k : ℤ) : ℚ) * 2 ^ bit := by
    rw [hvalue, show e = k + bit by omega, zpow_add₀ (by norm_num), zpow_natCast]
    push_cast
    ring
  refine ⟨m * 2 ^ k, hscaled, ?_⟩
  rw [hscaled, abs_mul, abs_of_pos hscale] at hbelow
  exact lt_of_mul_lt_mul_right hbelow hscale.le

theorem IsDouble.neg {v : ℚ} (hv : IsDouble v) : IsDouble (-v) := by
  obtain ⟨n, e, rfl, hn, he⟩ := hv
  exact ⟨-n, e, by push_cast; ring, by rwa [abs_neg], he⟩

theorem IsDouble.abs {v : ℚ} (hv : IsDouble v) : IsDouble |v| := by
  rcases abs_choice v with hsame | hneg
  · rwa [hsame]
  · rw [hneg]
    exact hv.neg

/-- What is near an integer of 33 bits rounds to it, as a double too. -/
theorem roundHalfAway_nearest_eq {x : ℚ} {n : ℤ} (hn : |n| ≤ 2 ^ 32) (hclose : |x - n| ≤ 1 / 4) :
    roundHalfAway (nearest x) = n := by
  have hlarge : |(n : ℚ)| ≤ 2 ^ 32 := by exact_mod_cast hn
  have hsize : |x| ≤ 2 ^ 33 := by
    have htri := abs_sub_abs_le_abs_sub x n
    linarith
  have hround := abs_nearest_sub_le_of_le hsize (by norm_num)
  have htri := abs_sub_le (nearest x) x n
  have hlast : (2 : ℚ) ^ 33 / 2 ^ 53 < 1 / 4 := by norm_num
  exact roundHalfAway_eq (by linarith)

/-- A quotient, as a double, times its divisor. -/
theorem abs_nearest_div_mul_sub_le {n d : ℚ} (hd : 0 < d) (hsize : |n| + d ≤ 2 ^ 50) :
    |nearest (n / d) * d - n| ≤ 1 / 8 := by
  have habs : |n / d| = |n| / d := by rw [abs_div, abs_of_pos hd]
  have hquot : |n / d| ≤ |n| / d + 1 := by
    rw [habs]
    linarith
  have hround := abs_nearest_sub_le_of_le hquot (by linarith [div_nonneg (abs_nonneg n) hd.le])
  have hscaled : nearest (n / d) * d - n = (nearest (n / d) - n / d) * d := by
    rw [sub_mul, div_mul_cancel₀ _ hd.ne']
  rw [hscaled, abs_mul, abs_of_pos hd]
  calc |nearest (n / d) - n / d| * d ≤ (|n| / d + 1) / 2 ^ 53 * d :=
        mul_le_mul_of_nonneg_right hround hd.le
    _ = (|n| + d) / 2 ^ 53 := by
        field_simp
    _ ≤ 2 ^ 50 / 2 ^ 53 := div_le_div_of_nonneg_right hsize (by norm_num)
    _ = 1 / 8 := by norm_num

/-! ## Seventeen digits tell doubles apart -/

/-- As close as seventeen digits come. -/
def Close (x v : ℚ) : Prop := |x - v| ≤ v / (2 * 10 ^ 16)

namespace Close

variable {x v : ℚ} {n : ℤ}

theorem pos (hclose : Close x v) (hv : 0 < v) : 0 < x := by
  have hlow := (abs_le.mp hclose).1
  have hless : v / (2 * 10 ^ 16) < v := div_lt_self hv (by norm_num)
  linarith

/-- The same in units of a scale. -/
theorem scaled (hclose : Close x v) {scale : ℚ} (hscale : 0 < scale) (hvalue : v = n * scale) :
    |x / scale - n| ≤ n / (2 * 10 ^ 16) := by
  have hquot : v / scale = n := by rw [div_eq_iff hscale.ne', hvalue]
  rw [← hquot, ← sub_div, abs_div, abs_of_pos hscale, div_div, mul_comm, ← div_div]
  exact div_le_div_of_nonneg_right hclose hscale.le

/-- The exponent is no larger than the double's. -/
theorem log2Floor_le (hclose : Close x v) (hv : 0 < v) (hvalue : v = n * 2 ^ lastBit v)
    (hn : (n : ℚ) < 2 ^ 53) (hunit : lastBit v ≤ log2Floor v) : log2Floor x ≤ log2Floor v := by
  by_contra hmore
  have hscale : (0 : ℚ) < 2 ^ lastBit v := zpow_pos (by norm_num) _
  have hquot : v / 2 ^ lastBit v = n := (div_eq_iff hscale.ne').mpr hvalue
  have hnear := (abs_le.mp (hclose.scaled hscale hvalue)).2
  -- The next power of two is an integer in these units, so it is a unit away at least.
  obtain ⟨k, hk⟩ := Int.eq_ofNat_of_zero_le (by omega : 0 ≤ log2Floor v + 1 - lastBit v)
  have hpow : (2 : ℚ) ^ (log2Floor v + 1) = (2 ^ k : ℤ) * 2 ^ lastBit v := by
    have hexp : log2Floor v + 1 = k + lastBit v := by omega
    rw [hexp, zpow_add₀ (by norm_num), zpow_natCast]
    push_cast
    ring
  have hbelow : n < 2 ^ k := by
    have hlt : (n : ℚ) < (2 ^ k : ℤ) := by
      rw [← hquot, div_lt_iff₀ hscale, ← hpow]
      exact lt_zpow_log2Floor hv
    exact_mod_cast hlt
  have habove : ((2 ^ k : ℤ) : ℚ) ≤ x / 2 ^ lastBit v := by
    rw [le_div_iff₀ hscale, ← hpow]
    exact (zpow_le_zpow_right₀ (by norm_num) (by omega)).trans
      (zpow_log2Floor_le (hclose.pos hv))
  have hstep : ((n + 1 : ℤ) : ℚ) ≤ (2 ^ k : ℤ) := by exact_mod_cast hbelow
  push_cast at hstep habove
  linarith

/-- A smaller exponent is the one below, and the double is its own power of two. -/
theorem power_of_less (hclose : Close x v) (hv : 0 < v) (hvalue : v = n * 2 ^ lastBit v)
    (hn : (n : ℚ) < 2 ^ 53) (hunit : lastBit v ≤ log2Floor v)
    (hless : log2Floor x < log2Floor v) :
    v = 2 ^ log2Floor v ∧ log2Floor x = log2Floor v - 1 := by
  have hscale : (0 : ℚ) < 2 ^ lastBit v := zpow_pos (by norm_num) _
  have hx := hclose.pos hv
  have hquot : v / 2 ^ lastBit v = n := (div_eq_iff hscale.ne').mpr hvalue
  have hnear := (abs_le.mp (hclose.scaled hscale hvalue)).1
  obtain ⟨k, hk⟩ := Int.eq_ofNat_of_zero_le (by omega : 0 ≤ log2Floor v - lastBit v)
  have hpow : (2 : ℚ) ^ log2Floor v = (2 ^ k : ℤ) * 2 ^ lastBit v := by
    have hexp : log2Floor v = k + lastBit v := by omega
    rw [hexp, zpow_add₀ (by norm_num), zpow_natCast]
    push_cast
    ring
  have hbelow : x / 2 ^ lastBit v < (2 ^ k : ℤ) := by
    rw [div_lt_iff₀ hscale, ← hpow]
    exact lt_of_lt_of_le (lt_zpow_log2Floor hx) (zpow_le_zpow_right₀ (by norm_num) (by omega))
  have habove : (2 : ℤ) ^ k ≤ n := by
    have hle : ((2 ^ k : ℤ) : ℚ) ≤ n := by
      rw [← hquot, le_div_iff₀ hscale, ← hpow]
      exact zpow_log2Floor_le hv
    exact_mod_cast hle
  have hexact : n = 2 ^ k := by
    have hlt : (n : ℚ) < (2 ^ k : ℤ) + 1 := by linarith
    have hint : n < 2 ^ k + 1 := by exact_mod_cast hlt
    omega
  have hself : v = 2 ^ log2Floor v := by rw [hpow, ← hexact, ← hvalue]
  refine ⟨hself, log2Floor_eq ?_ ?_⟩
  · have hhalf : v / (2 * 10 ^ 16) ≤ v / 2 :=
      div_le_div_of_nonneg_left hv.le (by norm_num) (by norm_num)
    have hlow := (abs_le.mp hclose).1
    rw [zpow_sub_one₀ (by norm_num), ← hself]
    linarith
  · rw [sub_add_cancel]
    exact lt_of_lt_of_le (lt_zpow_log2Floor hx) (zpow_le_zpow_right₀ (by norm_num) (by omega))

end Close

/-- A positive double is one unit of its last bit at least. -/
theorem lastBit_le_log2Floor {v : ℚ} {n : ℤ} (hv : 0 < v) (hvalue : v = n * 2 ^ lastBit v) :
    lastBit v ≤ log2Floor v := by
  have hscale : (0 : ℚ) < 2 ^ lastBit v := zpow_pos (by norm_num) _
  have hpos : (0 : ℚ) < n := by
    rw [hvalue] at hv
    exact pos_of_mul_pos_left hv hscale.le
  have hone : (1 : ℤ) ≤ n := by exact_mod_cast hpos
  have hcast : (1 : ℚ) ≤ n := by exact_mod_cast hone
  have hle : (2 : ℚ) ^ lastBit v ≤ v := by
    calc (2 : ℚ) ^ lastBit v = 1 * 2 ^ lastBit v := (one_mul _).symm
      _ ≤ n * 2 ^ lastBit v := mul_le_mul_of_nonneg_right hcast hscale.le
      _ = v := hvalue.symm
  have hlt := (zpow_lt_zpow_iff_right₀ (by norm_num : (1 : ℚ) < 2)).mp
    (lt_of_le_of_lt hle (lt_zpow_log2Floor hv))
  omega

/-- What lies so close to a positive double that seventeen digits could not tell them
apart rounds to it. -/
theorem nearest_of_close {x v : ℚ} (hdouble : IsDouble v) (hv : 0 < v) (hclose : Close x v) :
    nearest x = v := by
  obtain ⟨n, hvalue, hn⟩ := hdouble.eq_mul hv.ne'
  have hn : (n : ℚ) < 2 ^ 53 := lt_of_le_of_lt (le_abs_self _) hn
  have hscale : (0 : ℚ) < 2 ^ lastBit v := zpow_pos (by norm_num) _
  have hx := hclose.pos hv
  have hunit := lastBit_le_log2Floor hv hvalue
  have hnear := hclose.scaled hscale hvalue
  have hbit : lastBit v = max (log2Floor v - 52) (-1074) := by rw [lastBit, abs_of_pos hv]
  have hbitx : lastBit x = max (log2Floor x - 52) (-1074) := by rw [lastBit, abs_of_pos hx]
  have hle := hclose.log2Floor_le hv hvalue hn hunit
  by_cases hsame : lastBit x = lastBit v
  · -- In units of the last bit the two are less than a half apart.
    have htiny : (n : ℚ) / (2 * 10 ^ 16) < 1 / 2 := by
      rw [div_lt_iff₀ (by norm_num)]
      exact hn.trans (by norm_num)
    rw [nearest_of_round hx.ne' (n := n) (by rw [hsame]; exact lt_of_le_of_lt hnear htiny), hsame]
    exact hvalue.symm
  · -- The double is a power of two, and the units below it are half as large.
    obtain ⟨hself, hexponent⟩ := hclose.power_of_less hv hvalue hn hunit (by omega)
    have hhalf : (2 : ℚ) ^ lastBit v = 2 * 2 ^ lastBit x := by
      rw [show lastBit x = lastBit v - 1 by omega, zpow_sub_one₀ (by norm_num)]
      ring
    have hscalex : (0 : ℚ) < 2 ^ lastBit x := zpow_pos (by norm_num) _
    have hn52 : (n : ℚ) ≤ 2 ^ 52 := by
      rw [← (div_eq_iff hscale.ne').mpr hvalue, div_le_iff₀ hscale]
      calc v = 2 ^ log2Floor v := hself
        _ ≤ 2 ^ (52 + lastBit v) := zpow_le_zpow_right₀ (by norm_num) (by omega)
        _ = 2 ^ 52 * 2 ^ lastBit v := by
            rw [zpow_add₀ (by norm_num)]
            norm_num
    have hround : |x / 2 ^ lastBit x - (2 * n : ℤ)| < 1 / 2 := by
      have hfactor : x / 2 ^ lastBit x - (2 * n : ℤ) = 2 * (x / 2 ^ lastBit v - n) := by
        rw [hhalf]
        field_simp
        push_cast
        ring
      rw [hfactor, abs_mul, abs_of_pos (by norm_num : (0 : ℚ) < 2)]
      have hsmall : (n : ℚ) / (2 * 10 ^ 16) ≤ 2 ^ 52 / (2 * 10 ^ 16) :=
        div_le_div_of_nonneg_right hn52 (by norm_num)
      have hnum : (2 : ℚ) * (2 ^ 52 / (2 * 10 ^ 16)) < 1 / 2 := by norm_num
      linarith
    calc nearest x = (2 * n : ℤ) * 2 ^ lastBit x := nearest_of_round hx.ne' hround
      _ = n * 2 ^ lastBit v := by
          rw [hhalf]
          push_cast
          ring
      _ = v := hvalue.symm

end Coreletd.Library.Binary64
