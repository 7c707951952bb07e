/-
# Seventeen digits suffice

What `%.17g` prints of a double, `strtod` reads as that double, at every size
from the smallest normal one up. Below it the reading is a range error: the digits
are not the exact value, and rounding them loses bits.
-/

import Mathlib.Data.List.TakeWhile
import Coreletd.Library.Doubles
import Coreletd.Library.Numerals

namespace Coreletd.Library.Numerals

open Coreletd.Library.Text

/-! ## Decimal digits -/

theorem decimal_bounds (n : Nat) :
    n < 10 ^ (decimal n).length ∧ (0 < n → 10 ^ ((decimal n).length - 1) ≤ n) := by
  induction n using Nat.strong_induction_on with
  | _ n ih =>
      by_cases hsmall : n < 10
      · rw [decimal_of_lt hsmall]
        exact ⟨by simpa using hsmall, fun hn => by simpa using Nat.succ_le_of_lt hn⟩
      · obtain ⟨hhigh, hlow⟩ := ih (n / 10) (by omega)
        have hlow' := hlow (by omega)
        have hlength : (decimal (n / 10)).length = (decimal (n / 10)).length - 1 + 1 := by
          have hne := List.length_pos_of_ne_nil (decimal_ne_nil (n / 10))
          omega
        rw [decimal_of_le (by omega), List.length_append, List.length_singleton]
        refine ⟨?_, fun _ => ?_⟩
        · rw [pow_succ]
          omega
        · rw [Nat.add_sub_cancel, hlength, pow_succ]
          omega

/-- A number has as many digits as say so. -/
theorem length_decimal {n k : Nat} (hlow : 10 ^ k ≤ n) (hhigh : n < 10 ^ (k + 1)) :
    (decimal n).length = k + 1 := by
  obtain ⟨habove, hbelow⟩ := decimal_bounds n
  have hpos : 0 < n := lt_of_lt_of_le (Nat.pow_pos (by norm_num)) hlow
  have hmore := (Nat.pow_lt_pow_iff_right (by norm_num : 1 < 10)).mp (lt_of_le_of_lt hlow habove)
  have hless := (Nat.pow_lt_pow_iff_right (by norm_num : 1 < 10)).mp
    (lt_of_le_of_lt (hbelow hpos) hhigh)
  omega

theorem zpow_log10Floor_le {q : ℚ} (hq : 0 < q) : (10 : ℚ) ^ log10Floor q ≤ q := by
  rw [log10Floor]
  split
  next hone =>
    have hfloor : 1 ≤ ⌊q⌋ := Int.le_floor.mpr (by exact_mod_cast hone)
    have hcast : ((⌊q⌋.toNat : ℕ) : ℚ) = ⌊q⌋ := by
      exact_mod_cast Int.toNat_of_nonneg (by omega : 0 ≤ ⌊q⌋)
    have hpow := (decimal_bounds ⌊q⌋.toNat).2 (by omega)
    rw [zpow_natCast]
    calc (10 : ℚ) ^ ((decimal ⌊q⌋.toNat).length - 1) ≤ (⌊q⌋.toNat : ℕ) := by exact_mod_cast hpow
      _ = ⌊q⌋ := hcast
      _ ≤ q := Int.floor_le q
  next hone =>
    have hpos : 0 < ⌈q⁻¹⌉ := Int.ceil_pos.mpr (inv_pos.mpr hq)
    have hcast : ((⌈q⁻¹⌉.toNat : ℕ) : ℚ) = ⌈q⁻¹⌉ := by
      exact_mod_cast Int.toNat_of_nonneg hpos.le
    have hpow := (decimal_bounds (⌈q⁻¹⌉.toNat - 1)).1
    generalize (decimal (⌈q⁻¹⌉.toNat - 1)).length = digits at hpow
    have hnat : ⌈q⁻¹⌉.toNat ≤ 10 ^ digits := by omega
    have hbound : q⁻¹ ≤ 10 ^ digits := by
      refine (Int.le_ceil _).trans ?_
      rw [← hcast]
      exact_mod_cast hnat
    rw [zpow_neg, zpow_natCast]
    exact inv_le_of_inv_le₀ hq hbound

theorem lt_zpow_log10Floor {q : ℚ} (hq : 0 < q) : q < (10 : ℚ) ^ (log10Floor q + 1) := by
  rw [log10Floor]
  split
  next hone =>
    have hfloor : 1 ≤ ⌊q⌋ := Int.le_floor.mpr (by exact_mod_cast hone)
    have hcast : ((⌊q⌋.toNat : ℕ) : ℤ) = ⌊q⌋ := Int.toNat_of_nonneg (by omega)
    have hpow := (decimal_bounds ⌊q⌋.toNat).1
    have hdigits := List.length_pos_of_ne_nil (decimal_ne_nil ⌊q⌋.toNat)
    have hint : ⌊q⌋ + 1 ≤ 10 ^ (decimal ⌊q⌋.toNat).length := by
      rw [← hcast, Int.add_one_le_iff]
      exact_mod_cast hpow
    have hexp : (((decimal ⌊q⌋.toNat).length - 1 : ℕ) : ℤ) + 1 = (decimal ⌊q⌋.toNat).length := by
      omega
    rw [hexp, zpow_natCast]
    calc q < ⌊q⌋ + 1 := Int.lt_floor_add_one q
      _ ≤ 10 ^ (decimal ⌊q⌋.toNat).length := by exact_mod_cast hint
  next hone =>
    have hinv : 1 < q⁻¹ := (one_lt_inv₀ hq).mpr (not_le.mp hone)
    have hceil : 1 < ⌈q⁻¹⌉ := Int.lt_ceil.mpr (by exact_mod_cast hinv)
    have hcast : ((⌈q⁻¹⌉.toNat - 1 : ℕ) : ℤ) = ⌈q⁻¹⌉ - 1 := by omega
    have hdigits := List.length_pos_of_ne_nil (decimal_ne_nil (⌈q⁻¹⌉.toNat - 1))
    have hpow := (decimal_bounds (⌈q⁻¹⌉.toNat - 1)).2 (by omega)
    have hbelow : ((⌈q⁻¹⌉ - 1 : ℤ) : ℚ) < q⁻¹ := Int.lt_ceil.mp (by omega)
    have hlt : (10 : ℚ) ^ ((decimal (⌈q⁻¹⌉.toNat - 1)).length - 1) < q⁻¹ := by
      refine lt_of_le_of_lt ?_ hbelow
      rw [← hcast]
      exact_mod_cast hpow
    have hexp : -((decimal (⌈q⁻¹⌉.toNat - 1)).length : ℤ) + 1 =
        -(((decimal (⌈q⁻¹⌉.toNat - 1)).length - 1 : ℕ) : ℤ) := by omega
    rw [hexp, zpow_neg, zpow_natCast]
    exact (lt_inv_comm₀ (by positivity) hq).mp hlt

/-- Seventeen digits, and how close they come. -/
theorem significant17_spec {q : ℚ} (hq : 0 < q) :
    10 ^ 16 ≤ (significant17 q).1 ∧ (significant17 q).1 < 10 ^ 17 ∧
      |((significant17 q).1 : ℚ) * 10 ^ ((significant17 q).2 - 16) - q| ≤ q / (2 * 10 ^ 16) := by
  have hlow := zpow_log10Floor_le hq
  have hhigh := lt_zpow_log10Floor hq
  rw [significant17]
  generalize log10Floor q = e at hlow hhigh
  have hscale : (0 : ℚ) < 10 ^ (e - 16) := zpow_pos (by norm_num) _
  have hunit : (10 : ℚ) ^ e = 10 ^ 16 * 10 ^ (e - 16) := by
    rw [← zpow_natCast, ← zpow_add₀ (by norm_num)]
    congr 1
    push_cast
    ring
  have hdown : (10 : ℚ) ^ 16 ≤ q / 10 ^ (e - 16) := by
    rw [le_div_iff₀ hscale, ← hunit]
    exact hlow
  have hup : q / 10 ^ (e - 16) < 10 ^ 17 := by
    rw [div_lt_iff₀ hscale]
    calc q < 10 ^ (e + 1) := hhigh
      _ = 10 ^ 17 * 10 ^ (e - 16) := by
          rw [zpow_add_one₀ (by norm_num), hunit]
          ring
  have hround := Binary64.abs_roundHalfEven_sub_le (q / 10 ^ (e - 16))
  generalize Binary64.roundHalfEven (q / 10 ^ (e - 16)) = m at hround
  obtain ⟨hmlow, hmhigh⟩ := abs_le.mp hround
  have hm : (10 : ℤ) ^ 16 ≤ m := by
    have hlt : (10 : ℚ) ^ 16 < m + 1 := by linarith
    have hint : (10 : ℤ) ^ 16 < m + 1 := by exact_mod_cast hlt
    omega
  have hm' : m ≤ 10 ^ 17 := by
    have hlt : (m : ℚ) < 10 ^ 17 + 1 := by linarith
    have hint : m < 10 ^ 17 + 1 := by exact_mod_cast hlt
    omega
  have hcast : ((m.toNat : ℕ) : ℚ) = m := by
    exact_mod_cast Int.toNat_of_nonneg (le_trans (by norm_num) hm)
  have herror : |(m : ℚ) * 10 ^ (e - 16) - q| ≤ q / (2 * 10 ^ 16) := by
    have hfactor : (m : ℚ) * 10 ^ (e - 16) - q = (m - q / 10 ^ (e - 16)) * 10 ^ (e - 16) := by
      field_simp
    rw [hfactor, abs_mul, abs_of_pos hscale]
    calc |(m : ℚ) - q / 10 ^ (e - 16)| * 10 ^ (e - 16)
        ≤ 1 / 2 * 10 ^ (e - 16) := mul_le_mul_of_nonneg_right hround hscale.le
      _ = 10 ^ e / (2 * 10 ^ 16) := by
          rw [hunit]
          field_simp
      _ ≤ q / (2 * 10 ^ 16) := div_le_div_of_nonneg_right hlow (by norm_num)
  split
  next htop =>
    have hmtop : m = 10 ^ 17 := by
      have hint : (m.toNat : ℤ) = 10 ^ 17 := by exact_mod_cast htop
      omega
    refine ⟨le_refl _, by norm_num, ?_⟩
    have hsame : ((10 ^ 16 : ℕ) : ℚ) * 10 ^ (e + 1 - 16) = m * 10 ^ (e - 16) := by
      rw [hmtop, show e + 1 - 16 = (e - 16) + 1 by ring, zpow_add_one₀ (by norm_num)]
      push_cast
      ring
    rw [hsame]
    exact herror
  next htop =>
    have hmnat : (10 : ℤ) ^ 16 ≤ m.toNat ∧ (m.toNat : ℤ) < 10 ^ 17 := by
      have hint : (m.toNat : ℤ) ≠ 10 ^ 17 := by exact_mod_cast htop
      omega
    refine ⟨by exact_mod_cast hmnat.1, by exact_mod_cast hmnat.2, ?_⟩
    rw [hcast]
    exact herror

/-! ## Reading the digits -/

/-- Text that is read as this many units of its last place. -/
def ReadsAs (text : List UInt8) (q : ℚ) : Prop :=
  ∃ n places, significandIn 10 text = some (n, places) ∧ (n : ℚ) / 10 ^ places = q

theorem splitAtMarker_none {marks : UInt8 → Bool} {text : List UInt8}
    (htext : ∀ byte ∈ text, marks byte = false) : splitAtMarker marks text = (text, none) := by
  have hall : ∀ byte ∈ text, (!marks byte) = true := fun byte hbyte => by rw [htext byte hbyte]; rfl
  rw [splitAtMarker, List.takeWhile_eq_self_iff.mpr hall, List.dropWhile_eq_nil_iff.mpr hall]
  rfl

theorem splitAtMarker_some {marks : UInt8 → Bool} {before after : List UInt8} {mark : UInt8}
    (hbefore : ∀ byte ∈ before, marks byte = false) (hmark : marks mark = true) :
    splitAtMarker marks (before ++ mark :: after) = (before, some after) := by
  have hall : ∀ byte ∈ before, (!marks byte) = true := fun byte hbyte => by
    rw [hbefore byte hbyte]
    rfl
  rw [splitAtMarker, List.takeWhile_append_of_pos hall, List.dropWhile_append_of_pos hall,
    List.takeWhile_cons_of_neg (by simp [hmark]), List.dropWhile_cons_of_neg (by simp [hmark]),
    List.append_nil]
  rfl

theorem digitsIn_append (base : Nat) (text more : List UInt8) :
    digitsIn base (text ++ more) = more.foldl (pushDigitIn base) (digitsIn base text) := by
  rw [digitsIn, digitsIn, List.foldl_append]

theorem digitsIn_append_zeros (text : List UInt8) (k : Nat) :
    digitsIn 10 (text ++ List.replicate k 48) = digitsIn 10 text * 10 ^ k := by
  induction k with
  | zero => simp
  | succ k ih =>
      rw [List.replicate_succ', ← List.append_assoc, digitsIn_append, ih, List.foldl_cons,
        List.foldl_nil, pushDigitIn, pow_succ]
      show 10 * (digitsIn 10 text * 10 ^ k) + 0 = _
      ring

theorem digitsIn_zeros_append (text : List UInt8) (k : Nat) :
    digitsIn 10 (List.replicate k 48 ++ text) = digitsIn 10 text := by
  have hzeros : digitsIn 10 (List.replicate k 48) = 0 := by
    simpa [digitsIn] using digitsIn_append_zeros [] k
  rw [digitsIn_append, hzeros, digitsIn]

theorem digitsIn_decimal (n : Nat) : digitsIn 10 (decimal n) = n := by
  rw [digitsIn_ten fun _ => isDigit_of_mem_decimal, foldl_pushDigit_decimal]

theorem natIn_digits {text : List UInt8} (hne : text ≠ []) (htext : ∀ b ∈ text, isDigit b = true) :
    natIn 10 text = some (digitsIn 10 text) := by
  rw [natIn, if_pos ⟨hne, List.all_eq_true.mpr fun byte hbyte =>
    isDigitIn_of_isDigit (htext byte hbyte)⟩]

theorem isDigit_ne_point {byte : UInt8} (hbyte : isDigit byte = true) :
    decide (byte = 46) = false := by
  refine decide_eq_false ?_
  rintro rfl
  exact absurd hbyte (by decide)

theorem readsAs_digits {text : List UInt8} (hne : text ≠ [])
    (htext : ∀ byte ∈ text, isDigit byte = true) : ReadsAs text (digitsIn 10 text) := by
  refine ⟨digitsIn 10 text, 0, ?_, by simp⟩
  rw [significandIn, splitAtMarker_none fun byte hbyte => isDigit_ne_point (htext byte hbyte)]
  simp [natIn_digits hne htext]

theorem readsAs_pointed {whole fraction : List UInt8} (hne : whole ≠ [])
    (hwhole : ∀ byte ∈ whole, isDigit byte = true)
    (hfraction : ∀ byte ∈ fraction, isDigit byte = true) :
    ReadsAs (whole ++ 46 :: fraction) (digitsIn 10 (whole ++ fraction) / 10 ^ fraction.length) := by
  refine ⟨digitsIn 10 (whole ++ fraction), fraction.length, ?_, rfl⟩
  have hall : ∀ byte ∈ whole ++ fraction, isDigit byte = true := by
    intro byte hbyte
    exact (List.mem_append.mp hbyte).elim (hwhole byte) (hfraction byte)
  rw [significandIn, splitAtMarker_some (fun byte hbyte => isDigit_ne_point (hwhole byte hbyte))
    (by decide)]
  simp [natIn_digits (List.append_ne_nil_of_left_ne_nil hne fraction) hall]

/-- A fraction without the zeros at its end. -/
theorem exists_trailing_zeros (fraction : List UInt8) :
    ∃ kept k, fraction = kept ++ List.replicate k 48 ∧
      ∀ whole : List UInt8, ((whole ++ 46 :: fraction).reverse.dropWhile (· = 48)).reverse =
        whole ++ 46 :: kept := by
  refine ⟨(fraction.reverse.dropWhile (· = 48)).reverse,
    (fraction.reverse.takeWhile (· = 48)).length, ?_, fun whole => ?_⟩
  · have hzeros : fraction.reverse.takeWhile (· = 48) =
        List.replicate (fraction.reverse.takeWhile (· = 48)).length 48 := by
      refine List.eq_replicate_of_mem fun byte hbyte => ?_
      simpa using List.mem_takeWhile_imp hbyte
    have hsplit := congrArg List.reverse
      (List.takeWhile_append_dropWhile (p := (· = 48)) (l := fraction.reverse))
    rw [List.reverse_append, List.reverse_reverse, hzeros, List.reverse_replicate] at hsplit
    exact hsplit.symm
  · rw [List.reverse_append, List.reverse_cons, List.append_assoc, List.dropWhile_append]
    split
    next hempty =>
      rw [List.isEmpty_iff.mp hempty]
      simp
    next => simp

/-- Zeros at the end of a fraction do not count. -/
theorem readsAs_stripZeros {whole fraction : List UInt8} (hne : whole ≠ [])
    (hwhole : ∀ byte ∈ whole, isDigit byte = true)
    (hfraction : ∀ byte ∈ fraction, isDigit byte = true) :
    ReadsAs (stripZeros (whole ++ 46 :: fraction))
      (digitsIn 10 (whole ++ fraction) / 10 ^ fraction.length) := by
  obtain ⟨kept, k, rfl, hkept⟩ := exists_trailing_zeros fraction
  have hdigits : ∀ byte ∈ kept, isDigit byte = true := fun byte hbyte =>
    hfraction byte (List.mem_append_left _ hbyte)
  have hvalue : (digitsIn 10 (whole ++ (kept ++ List.replicate k 48)) : ℚ) /
      10 ^ (kept ++ List.replicate k 48).length =
        digitsIn 10 (whole ++ kept) / 10 ^ kept.length := by
    rw [← List.append_assoc, digitsIn_append_zeros, List.length_append, List.length_replicate,
      pow_add]
    push_cast
    rw [mul_div_mul_right _ _ (by positivity)]
  rw [hvalue, stripZeros, hkept whole]
  split
  next hlast =>
    -- A point that ends up last goes too.
    have hempty : kept = [] := by
      by_contra hsome
      rw [List.getLast?_append_of_ne_nil _ (by simp), List.getLast?_cons,
        List.getLast?_eq_some_getLast hsome, Option.getD_some, Option.some.injEq] at hlast
      exact absurd (hlast ▸ hdigits _ (List.getLast_mem hsome)) (by decide)
    rw [hempty, List.dropLast_concat]
    simpa using readsAs_digits hne hwhole
  next hlast => exact readsAs_pointed hne hwhole hdigits

/-! ## Seventeen digits -/

theorem takeHexPrefix_none {text : List UInt8} (htext : ∀ byte ∈ text, isNumeric byte = true) :
    takeHexPrefix text = none := by
  rw [takeHexPrefix.eq_def]
  split
  next x rest =>
    have hx := htext x (by simp)
    rw [if_neg]
    rintro (rfl | rfl) <;> exact absurd hx (by decide)
  next => rfl

/-- Bytes among which no exponent starts. -/
def IsPlain (text : List UInt8) : Prop := ∀ byte ∈ text, isDigit byte = true ∨ byte = 46

theorem IsPlain.unmarked {text : List UInt8} (htext : IsPlain text) :
    ∀ byte ∈ text, (byte = 101 || byte = 69 : Bool) = false := by
  intro byte hbyte
  rcases htext byte hbyte with hdigit | rfl
  · refine Bool.eq_false_iff.mpr fun hmark => ?_
    rcases Bool.or_eq_true _ _ |>.mp hmark with h | h <;>
      · rw [of_decide_eq_true h] at hdigit
        exact absurd hdigit (by decide)
  · rfl

theorem IsPlain.numeric {text : List UInt8} (htext : IsPlain text) :
    ∀ byte ∈ text, isNumeric byte = true := by
  intro byte hbyte
  rcases htext byte hbyte with hdigit | rfl
  · exact isNumeric_of_isDigit hdigit
  · rfl

theorem IsPlain.pointed {whole fraction : List UInt8}
    (hwhole : ∀ byte ∈ whole, isDigit byte = true)
    (hfraction : ∀ byte ∈ fraction, isDigit byte = true) : IsPlain (whole ++ 46 :: fraction) := by
  intro byte hbyte
  rcases List.mem_append.mp hbyte with hfirst | hrest
  · exact .inl (hwhole byte hfirst)
  · exact (List.mem_cons.mp hrest).elim .inr fun hlast => .inl (hfraction byte hlast)

theorem IsPlain.stripZeros {text : List UInt8} (htext : IsPlain text) :
    IsPlain (stripZeros text) := fun byte hbyte => htext byte (mem_stripZeros hbyte)

theorem exactOf_of_readsAs {text : List UInt8} {q : ℚ} (hreads : ReadsAs text q)
    (hplain : IsPlain text) : exactOf text = some q := by
  obtain ⟨n, places, hsignificand, rfl⟩ := hreads
  rw [exactOf, takeHexPrefix_none hplain.numeric]
  dsimp only
  rw [scaledIn, splitAtMarker_none hplain.unmarked]
  simp [hsignificand]

theorem natIn_padded (width n : Nat) : natIn 10 (padded width n) = some n := by
  have hdigits : ∀ byte ∈ padded width n, isDigit byte = true := by
    intro byte hbyte
    rcases List.mem_append.mp hbyte with hzero | hdigit
    · rw [(List.mem_replicate.mp hzero).2]
      rfl
    · exact isDigit_of_mem_decimal hdigit
  have hne : padded width n ≠ [] := List.append_ne_nil_of_right_ne_nil _ (decimal_ne_nil n)
  rw [natIn_digits hne hdigits, padded, digitsIn_zeros_append, digitsIn_decimal]

/-- An exponent with its sign. -/
theorem exponentOf_signed (e : ℤ) :
    exponentOf ((if e < 0 then 45 else 43) :: padded 2 e.natAbs) = some e := by
  by_cases hneg : e < 0
  · have hsign : takeSign (45 :: padded 2 e.natAbs) = (true, padded 2 e.natAbs) := rfl
    rw [if_pos hneg, exponentOf, hsign]
    dsimp only
    rw [natIn_padded]
    show some (-(e.natAbs : ℤ)) = some e
    rw [Option.some.injEq]
    omega
  · have hsign : takeSign (43 :: padded 2 e.natAbs) = (false, padded 2 e.natAbs) := rfl
    rw [if_neg hneg, exponentOf, hsign]
    dsimp only
    rw [natIn_padded]
    show some (e.natAbs : ℤ) = some e
    rw [Option.some.injEq]
    omega

theorem exactOf_scientific {text : List UInt8} {q : ℚ} (hreads : ReadsAs text q)
    (hplain : IsPlain text) (e : ℤ) :
    exactOf (text ++ [101, if e < 0 then 45 else 43] ++ padded 2 e.natAbs) =
      some (q * 10 ^ e) := by
  obtain ⟨n, places, hsignificand, rfl⟩ := hreads
  have hnumeric : ∀ byte ∈ text ++ [101, if e < 0 then 45 else 43] ++ padded 2 e.natAbs,
      isNumeric byte = true := by
    intro byte hbyte
    rcases List.mem_append.mp hbyte with hhead | hexponent
    · rcases List.mem_append.mp hhead with htext | hmark
      · exact hplain.numeric byte htext
      · rcases List.mem_cons.mp hmark with rfl | hsign
        · rfl
        · rw [List.mem_singleton.mp hsign]
          split <;> rfl
    · exact numeric_padded hexponent
  have hshape : text ++ [101, if e < 0 then 45 else 43] ++ padded 2 e.natAbs =
      text ++ 101 :: ((if e < 0 then 45 else 43) :: padded 2 e.natAbs) := by simp
  rw [exactOf, takeHexPrefix_none hnumeric]
  dsimp only
  rw [hshape, scaledIn, splitAtMarker_some hplain.unmarked (by decide)]
  simp only [hsignificand, Option.elim_some, exponentOf_signed]
  norm_num

/-- What `%.17g` prints of a positive rational reads as its seventeen digits. -/
theorem exactOf_general17 {q : ℚ} (hq : 0 < q) : exactOf (general17 q) =
    some (((significant17 q).1 : ℚ) * 10 ^ ((significant17 q).2 - 16)) := by
  obtain ⟨hlow, hhigh, -⟩ := significant17_spec hq
  rw [general17, if_neg hq.ne', abs_of_pos hq, signOf, if_neg (not_lt.mpr hq.le)]
  generalize significant17 q = rounded at hlow hhigh
  obtain ⟨n, e⟩ := rounded
  have hlength : (decimal n).length = 17 := length_decimal hlow hhigh
  have hdigits : ∀ byte ∈ decimal n, isDigit byte = true := fun _ => isDigit_of_mem_decimal
  have htake : ∀ k, ∀ byte ∈ (decimal n).take k, isDigit byte = true := fun k byte hbyte =>
    hdigits byte (List.mem_of_mem_take hbyte)
  have hdrop : ∀ k, ∀ byte ∈ (decimal n).drop k, isDigit byte = true := fun k byte hbyte =>
    hdigits byte (List.mem_of_mem_drop hbyte)
  have htakeNe : ∀ k, (decimal n).take (k + 1) ≠ [] := fun k hnil => by
    have hzero := congrArg List.length hnil
    rw [List.length_take, hlength, List.length_nil] at hzero
    omega
  have hpoint : ∀ k, ReadsAs (stripZeros ((decimal n).take (k + 1) ++ 46 ::
      (decimal n).drop (k + 1))) (n / 10 ^ (17 - (k + 1))) := by
    intro k
    have hreads := readsAs_stripZeros (htakeNe k) (htake (k + 1)) (hdrop (k + 1))
    rwa [List.take_append_drop, digitsIn_decimal, List.length_drop, hlength] at hreads
  have hplain : ∀ k, IsPlain (stripZeros ((decimal n).take k ++ 46 :: (decimal n).drop k)) :=
    fun k => (IsPlain.pointed (htake k) (hdrop k)).stripZeros
  dsimp only
  rw [List.nil_append]
  split
  next hrange =>
    split
    next hnonneg =>
      split
      next hwhole =>
        have he : e = 16 := by omega
        have hreads := readsAs_digits (decimal_ne_nil n) hdigits
        rw [digitsIn_decimal] at hreads
        rw [exactOf_of_readsAs hreads fun byte hbyte => .inl (hdigits byte hbyte), he]
        norm_num
      next hwhole =>
        rw [exactOf_of_readsAs (hpoint _) (hplain _)]
        congr 1
        rw [show e - 16 = -((17 - (e.toNat + 1) : ℕ) : ℤ) by omega, zpow_neg, zpow_natCast,
          div_eq_mul_inv]
    next hneg =>
      have hzeros : ∀ byte ∈ List.replicate (e.natAbs - 1) 48 ++ decimal n,
          isDigit byte = true := by
        intro byte hbyte
        rcases List.mem_append.mp hbyte with hzero | hdigit
        · rw [(List.mem_replicate.mp hzero).2]
          rfl
        · exact hdigits byte hdigit
      have hzero : ∀ byte ∈ [(48 : UInt8)], isDigit byte = true := fun byte hbyte => by
        rw [List.mem_singleton.mp hbyte]
        rfl
      have hreads := readsAs_stripZeros (by simp) hzero hzeros
      have hvalue : digitsIn 10 ([48] ++ (List.replicate (e.natAbs - 1) 48 ++ decimal n)) = n := by
        have hone : ([48] : List UInt8) = List.replicate 1 48 := rfl
        rw [hone, digitsIn_zeros_append, digitsIn_zeros_append, digitsIn_decimal]
      rw [hvalue, List.length_append, List.length_replicate, hlength] at hreads
      have hshape : ([48, 46] ++ List.replicate (e.natAbs - 1) 48 ++ decimal n : List UInt8) =
          [48] ++ 46 :: (List.replicate (e.natAbs - 1) 48 ++ decimal n) := by simp
      rw [hshape, exactOf_of_readsAs hreads (IsPlain.pointed hzero hzeros).stripZeros]
      congr 1
      rw [show e - 16 = -((e.natAbs - 1 + 17 : ℕ) : ℤ) by omega, zpow_neg, zpow_natCast,
        div_eq_mul_inv]
  next hrange =>
    rw [exactOf_scientific (hpoint 0) (hplain 1)]
    congr 1
    rw [zpow_sub₀ (by norm_num : (10 : ℚ) ≠ 0), div_mul_eq_mul_div, mul_div_assoc]
    norm_num

/-! ## Signs -/

/-- No numeral starts with white space or a sign. -/
theorem exactOf_cons_none {byte : UInt8} (rest : List UInt8) (hdigit : isDigitIn 10 byte = false)
    (hmark : byte ≠ 101 ∧ byte ≠ 69) (hpoint : byte ≠ 46) : exactOf (byte :: rest) = none := by
  have hhex : takeHexPrefix (byte :: rest) = none := by
    rw [takeHexPrefix.eq_def]
    split
    next heq =>
      obtain ⟨rfl, -⟩ := List.cons.inj heq
      exact absurd hdigit (by decide)
    next => rfl
  rw [exactOf, hhex]
  dsimp only
  rw [scaledIn, splitAtMarker, List.takeWhile_cons_of_pos (by simp [hmark])]
  dsimp only
  rw [significandIn, splitAtMarker, List.takeWhile_cons_of_pos (by simp [hpoint])]
  dsimp only
  rw [natIn, if_neg fun hall => by
    have hfirst := List.all_eq_true.mp hall.2 byte (by simp)
    rw [hdigit] at hfirst
    simp at hfirst]
  rfl

theorem exactOf_nil : exactOf [] = none := rfl

/-- So neither is taken off a numeral. -/
theorem takeSign_of_exactOf {text : List UInt8} {q : ℚ} (hexact : exactOf text = some q) :
    takeSign (text.dropWhile isSpace) = (false, text) := by
  cases text with
  | nil =>
      rw [exactOf_nil] at hexact
      simp at hexact
  | cons byte rest =>
      have hnot : ∀ other : UInt8, isDigitIn 10 other = false → (other ≠ 101 ∧ other ≠ 69) →
          other ≠ 46 → byte ≠ other := by
        rintro other hdigit hmark hpoint rfl
        rw [exactOf_cons_none rest hdigit hmark hpoint] at hexact
        simp at hexact
      have hspace : isSpace byte = false := by
        refine Bool.eq_false_iff.mpr fun hbyte => ?_
        refine hnot byte ?_ ⟨?_, ?_⟩ ?_ rfl
        · rw [isSpace, Bool.or_eq_true, Bool.and_eq_true] at hbyte
          simp only [decide_eq_true_eq] at hbyte
          rw [isDigitIn, digitOf]
          rcases hbyte with rfl | hrange
          · rfl
          · rw [if_neg (by omega), if_neg (by omega), if_neg (by omega)]
        all_goals
          rintro rfl
          exact absurd hbyte (by decide)
      rw [List.dropWhile_cons_of_neg (by simp [hspace]), takeSign.eq_def]
      split
      next heq => exact absurd (List.cons.inj heq).1 (hnot 45 (by decide) (by decide) (by decide))
      next heq => exact absurd (List.cons.inj heq).1 (hnot 43 (by decide) (by decide) (by decide))
      next => rfl

/-- A numeral behind the sign of a value that is printed. -/
theorem takeSign_signOf {text : List UInt8} {exact : ℚ} (hexact : exactOf text = some exact)
    (q : ℚ) : takeSign ((signOf q ++ text).dropWhile isSpace) = (decide (q < 0), text) := by
  rw [signOf]
  split
  next hneg =>
    rw [decide_eq_true hneg]
    rfl
  next hneg =>
    rw [decide_eq_false hneg]
    exact takeSign_of_exactOf hexact

theorem signOf_abs (q : ℚ) : signOf |q| = [] := if_neg (not_lt.mpr (abs_nonneg q))

theorem general17_eq {q : ℚ} (hq : q ≠ 0) : general17 q = signOf q ++ general17 |q| := by
  rw [general17, if_neg hq, general17, if_neg (abs_ne_zero.mpr hq), abs_abs, signOf_abs]
  rfl

/-- What reading the printed digits of a value other than 0 comes down to. -/
theorem strtod_general17_eq {q : ℚ} (hq : q ≠ 0) :
    let exact : ℚ := ((significant17 |q|).1 : ℚ) * 10 ^ ((significant17 |q|).2 - 16)
    strtod (general17 q) =
      if Binary64.overflow ≤ Binary64.nearest exact then none
      else if Binary64.nearest exact < Binary64.minNormal ∧ Binary64.nearest exact ≠ exact then none
      else some (if q < 0 then -Binary64.nearest exact else Binary64.nearest exact) := by
  intro exact
  have hexact : exactOf (general17 |q|) = some exact := exactOf_general17 (abs_pos.mpr hq)
  rw [general17_eq hq, strtod, takeSign_signOf hexact]
  simp only [hexact, decide_eq_true_eq]

/-- **Seventeen digits suffice.** -/
theorem strtod_general17 {v : ℚ} (hdouble : Binary64.IsDouble v)
    (hnormal : v = 0 ∨ Binary64.minNormal ≤ |v|) (hfinite : |v| < Binary64.overflow) :
    strtod (general17 v) = some v := by
  rcases hnormal with rfl | hnormal
  · decide +kernel
  have hpos : 0 < |v| := lt_of_lt_of_le (zpow_pos (by norm_num) _) hnormal
  have hclose : Binary64.Close (((significant17 |v|).1 : ℚ) * 10 ^ ((significant17 |v|).2 - 16))
      |v| := (significant17_spec hpos).2.2
  have hback := Binary64.nearest_of_close hdouble.abs hpos hclose
  rw [strtod_general17_eq (abs_pos.mp hpos), hback, if_neg (not_le.mpr hfinite), if_neg fun hsmall => absurd hsmall.1 (not_lt.mpr hnormal)]
  split
  next hneg => rw [abs_of_neg hneg, neg_neg]
  next hneg => rw [abs_of_nonneg (not_lt.mp hneg)]

/-- What `strtod` returns is a double. -/
theorem isDouble_of_strtod {text : List UInt8} {v : ℚ} (hreads : strtod text = some v) :
    Binary64.IsDouble v := by
  rw [strtod] at hreads
  generalize takeSign (text.dropWhile isSpace) = parts at hreads
  obtain ⟨negative, rest⟩ := parts
  dsimp only at hreads
  cases hexact : exactOf rest with
  | none => simp [hexact] at hreads
  | some exact =>
      simp only [hexact] at hreads
      split at hreads
      · simp at hreads
      · split at hreads
        · simp at hreads
        · obtain rfl := Option.some.inj hreads
          split
          · exact (Binary64.isDouble_nearest exact).neg
          · exact Binary64.isDouble_nearest exact

/-! ## Below the smallest normal double -/

/-- A dyadic fraction is no decimal fraction of too few places. -/
theorem dyadic_ne_decimal {m n bits k : ℕ} (hm : 0 < m) (hsmall : m < 2 ^ (bits - k))
    (hk : k ≤ bits) : (m : ℚ) / 2 ^ bits ≠ n / 10 ^ k := by
  intro hvalue
  rw [div_eq_div_iff (by positivity) (by positivity)] at hvalue
  have hcross : m * 10 ^ k = n * 2 ^ bits := by exact_mod_cast hvalue
  -- The powers of two on the two sides do not match.
  have hequal : m * 5 ^ k = n * 2 ^ (bits - k) := by
    have hpow : (2 : ℕ) ^ bits = 2 ^ (bits - k) * 2 ^ k := by
      rw [← pow_add, Nat.sub_add_cancel hk]
    have hten : (10 : ℕ) ^ k = 5 ^ k * 2 ^ k := by
      rw [← mul_pow]
      norm_num
    rw [hpow, hten, ← mul_assoc, ← mul_assoc] at hcross
    exact Nat.eq_of_mul_eq_mul_right (by positivity) hcross
  have hcoprime : Nat.Coprime (2 ^ (bits - k)) (5 ^ k) := Nat.Coprime.pow _ _ (by decide)
  have hdvd : 2 ^ (bits - k) ∣ m :=
    hcoprime.dvd_of_dvd_mul_right ⟨n, by rw [hequal, mul_comm]⟩
  exact absurd (Nat.le_of_dvd hm hdvd) (not_le.mpr hsmall)

/-- Nor is a double below the normal ones. -/
theorem ne_decimal_of_subnormal {v : ℚ} (hdouble : Binary64.IsDouble v) (hv : 0 < v)
    (hsmall : v < Binary64.minNormal) (n : ℕ) {k : ℕ} (hk : k ≤ 400) : v ≠ n / 10 ^ k := by
  obtain ⟨m, hscaled, -⟩ := hdouble.eq_mul hv.ne'
  have hlog : Binary64.log2Floor v < -1022 :=
    (zpow_lt_zpow_iff_right₀ (by norm_num : (1 : ℚ) < 2)).mp
      (lt_of_le_of_lt (Binary64.zpow_log2Floor_le hv) hsmall)
  have hbit : Binary64.lastBit v = -1074 := by
    rw [Binary64.lastBit, abs_of_pos hv]
    omega
  rw [hbit] at hscaled
  have hunit : (0 : ℚ) < 2 ^ (-1074 : ℤ) := zpow_pos (by norm_num) _
  have hm : 0 < m := by
    have hpos : (0 : ℚ) < m := by
      rw [hscaled] at hv
      exact pos_of_mul_pos_left hv hunit.le
    exact_mod_cast hpos
  have hbound : m < 2 ^ 52 := by
    have hlt : (m : ℚ) * 2 ^ (-1074 : ℤ) < 2 ^ 52 * 2 ^ (-1074 : ℤ) := by
      rw [← hscaled, ← zpow_natCast, ← zpow_add₀ (by norm_num)]
      exact hsmall
    exact_mod_cast lt_of_mul_lt_mul_right hlt hunit.le
  obtain ⟨count, rfl⟩ := Int.eq_ofNat_of_zero_le hm.le
  have hsplit : v = (count : ℚ) / 2 ^ 1074 := by
    rw [hscaled, zpow_neg, div_eq_mul_inv]
    rfl
  rw [hsplit]
  refine dyadic_ne_decimal (by exact_mod_cast hm) ?_ (by omega)
  have hcount : count < 2 ^ 52 := by exact_mod_cast hbound
  exact lt_of_lt_of_le hcount (Nat.pow_le_pow_right (by norm_num) (by omega))

/-- A subnormal value is read off exact digits only. -/
theorem exact_of_strtod {text : List UInt8} {q v exact : ℚ} (hexact : exactOf text = some exact)
    (hreads : strtod (signOf q ++ text) = some v) (hsmall : |v| < Binary64.minNormal) :
    |v| = |exact| := by
  rw [strtod, takeSign_signOf hexact] at hreads
  simp only [hexact] at hreads
  have habs : |if decide (q < 0) = true then -Binary64.nearest exact else Binary64.nearest exact| =
      |Binary64.nearest exact| := by
    split
    · exact abs_neg _
    · rfl
  split at hreads
  · simp at hreads
  · split at hreads
    · simp at hreads
    next hlossless =>
      obtain rfl := Option.some.inj hreads
      rw [habs] at hsmall ⊢
      by_contra hlost
      refine hlossless ⟨lt_of_le_of_lt (le_abs_self _) hsmall, fun hsame => hlost ?_⟩
      rw [hsame]

theorem fixed_eq (decimals : Nat) (q : ℚ) : fixed decimals q = signOf q ++ fixed decimals |q| := by
  rw [fixed, fixed, signOf_abs, abs_abs]
  simp

theorem digitsIn_append_eq (text more : List UInt8) :
    digitsIn 10 (text ++ more) = digitsIn 10 text * 10 ^ more.length + digitsIn 10 more := by
  induction more using List.reverseRecOn with
  | nil => simp [digitsIn]
  | append_singleton more byte ih =>
      rw [← List.append_assoc, digitsIn_append _ (text ++ more), ih, digitsIn_append _ more]
      simp only [List.foldl_cons, List.foldl_nil, pushDigitIn, List.length_append,
        List.length_singleton, pow_succ]
      ring

theorem length_padded {width n : Nat} (hn : n < 10 ^ width) (hwidth : 0 < width) :
    (padded width n).length = width := by
  have hfits : (decimal n).length ≤ width := by
    by_cases hzero : n = 0
    · subst hzero
      exact hwidth
    · have hlow := (decimal_bounds n).2 (Nat.pos_of_ne_zero hzero)
      have hlt := (Nat.pow_lt_pow_iff_right (by norm_num : 1 < 10)).mp (lt_of_le_of_lt hlow hn)
      omega
  rw [padded, List.length_append, List.length_replicate]
  omega

/-- An integer of decimal units, with a point in front of the last of them, reads as
their value. -/
theorem exactOf_pointed (n : ℕ) {decimals : ℕ} (hpos : 0 < decimals) :
    exactOf (decimal (n / 10 ^ decimals) ++ 46 :: padded decimals (n % 10 ^ decimals)) =
      some ((n : ℚ) / 10 ^ decimals) := by
  have hdigits : ∀ m, ∀ byte ∈ decimal m, isDigit byte = true := fun _ _ => isDigit_of_mem_decimal
  have hpadded : ∀ byte ∈ padded decimals (n % 10 ^ decimals), isDigit byte = true := by
    intro byte hbyte
    rcases List.mem_append.mp hbyte with hzero | hdigit
    · rw [(List.mem_replicate.mp hzero).2]
      rfl
    · exact hdigits _ byte hdigit
  have hlength := length_padded (Nat.mod_lt n (by positivity : 0 < 10 ^ decimals)) hpos
  have hreads := readsAs_pointed (decimal_ne_nil (n / 10 ^ decimals)) (hdigits _) hpadded
  have hvalue : digitsIn 10 (padded decimals (n % 10 ^ decimals)) = n % 10 ^ decimals := by
    rw [padded, digitsIn_zeros_append, digitsIn_decimal]
  rw [digitsIn_append_eq, digitsIn_decimal, hvalue, hlength, Nat.div_add_mod'] at hreads
  exact exactOf_of_readsAs hreads (IsPlain.pointed (hdigits _) hpadded)

/-- A value with a fixed number of decimals reads as what it was rounded to. -/
theorem exactOf_fixed (decimals : Nat) (q : ℚ) : ∃ n : ℕ,
    exactOf (fixed decimals |q|) = some ((n : ℚ) / 10 ^ decimals) := by
  rw [fixed, signOf_abs, abs_abs, List.nil_append]
  generalize (Binary64.roundHalfEven (|q| * 10 ^ decimals)).toNat = n
  refine ⟨n, ?_⟩
  split
  next hnone =>
    subst hnone
    have hdigits : ∀ byte ∈ decimal n, isDigit byte = true := fun _ => isDigit_of_mem_decimal
    have hreads := readsAs_digits (decimal_ne_nil n) hdigits
    rw [digitsIn_decimal] at hreads
    rw [pow_zero, Nat.div_one, List.append_nil,
      exactOf_of_readsAs hreads fun byte hbyte => .inl (hdigits byte hbyte)]
    norm_num
  next hsome => exact exactOf_pointed n (Nat.pos_of_ne_zero hsome)

/-- No fixed number of decimals reads back as a subnormal double. -/
theorem strtod_fixed_ne {v : ℚ} (hdouble : Binary64.IsDouble v) (hne : v ≠ 0)
    (hsmall : |v| < Binary64.minNormal) {decimals : Nat} (hdecimals : decimals ≤ 400) :
    strtod (fixed decimals v) ≠ some v := by
  intro hreads
  obtain ⟨n, hexact⟩ := exactOf_fixed decimals v
  rw [fixed_eq] at hreads
  have hvalue := exact_of_strtod hexact hreads hsmall
  rw [abs_of_nonneg (by positivity : (0 : ℚ) ≤ n / 10 ^ decimals)] at hvalue
  exact ne_decimal_of_subnormal hdouble.abs (abs_pos.mpr hne) hsmall n hdecimals hvalue

/-- A double is no smaller than the smallest. -/
theorem le_of_isDouble {v : ℚ} (hdouble : Binary64.IsDouble v) (hv : 0 < v) :
    (2 : ℚ) ^ (-1074 : ℤ) ≤ v := by
  obtain ⟨n, hvalue, -⟩ := hdouble.eq_mul hv.ne'
  have hlast : -1074 ≤ Binary64.lastBit v := le_max_right _ _
  have hbit := Binary64.lastBit_le_log2Floor hv hvalue
  exact (zpow_le_zpow_right₀ (by norm_num) (by omega)).trans (Binary64.zpow_log2Floor_le hv)

/-- Nor do seventeen digits. -/
theorem strtod_general17_ne {v : ℚ} (hdouble : Binary64.IsDouble v) (hne : v ≠ 0)
    (hsmall : |v| < Binary64.minNormal) : strtod (general17 v) ≠ some v := by
  intro hreads
  have hpos := abs_pos.mpr hne
  have hexact := exactOf_general17 hpos
  obtain ⟨-, hhigh, -⟩ := significant17_spec hpos
  rw [general17_eq hne] at hreads
  have hvalue := exact_of_strtod hexact hreads hsmall
  generalize significant17 |v| = rounded at hhigh hvalue
  obtain ⟨n, e⟩ := rounded
  dsimp only at hhigh hvalue
  have hnonneg : (0 : ℚ) ≤ n * 10 ^ (e - 16) :=
    mul_nonneg (Nat.cast_nonneg n) (zpow_pos (by norm_num) _).le
  rw [abs_of_nonneg hnonneg] at hvalue
  rcases le_or_gt 16 e with hlarge | hless
  · obtain ⟨k, hk⟩ := Int.eq_ofNat_of_zero_le (by omega : 0 ≤ e - 16)
    refine ne_decimal_of_subnormal hdouble.abs hpos hsmall (n * 10 ^ k) (Nat.zero_le 400) ?_
    rw [hvalue, hk]
    push_cast
    norm_num
  · obtain ⟨k, hk⟩ := Int.eq_ofNat_of_zero_le (by omega : 0 ≤ 16 - e)
    have hexponent : e - 16 = -(k : ℤ) := by omega
    rw [hexponent, zpow_neg, zpow_natCast, ← div_eq_mul_inv] at hvalue
    -- The smallest double has its first digit some hundred places off.
    have hk : k ≤ 400 := by
      by_contra hmany
      have hless : |v| < 10 ^ 17 / 10 ^ 400 := by
        rw [hvalue]
        calc (n : ℚ) / 10 ^ k < 10 ^ 17 / 10 ^ k := by
              refine div_lt_div_of_pos_right ?_ (by positivity)
              exact_mod_cast hhigh
          _ ≤ 10 ^ 17 / 10 ^ 400 := by
              refine div_le_div_of_nonneg_left (by positivity) (by positivity) ?_
              exact pow_le_pow_right₀ (by norm_num) (by omega)
      have htiny : (10 : ℚ) ^ 17 / 10 ^ 400 < 2 ^ (-1074 : ℤ) := by decide +kernel
      exact absurd (le_of_isDouble hdouble.abs hpos) (not_le.mpr (hless.trans htiny))
    exact ne_decimal_of_subnormal hdouble.abs hpos hsmall n hk hvalue

end Coreletd.Library.Numerals
