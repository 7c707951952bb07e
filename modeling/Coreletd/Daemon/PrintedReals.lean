/-
# Doubles in the settings file

The fewest decimals that read back, or seventeen digits: either way a double is
read as itself, unless it is subnormal. What a row holds is a double wherever it
came from, so the one setting that could fail to read back is a duty cycle below
the smallest normal double.
-/

import Coreletd.Daemon.SettingsRestart
import Coreletd.Library.SeventeenDigits

namespace Coreletd.Daemon

open Coreletd.Library
open Coreletd.Radio

/-! ## Printing and reading one double -/

/-- No decimals were found, and none of those tried reads back. -/
theorem fewestDecimals_none {v : ℚ} {decimals more : Nat}
    (hnone : ∀ count < decimals + more, Numerals.strtod (Numerals.fixed count v) ≠ some v) :
    fewestDecimals v decimals more = none := by
  induction more generalizing decimals with
  | zero => rfl
  | succ more ih =>
      rw [fewestDecimals, if_neg (hnone decimals (by omega))]
      exact ih fun count hcount => hnone count (by omega)

/-- A double that is printed with the fewest decimals, or with seventeen digits, is
read back exactly if it is 0 or of normal size. -/
theorem formatReal_readsBack_iff {v : ℚ} (hdouble : Binary64.IsDouble v)
    (hfinite : |v| < Binary64.overflow) :
    Numerals.strtod (formatReal v) = some v ↔ v = 0 ∨ Binary64.minNormal ≤ |v| := by
  refine ⟨fun hreads => ?_, fun hnormal => ?_⟩
  · by_contra hsubnormal
    obtain ⟨hne, hsmall⟩ := not_or.mp hsubnormal
    rw [not_le] at hsmall
    have hnone : fewestDecimals v 0 18 = none := fewestDecimals_none fun count hcount =>
      Numerals.strtod_fixed_ne hdouble hne hsmall (by omega)
    rw [formatReal, hnone, Option.getD_none] at hreads
    exact Numerals.strtod_general17_ne hdouble hne hsmall hreads
  · rw [formatReal]
    cases hfound : fewestDecimals v 0 18 with
    | none => exact Numerals.strtod_general17 hdouble hnormal hfinite
    | some text => exact (Setting.of_fewestDecimals hfound).choose_spec.2

/-- A third, and the smallest double of all. -/
theorem formatReal_readsBack_third :
    Numerals.strtod (formatReal (Binary64.nearest (1 / 3))) =
        some (Binary64.nearest (1 / 3)) ∧
      Numerals.strtod (formatReal (2 ^ (-1074 : ℤ))) ≠ some (2 ^ (-1074 : ℤ)) := by
  refine ⟨(formatReal_readsBack_iff (Binary64.isDouble_nearest _) (by decide +kernel)).mpr
    (.inr (by decide +kernel)), fun hreads => ?_⟩
  have hdouble : Binary64.IsDouble (2 ^ (-1074 : ℤ)) :=
    ⟨1, -1074, by norm_num, by norm_num, by norm_num⟩
  have hnormal := (formatReal_readsBack_iff hdouble (by decide +kernel)).mp hreads
  exact absurd hnormal (by decide +kernel)

/-! ## The doubles of a config -/

/-- The field of a row is a double, where it is one. -/
def Setting.HoldsDouble (s : Setting) (cfg : Config) : Prop :=
  match s.target with
  | .real _ _ get _ => Binary64.IsDouble (get cfg)
  | _ => True

/-- The rationals of a config's rows are doubles. -/
def Config.Doubles (cfg : Config) : Prop := ∀ s ∈ settings, s.HoldsDouble cfg

namespace Setting

theorem Same.holdsDouble {s : Setting} {a b : Config} (hsame : s.Same a b)
    (ha : s.HoldsDouble a) : s.HoldsDouble b := by
  obtain ⟨key, target⟩ := s
  cases target <;> simp only [Same] at hsame <;> simp only [HoldsDouble] at ha ⊢
  rwa [← hsame]

theorem isDouble_of_getDouble {ini : Ini} {key : Bytes} {default v : ℚ}
    (hdefault : Binary64.IsDouble default) (hget : ini.getDouble key default = some v) :
    Binary64.IsDouble v := by
  rw [Ini.getDouble] at hget
  split at hget
  · obtain rfl := Option.some.inj hget
    exact hdefault
  · exact Numerals.isDouble_of_strtod hget

/-- What a row is given is a double, and so is what it keeps. -/
theorem apply_holdsDouble {ini : Ini} {s : Setting} (hs : s ∈ settings) {cfg cfg' : Config}
    (hcfg : s.HoldsDouble cfg) (hok : s.apply ini cfg = .ok cfg') : s.HoldsDouble cfg' := by
  have hreal : ∀ {key requirement : String} {valid : ℚ → Bool} {default : ℚ} {put : ℚ → Config},
      Binary64.IsDouble default →
      (checkReal key valid requirement (ini.getDouble s.text default)).map put = .ok cfg' →
      ∃ v, Binary64.IsDouble v ∧ cfg' = put v := by
    intro key requirement valid default put hdefault hmapped
    obtain ⟨v, hchecked, hput⟩ := exists_of_map_ok hmapped
    exact ⟨v, isDouble_of_getDouble hdefault (checkReal_ok hchecked).1, hput.symm⟩
  simp only [settings, List.mem_cons, List.not_mem_nil, or_false] at hs
  rcases hs with rfl | rfl | rfl | rfl | rfl | rfl | rfl | rfl | rfl | rfl
  · obtain ⟨v, hv, rfl⟩ := hreal hcfg hok
    exact hv
  · obtain ⟨v, hv, rfl⟩ := hreal hcfg hok
    exact hv
  · trivial
  · trivial
  · trivial
  · obtain ⟨v, hv, rfl⟩ := hreal hcfg hok
    exact hv
  all_goals trivial

end Setting

theorem Config.Doubles.set {cfg cfg' : Config} (hcfg : cfg.Doubles) {key value : Bytes}
    (hok : cfg.set key value = .ok cfg') : cfg'.Doubles := by
  obtain ⟨own, hown, htext, happly⟩ := Config.set_ok hok
  intro s hs
  by_cases hthis : s.text = key
  · rw [eq_of_text hs hown (hthis.trans htext.symm)]
    exact Setting.apply_holdsDouble hown (hcfg own hown) happly
  · exact (((Config.set_frame hok).2 s hs).2 hthis).symm.holdsDouble (hcfg s hs)

/-! ## Sizes -/

/-- What is not tiny is of normal size. -/
theorem minNormal_le {v : ℚ} (hv : 1 / 10000000 ≤ |v|) : Binary64.minNormal ≤ |v| := by
  have hpow : Binary64.minNormal ≤ (2 : ℚ) ^ (-24 : ℤ) :=
    zpow_le_zpow_right₀ (by norm_num) (by norm_num)
  refine hpow.trans (le_trans ?_ hv)
  norm_num

/-- What is not huge is finite. -/
theorem lt_overflow {v : ℚ} (hv : |v| ≤ 10000) : |v| < Binary64.overflow := by
  have hpow : (2 : ℚ) ^ (14 : ℤ) ≤ Binary64.overflow :=
    zpow_le_zpow_right₀ (by norm_num) (by norm_num)
  refine lt_of_le_of_lt hv (lt_of_lt_of_le ?_ hpow)
  norm_num

theorem readsBack_of_bounds {v : ℚ} (hdouble : Binary64.IsDouble v)
    (hlow : v = 0 ∨ 1 / 10000000 ≤ |v|) (hhigh : |v| ≤ 10000) :
    Numerals.strtod (formatReal v) = some v :=
  (formatReal_readsBack_iff hdouble (lt_overflow hhigh)).mpr (hlow.imp id minNormal_le)

/-- A supported bandwidth is near one of the list. -/
theorem bandwidth_bounds {khz : ℚ} (hkhz : supportedBandwidth khz = true) :
    6 ≤ khz ∧ khz ≤ 501 := by
  obtain ⟨supported, hmem, hnear⟩ := List.any_eq_true.mp hkhz
  have hlist : ∀ s ∈ kBandwidthsKhz, 7 ≤ s ∧ s ≤ 500 := by decide +kernel
  obtain ⟨hlow, hhigh⟩ := hlist supported hmem
  have hstep : Binary64.nearest (5 / 1000) ≤ 1 / 100 := by decide +kernel
  have hsmall : |Binary64.nearest (khz - supported)| ≤ 1 / 100 :=
    (of_decide_eq_true hnear).le.trans hstep
  -- A difference of one or more would not round to so little.
  have hone : |khz - supported| < 1 := by
    by_contra hfar
    rw [not_lt] at hfar
    have hround := Binary64.abs_nearest_sub_le_of_le (le_refl |khz - supported|) hfar
    have htri := abs_sub_abs_le_abs_sub (khz - supported) (Binary64.nearest (khz - supported))
    rw [abs_sub_comm (khz - supported)] at htri
    have htiny : |khz - supported| / 2 ^ 53 ≤ |khz - supported| / 2 :=
      div_le_div_of_nonneg_left (abs_nonneg _) (by norm_num) (by norm_num)
    linarith
  obtain ⟨hbelow, habove⟩ := abs_lt.mp hone
  constructor <;> linarith

/-- A position in degrees is 0 or a millionth at least. -/
theorem degreesOf_bounds (e6 : Int32) :
    (degreesOf e6 = 0 ∨ 1 / 10000000 ≤ |degreesOf e6|) ∧ |degreesOf e6| ≤ 10000 := by
  have hlow := e6.le_toInt
  have hhigh := e6.toInt_lt
  generalize hn : e6.toInt = n at hlow hhigh
  have hsize : |n| ≤ 2147483648 := abs_le.mpr ⟨by omega, by omega⟩
  have hcast : |(n : ℚ)| ≤ 2147483648 := by exact_mod_cast hsize
  have habs : |(n : ℚ) / 1000000| = |(n : ℚ)| / 1000000 := by
    rw [abs_div]
    norm_num
  rw [degreesOf, hn]
  have hround : |Binary64.nearest ((n : ℚ) / 1000000) - n / 1000000| ≤ 2148 / 2 ^ 53 :=
    Binary64.abs_nearest_sub_le_of_le (by rw [habs]; linarith) (by norm_num)
  have htri := abs_sub_abs_le_abs_sub (Binary64.nearest ((n : ℚ) / 1000000)) (n / 1000000)
  refine ⟨?_, by rw [habs] at htri; linarith⟩
  by_cases hzero : n = 0
  · subst hzero
    exact .inl (by simp)
  · right
    have hone : (1 : ℚ) ≤ |(n : ℚ)| := by exact_mod_cast Int.one_le_abs hzero
    have hback := abs_sub_abs_le_abs_sub ((n : ℚ) / 1000000) (Binary64.nearest (n / 1000000))
    rw [abs_sub_comm ((n : ℚ) / 1000000), habs] at hback
    linarith

/-- **Every setting reads back** that a row let in, but for a subnormal duty cycle. -/
theorem readsBack_of_inRange {s : Setting} (hs : s ∈ settings) {cfg : Config}
    (hrange : s.InRange cfg) (hdouble : s.HoldsDouble cfg)
    (hduty : s = .dutyCycle → Binary64.minNormal ≤ cfg.radio.dutyCyclePct) : s.ReadsBack cfg := by
  simp only [settings, List.mem_cons, List.not_mem_nil, or_false] at hs
  rcases hs with rfl | rfl | rfl | rfl | rfl | rfl | rfl | rfl | rfl | rfl
  · have hvalid : validFreq cfg.radio.freqMhz = true := hrange
    simp only [validFreq, Bool.or_eq_true, Bool.and_eq_true, decide_eq_true_eq] at hvalid
    refine readsBack_of_bounds hdouble (hvalid.imp id fun hbounds => ?_) ?_
    · exact le_trans (by linarith [hbounds.1]) (le_abs_self _)
    · rcases hvalid with hzero | ⟨hlow, hhigh⟩
      · show |cfg.radio.freqMhz| ≤ 10000
        rw [hzero, abs_zero]
        norm_num
      · show |cfg.radio.freqMhz| ≤ 10000
        rw [abs_of_nonneg (by linarith)]
        linarith
  · obtain ⟨hlow, hhigh⟩ := bandwidth_bounds hrange
    have habs : |cfg.radio.bwKhz| = cfg.radio.bwKhz := abs_of_nonneg (by linarith)
    exact readsBack_of_bounds hdouble (.inr (by rw [habs]; linarith)) (by rw [habs]; linarith)
  · trivial
  · trivial
  · trivial
  · have hvalid : validDutyCycle cfg.radio.dutyCyclePct = true := hrange
    simp only [validDutyCycle, Bool.and_eq_true, decide_eq_true_eq] at hvalid
    have habs : |cfg.radio.dutyCyclePct| = cfg.radio.dutyCyclePct := abs_of_pos hvalid.1
    refine (formatReal_readsBack_iff hdouble (lt_overflow ?_)).mpr (.inr ?_)
    · rw [habs]
      linarith [hvalid.2]
    · rw [habs]
      exact hduty rfl
  · trivial
  · obtain ⟨hlow, hhigh⟩ := degreesOf_bounds cfg.profile.latE6
    exact readsBack_of_bounds (Binary64.isDouble_nearest _) hlow hhigh
  · obtain ⟨hlow, hhigh⟩ := degreesOf_bounds cfg.profile.lonE6
    exact readsBack_of_bounds (Binary64.isDouble_nearest _) hlow hhigh
  · trivial

end Coreletd.Daemon
