/-
# What an app sets it reads back

What the frames show of the settings is one record. A settings command that is answered
with OK puts into it what the bytes of the command say, and nothing else: a frequency to
the kilohertz, a position to the millionth of a degree, an airtime factor to the
thousandth, and of the bandwidths the supported one within one percent. A command that is
answered with an error leaves the record alone, and so does whatever else happens.
-/

import Coreletd.Daemon.SettingsRestored

namespace Coreletd.Daemon

open Coreletd.Companion
open Coreletd.Library
open Coreletd.Mesh
open Coreletd.Radio

/-! ## What the frames show -/

/-- The settings as the frames have them. -/
structure Shown where
  name : Bytes
  latE6 : Int32
  lonE6 : Int32
  freqKhz : UInt32
  bwHz : UInt32
  sf : UInt8
  cr : UInt8
  txPower : UInt8
  factorMilli : UInt32
  relay : Bool
  deriving DecidableEq

namespace Shown

/-- The supported bandwidths, to the hertz. -/
def bandwidthsHz : List UInt32 :=
  [7810, 10420, 15630, 20830, 31250, 41670, 62500, 125000, 250000, 500000]

/-- What each settings command, answered with OK, does to what is shown: what its bytes
say. Bytes behind its fields are ignored; an app that leaves the last one of the radio's
parameters out has nothing repeated, and one that asks for it does so on a frequency where
it may. -/
inductive Asks : UInt8 → Bytes → Shown → Shown → Prop
  | name {shown : Shown} {args : Bytes} (hname : args.takeWhile (· ≠ 0) ≠ []) :
      Asks kCmdSetAdvertName args shown { shown with name := args.takeWhile (· ≠ 0) }
  | position {shown : Shown} (latE6 lonE6 : Int32) (rest : Bytes) :
      Asks kCmdSetAdvertLatLon (putI32 latE6 ++ putI32 lonE6 ++ rest) shown
        { shown with latE6, lonE6 }
  | radio {shown : Shown} (freqKhz wanted : UInt32) {bwHz : UInt32} (sf cr : UInt8) (rest : Bytes)
      (hsupported : bwHz ∈ bandwidthsHz)
      (hnear : 100 * |(wanted.toNat : ℤ) - bwHz.toNat| ≤ bwHz.toNat)
      (hrepeat : rest.headD 0 ≠ 0 → freqKhz ∈ kRepeatFreqsKhz) :
      Asks kCmdSetRadioParams (putU32 freqKhz ++ putU32 wanted ++ [sf, cr] ++ rest) shown
        { shown with freqKhz, bwHz, sf, cr, relay := decide (rest.headD 0 ≠ 0) }
  | power {shown : Shown} (txPower : UInt8) (rest : Bytes) :
      Asks kCmdSetRadioTxPower (txPower :: rest) shown { shown with txPower }
  | tuning {shown : Shown} (factorMilli : UInt32) (rest : Bytes) :
      Asks kCmdSetTuningParams (putU32 0 ++ putU32 factorMilli ++ rest) shown
        { shown with factorMilli }

/-- A command that was answered, as what is shown has it. -/
structure Obeys (cmd : UInt8) (args : Bytes) (answers : List Bytes) (before after : Shown) :
    Prop where
  asked : App.ChangesSettings cmd → answers = [respOk] → Asks cmd args before after
  others : ¬ (App.ChangesSettings cmd ∧ answers = [respOk]) → after = before

def selfInfo (shown : Shown) (self : Crypto.LocalIdentity) (advType : UInt8) : Bytes :=
  [kRespSelfInfo, advType, shown.txPower, (Int8.ofInt kMaxTxPowerDbm).toUInt8] ++ self.pub ++
    putI32 shown.latE6 ++ putI32 shown.lonE6 ++ [0, 0, 0, 0] ++ putU32 shown.freqKhz ++
    putU32 shown.bwHz ++ [shown.sf, shown.cr] ++ shown.name

def tuning (shown : Shown) : Bytes := [kRespTuningParams] ++ putU32 0 ++ putU32 shown.factorMilli

end Shown

/-- The airtime factor that a duty cycle is shown as. -/
def factorOf (dutyCyclePct : ℚ) : UInt32 :=
  thousandths (Binary64.nearest (Binary64.nearest (100 / dutyCyclePct) - 1))

def Config.shown (cfg : Config) : Shown where
  name := cfg.profile.name
  latE6 := cfg.profile.latE6
  lonE6 := cfg.profile.lonE6
  freqKhz := thousandths cfg.radio.freqMhz
  bwHz := thousandths cfg.radio.bwKhz
  sf := cfg.radio.sf
  cr := cfg.radio.cr
  txPower := (Int8.ofInt cfg.radio.txPowerDbm).toUInt8
  factorMilli := factorOf cfg.radio.dutyCyclePct
  relay := cfg.node.relay

/-- What the daemon shows, from what runs. -/
def App.shown (app : App) : Shown :=
  { radio := app.radio.params, profile := app.profile, node := app.node.cfg : Config }.shown

theorem selfInfoFrame_eq (self : Crypto.LocalIdentity) (app : App) :
    selfInfoFrame self app.profile app.radio.params =
      app.shown.selfInfo self app.profile.advType := rfl

theorem tuningFrame_eq (app : App) : tuningFrame app.radio.params = app.shown.tuning := rfl

/-! ## Numbers -/

/-- An integer of decimal units behind a sign is read as the double nearest to its
value. -/
theorem strtod_pointed {decimals n : ℕ} (hpos : 0 < decimals) (hdecimals : decimals ≤ 6)
    (hn : n ≤ 2 ^ 32) (q : ℚ) :
    Numerals.strtod (Numerals.signOf q ++ (Text.decimal (n / 10 ^ decimals) ++
        46 :: Numerals.padded decimals (n % 10 ^ decimals))) =
      some (if q < 0 then -Binary64.nearest (n / 10 ^ decimals)
        else Binary64.nearest (n / 10 ^ decimals)) := by
  have hexact := Numerals.exactOf_pointed n hpos
  have hunits : (10 : ℚ) ^ decimals ≤ 10 ^ 6 := pow_le_pow_right₀ (by norm_num) hdecimals
  have hone : (1 : ℚ) ≤ 10 ^ decimals := one_le_pow₀ (by norm_num)
  have hcast : (n : ℚ) ≤ 2 ^ 32 := by exact_mod_cast hn
  have hnonneg : (0 : ℚ) ≤ n / 10 ^ decimals := by positivity
  have hsize : |(n : ℚ) / 10 ^ decimals| ≤ 2 ^ 32 := by
    rw [abs_of_nonneg hnonneg]
    exact (div_le_self (by positivity) hone).trans hcast
  have hround := Binary64.abs_nearest_sub_le_of_le hsize (by norm_num)
  have hfinite : Binary64.nearest ((n : ℚ) / 10 ^ decimals) < Binary64.overflow := by
    have hpow : (2 : ℚ) ^ (34 : ℤ) ≤ Binary64.overflow :=
      zpow_le_zpow_right₀ (by norm_num) (by norm_num)
    have hle := (abs_le.mp hround).2
    rw [abs_of_nonneg hnonneg] at hsize
    have hnum : (2 : ℚ) ^ 32 + 2 ^ 32 / 2 ^ 53 < 2 ^ (34 : ℤ) := by norm_num
    linarith
  have hnormal : ¬ (Binary64.nearest ((n : ℚ) / 10 ^ decimals) < Binary64.minNormal ∧
      Binary64.nearest ((n : ℚ) / 10 ^ decimals) ≠ n / 10 ^ decimals) := by
    rintro ⟨hsmall, hne⟩
    rcases Nat.eq_zero_or_pos n with rfl | hpos
    · simp at hne
    have hunit : (1 : ℚ) ≤ n := by exact_mod_cast hpos
    have hlow : 1 / 10 ^ 6 ≤ (n : ℚ) / 10 ^ decimals := by
      rw [div_le_div_iff₀ (by norm_num) (by positivity)]
      nlinarith
    have hmin : Binary64.minNormal ≤ |(n : ℚ) / 10 ^ decimals| :=
      minNormal_le (by rw [abs_of_nonneg hnonneg]; linarith)
    have hclose := (abs_le.mp (Binary64.abs_nearest_sub_le hmin)).1
    rw [abs_of_nonneg hnonneg] at hclose
    have hhalf : (n : ℚ) / 10 ^ decimals / 2 ^ 53 ≤ n / 10 ^ decimals / 2 :=
      div_le_div_of_nonneg_left hnonneg (by norm_num) (by norm_num)
    have hmost : Binary64.minNormal ≤ |Binary64.nearest ((n : ℚ) / 10 ^ decimals)| :=
      minNormal_le ((by linarith : (1 : ℚ) / 10000000 ≤ _).trans (le_abs_self _))
    rw [abs_of_nonneg (by linarith)] at hmost
    linarith
  rw [Numerals.strtod, Numerals.takeSign_signOf hexact]
  simp only [hexact, if_neg (not_le.mpr hfinite), if_neg hnormal, decide_eq_true_eq]

theorem roundedWord_toNat {x : ℚ} {word : UInt32} (hclose : |x - word.toNat| ≤ 1 / 4) :
    roundedWord (Binary64.nearest x) = word := by
  have hlt := word.toNat_lt
  have hrounded : Binary64.roundHalfAway (Binary64.nearest x) = (word.toNat : ℤ) := by
    refine Binary64.roundHalfAway_nearest_eq ?_ (by exact_mod_cast hclose)
    rw [abs_of_nonneg (by positivity)]
    omega
  rw [roundedWord, hrounded, UInt32.ofInt, Int.emod_eq_of_lt (by positivity) (by omega),
    Int.toNat_natCast, UInt32.ofNat_toNat]

/-- A frequency is read and shown to the kilohertz. -/
theorem exists_strtod_mhzFromKhz (khz : UInt32) : ∃ v,
    Numerals.strtod (Ini.cStr (mhzFromKhz khz)) = some v ∧ thousandths v = khz := by
  have hlt := khz.toNat_lt
  have hnumeric : ∀ byte ∈ mhzFromKhz khz, Numerals.isNumeric byte = true := by
    intro byte hbyte
    rcases List.mem_append.mp hbyte with hwhole | hfraction
    · rcases List.mem_append.mp hwhole with hdigit | hpoint
      · exact Numerals.numeric_decimal hdigit
      · rw [List.mem_singleton.mp hpoint]
        rfl
    · exact Numerals.numeric_padded hfraction
  have htext : mhzFromKhz khz = Numerals.signOf 0 ++ (Text.decimal (khz.toNat / 10 ^ 3) ++
      46 :: Numerals.padded 3 (khz.toNat % 10 ^ 3)) := by
    rw [mhzFromKhz, toText, List.append_assoc]
    rfl
  refine ⟨Binary64.nearest (khz.toNat / 10 ^ 3), ?_, roundedWord_toNat ?_⟩
  · rw [Setting.cStr_of_numeric hnumeric, htext,
      strtod_pointed (by norm_num) (by norm_num) (by omega), if_neg (by norm_num)]
  · have hbound : |(khz.toNat : ℚ)| + 1000 ≤ 2 ^ 50 := by
      have hcast : (khz.toNat : ℚ) ≤ 2 ^ 32 := by exact_mod_cast hlt.le
      rw [abs_of_nonneg (by positivity)]
      linarith
    have hclose := Binary64.abs_nearest_div_mul_sub_le (by norm_num) hbound
    have hthousand : (10 : ℚ) ^ 3 = 1000 := by norm_num
    rw [hthousand]
    linarith

/-- A position is read to the millionth of a degree. -/
theorem exists_strtod_degreesFromE6 (e6 : Int32) : ∃ v,
    Numerals.strtod (Ini.cStr (degreesFromE6 e6)) = some v ∧ millionthsOf v = e6 := by
  have hlow := e6.le_toInt
  have hhigh := e6.toInt_lt
  have hnumeric : ∀ byte ∈ degreesFromE6 e6, Numerals.isNumeric byte = true := by
    intro byte hbyte
    rcases List.mem_append.mp hbyte with hbefore | hfraction
    · rcases List.mem_append.mp hbefore with hwhole | hpoint
      · rcases List.mem_append.mp hwhole with hsign | hdigit
        · split at hsign
          · rw [List.mem_singleton.mp hsign]
            rfl
          · simp at hsign
        · exact Numerals.numeric_decimal hdigit
      · rw [List.mem_singleton.mp hpoint]
        rfl
    · exact Numerals.numeric_padded hfraction
  have htext : degreesFromE6 e6 = Numerals.signOf e6.toInt ++
      (Text.decimal (e6.toInt.natAbs / 10 ^ 6) ++
        46 :: Numerals.padded 6 (e6.toInt.natAbs % 10 ^ 6)) := by
    have hsign : ((e6.toInt : ℚ) < 0) ↔ e6.toInt < 0 := by exact_mod_cast Iff.rfl
    rw [degreesFromE6, Numerals.signOf, if_congr hsign rfl rfl]
    simp only [toText, List.append_assoc]
    rfl
  have hread := @strtod_pointed 6 e6.toInt.natAbs (by norm_num) (by norm_num) (by omega) e6.toInt
  rw [← htext] at hread
  rw [Setting.cStr_of_numeric hnumeric, hread]
  refine ⟨_, rfl, ?_⟩
  have hmillion : (10 : ℚ) ^ 6 = 1000000 := by norm_num
  have hcast : ((e6.toInt.natAbs : ℕ) : ℚ) = |(e6.toInt : ℚ)| := by
    rw [← Int.cast_abs, Nat.cast_natAbs]
  have hbound : |((e6.toInt.natAbs : ℕ) : ℚ)| + 1000000 ≤ 2 ^ 50 := by
    have hsize : ((e6.toInt.natAbs : ℕ) : ℚ) ≤ 2 ^ 31 := by
      exact_mod_cast (show e6.toInt.natAbs ≤ 2 ^ 31 by omega)
    rw [abs_of_nonneg (by positivity)]
    linarith
  have hclose := Binary64.abs_nearest_div_mul_sub_le (by norm_num) hbound
  rw [hmillion, hcast] at *
  generalize Binary64.nearest (|(e6.toInt : ℚ)| / 1000000) = v at hclose ⊢
  have hrounded : Binary64.roundHalfAway (Binary64.nearest
      ((if (e6.toInt : ℚ) < 0 then -v else v) * 1000000)) = e6.toInt := by
    refine Binary64.roundHalfAway_nearest_eq (abs_le.mpr ⟨by omega, by omega⟩) ?_
    split
    next hneg =>
      rw [abs_of_neg hneg] at hclose
      rw [← abs_neg]
      have hflip : -(-v * 1000000 - (e6.toInt : ℚ)) = v * 1000000 - -(e6.toInt : ℚ) := by ring
      rw [hflip]
      linarith
    next hnonneg =>
      rw [abs_of_nonneg (not_lt.mp hnonneg)] at hclose
      linarith
  rw [millionthsOf, hrounded, Int32.ofInt_toInt]

/-- The airtime factor of a duty cycle that was made from one is that factor. -/
theorem factorOf_dutyCycle {factor : UInt32} (hfactor : factor ≤ kMaxAirtimeFactorMilli) :
    factorOf (Binary64.nearest (100 / cycleOf factor)) = factor := by
  obtain ⟨hlow, hhigh⟩ := cycleOf_bounds hfactor
  obtain ⟨hduty, hduty'⟩ := dutyCycle_bounds hfactor
  have hle : (factor.toNat : ℚ) ≤ 9000 := by
    have hnat := UInt32.le_iff_toNat_le.mp hfactor
    exact_mod_cast hnat
  have hnonneg : (0 : ℚ) ≤ factor.toNat / 1000 := by positivity
  have hratio : |(factor.toNat : ℚ) / 1000| ≤ 9 := by
    rw [abs_of_nonneg hnonneg]
    linarith
  -- The four roundings on the way there and back, each of a small number.
  have hfirst := Binary64.abs_nearest_sub_le_of_le hratio (by norm_num)
  have hcycle : |cycleOf factor - (1 + factor.toNat / 1000)| ≤ 21 / 2 ^ 53 := by
    rw [cycleOf] at *
    have hsum : |1 + Binary64.nearest ((factor.toNat : ℚ) / 1000)| ≤ 12 := by
      obtain ⟨hbelow, habove⟩ := abs_le.mp hfirst
      have hlarge := (le_abs_self _).trans hratio
      exact abs_le.mpr ⟨by linarith, by linarith⟩
    have hsecond := Binary64.abs_nearest_sub_le_of_le hsum (by norm_num)
    obtain ⟨hbelow, habove⟩ := abs_le.mp hfirst
    obtain ⟨hbelow', habove'⟩ := abs_le.mp hsecond
    exact abs_le.mpr ⟨by linarith, by linarith⟩
  generalize cycleOf factor = cycle at *
  have hpos : 0 < cycle := by linarith
  have hshare : |100 / cycle| ≤ 200 := by
    rw [abs_of_pos (by positivity), div_le_iff₀ hpos]
    linarith
  have hthird := Binary64.abs_nearest_sub_le_of_le hshare (by norm_num)
  generalize Binary64.nearest (100 / cycle) = pct at *
  have hpct : 0 < pct := by linarith
  have hinverse : |100 / pct - cycle| ≤ 2400 / 2 ^ 53 := by
    have hdiff : 100 / pct - cycle = cycle / pct * (100 / cycle - pct) := by
      field_simp
    have hpart : cycle / pct ≤ 12 := by
      rw [div_le_iff₀ hpct]
      linarith
    rw [hdiff, abs_mul, abs_of_pos (by positivity), abs_sub_comm]
    calc cycle / pct * |pct - 100 / cycle| ≤ 12 * (200 / 2 ^ 53) :=
          mul_le_mul hpart hthird (abs_nonneg _) (by norm_num)
      _ = 2400 / 2 ^ 53 := by norm_num
  obtain ⟨hbelow, habove⟩ := abs_le.mp hinverse
  have hback : |100 / pct| ≤ 13 := abs_le.mpr ⟨by linarith, by linarith⟩
  obtain ⟨hbelow', habove'⟩ := abs_le.mp (Binary64.abs_nearest_sub_le_of_le hback (by norm_num))
  have hquiet : |Binary64.nearest (100 / pct) - 1| ≤ 15 := abs_le.mpr ⟨by linarith, by linarith⟩
  obtain ⟨hlast, hlast'⟩ := abs_le.mp (Binary64.abs_nearest_sub_le_of_le hquiet (by norm_num))
  obtain ⟨hnear, hnear'⟩ := abs_le.mp hcycle
  refine roundedWord_toNat (abs_le.mpr ⟨?_, ?_⟩)
  · linarith
  · linarith

/-- The supported bandwidth that is taken is one of the list, within one percent. -/
theorem nearestBandwidth_spec {wanted : UInt32} {khz : ℚ}
    (hfound : nearestBandwidth (Binary64.nearest (wanted.toNat / 1000)) = some khz) :
    Numerals.strtod (Ini.cStr (Numerals.general17 khz)) = some khz ∧
      thousandths khz ∈ Shown.bandwidthsHz ∧
      100 * |(wanted.toNat : ℤ) - (thousandths khz).toNat| ≤ (thousandths khz).toNat := by
  have hmem := List.mem_of_find?_eq_some hfound
  have hnear := List.find?_some hfound
  rw [decide_eq_true_iff] at hnear
  have hlist : ∀ s ∈ kBandwidthsKhz, 7 ≤ s ∧ s ≤ 500 ∧ thousandths s ∈ Shown.bandwidthsHz ∧
      Binary64.nearest s = s ∧ |s * 1000 - (thousandths s).toNat| ≤ 1 / 1000 ∧
      Binary64.nearest (s * Binary64.nearest (1 / 100)) * 100000 ≤
        (thousandths s).toNat + 1 / 10 := by
    decide +kernel
  obtain ⟨hlow, hhigh, hsupported, hdouble, hexact, hpercent⟩ := hlist khz hmem
  have habs : |khz| = khz := abs_of_nonneg (by linarith)
  refine ⟨strtod_cStr_general17 (hdouble ▸ Binary64.isDouble_nearest _)
    (by rw [habs]; linarith) (by rw [habs]; linarith), hsupported, ?_⟩
  have hlt : (wanted.toNat : ℚ) ≤ 2 ^ 32 := by exact_mod_cast wanted.toNat_lt.le
  have hbound : |(wanted.toNat : ℚ)| + 1000 ≤ 2 ^ 50 := by
    rw [abs_of_nonneg (by positivity)]
    linarith
  have hquot : |(wanted.toNat : ℚ) / 1000| ≤ 2 ^ 32 := by
    rw [abs_of_nonneg (by positivity)]
    linarith
  obtain ⟨hround, hround'⟩ :=
    abs_le.mp (Binary64.abs_nearest_sub_le_of_le hquot (by norm_num))
  generalize Binary64.nearest ((wanted.toNat : ℚ) / 1000) = asked at *
  have hdiff : |asked - khz| ≤ 2 ^ 33 := by
    rw [abs_of_nonneg (by positivity)] at hquot
    have hnonneg : (0 : ℚ) ≤ wanted.toNat / 1000 := by positivity
    exact abs_le.mpr ⟨by linarith, by linarith⟩
  obtain ⟨hlast, hlast'⟩ := abs_le.mp (Binary64.abs_nearest_sub_le_of_le hdiff (by norm_num))
  obtain ⟨hbelow, habove⟩ := abs_le.mp hnear
  obtain ⟨hscaled, hscaled'⟩ := abs_le.mp hexact
  generalize (thousandths khz).toNat = hz at *
  have hcast : |((wanted.toNat : ℤ) - (hz : ℤ) : ℚ)| * 100 < hz + 1 := by
    rw [← lt_div_iff₀ (by norm_num), abs_lt]
    push_cast
    constructor
    · linarith
    · linarith
  have hint : |(wanted.toNat : ℤ) - (hz : ℤ)| * 100 < hz + 1 := by exact_mod_cast hcast
  omega

/-! ## What one change sets -/

namespace Setting

/-- A value that is not empty reaches the row of its key. -/
theorem applied {s : Setting} (hs : s ∈ settings) {value : Bytes} (hvalue : value ≠ [])
    {cfg cfg' : Config} (hok : cfg.set s.text value = .ok cfg') :
    s.apply (({} : Ini).set s.text value) cfg = .ok cfg' ∧
      (({} : Ini).set s.text value).find s.text = some value := by
  obtain ⟨own, hown, htext, happly⟩ := Config.set_ok hok
  rw [eq_of_text hown hs htext] at happly
  exact ⟨happly, find_set (keys_lower s hs) hvalue⟩

theorem ne_nil_of_cStr {value : Bytes} (hvalue : Ini.cStr value ≠ []) : value ≠ [] := by
  rintro rfl
  exact hvalue rfl

variable {s : Setting} {value : Bytes} {cfg cfg' : Config}

theorem applied_real {valid : ℚ → Bool} {requirement : String} {get : Config → ℚ}
    {put : Config → ℚ → Config} (hs : s ∈ settings)
    (htarget : s.target = .real valid requirement get put) {v : ℚ}
    (hreads : Numerals.strtod (Ini.cStr value) = some v)
    (hok : cfg.set s.text value = .ok cfg') : cfg' = put cfg v := by
  obtain ⟨happly, hfound⟩ := applied hs (ne_nil_of_cStr (ne_nil_of_strtod hreads)) hok
  rw [apply, htarget] at happly
  dsimp only at happly
  obtain ⟨w, hchecked, hput⟩ := exists_of_map_ok happly
  have hread := (checkReal_ok hchecked).1
  rw [Ini.getDouble, hfound] at hread
  obtain rfl := Option.some.inj (hreads.symm.trans hread)
  exact hput.symm

theorem applied_degrees {valid : ℚ → Bool} {requirement : String} {get : Config → Int32}
    {put : Config → Int32 → Config} (hs : s ∈ settings)
    (htarget : s.target = .degrees valid requirement get put) {v : ℚ}
    (hreads : Numerals.strtod (Ini.cStr value) = some v)
    (hok : cfg.set s.text value = .ok cfg') : cfg' = put cfg (millionthsOf v) := by
  obtain ⟨happly, hfound⟩ := applied hs (ne_nil_of_cStr (ne_nil_of_strtod hreads)) hok
  rw [apply, htarget] at happly
  dsimp only at happly
  obtain ⟨w, hchecked, hput⟩ := exists_of_map_ok happly
  have hread := (checkReal_ok hchecked).1
  rw [Ini.getDouble, hfound] at hread
  obtain rfl := Option.some.inj (hreads.symm.trans hread)
  exact hput.symm

theorem applied_int {row : IntTarget} {get : Config → Int} {put : Config → Int → Config}
    (hs : s ∈ settings) (htarget : s.target = .int row get put) {v : Int}
    (hvalue : value = Text.decimalInt v) (hlow : -9223372036854775808 ≤ v)
    (hhigh : v < 9223372036854775808) (hok : cfg.set s.text value = .ok cfg') :
    cfg' = put cfg v := by
  subst hvalue
  obtain ⟨happly, hfound⟩ := applied hs (decimalInt_ne_nil v) hok
  have hparse : Numerals.strtoll (Ini.cStr (Text.decimalInt v)) = some v := by
    rw [cStr_of_numeric fun _ => Numerals.numeric_decimalInt,
      Numerals.strtoll_decimalInt hlow hhigh]
  rw [apply, htarget] at happly
  dsimp only at happly
  rw [getInt64_of_find hfound hparse] at happly
  obtain ⟨w, hchecked, hput⟩ := exists_of_map_ok happly
  rw [IntTarget.apply, IntTarget.apply.check] at hchecked
  split at hchecked
  · simp at hchecked
  · obtain rfl := Except.ok.inj hchecked
    exact hput.symm

theorem applied_str {get : Config → Bytes} {put : Config → Bytes → Config} (hs : s ∈ settings)
    (htarget : s.target = .str get put) (hvalue : value ≠ [])
    (hok : cfg.set s.text value = .ok cfg') : cfg' = put cfg value := by
  obtain ⟨happly, hfound⟩ := applied hs hvalue hok
  rw [apply, htarget] at happly
  dsimp only at happly
  rw [Ini.getStr, hfound] at happly
  exact (Except.ok.inj happly).symm

theorem applied_relay {flag : Bool}
    (hok : cfg.set relay.text (utf8 (if flag then "1" else "0")) = .ok cfg') :
    cfg' = { cfg with node := { cfg.node with relay := flag } } := by
  have hvalue : utf8 (if flag then "1" else "0") ≠ [] := by
    cases flag <;> decide +kernel
  obtain ⟨happly, hfound⟩ := applied (by simp [settings]) hvalue hok
  obtain ⟨read, hread, hput⟩ := apply_relay_iff.mp happly
  have hflag : (({} : Ini).set relay.text (utf8 (if flag then "1" else "0"))).getBool relay.text
      cfg.node.relay = some flag := by
    rw [Ini.getBool, hfound]
    dsimp only
    cases flag with
    | true => exact if_pos (.inl (by decide +kernel))
    | false => exact (if_neg (by decide +kernel)).trans (if_pos (.inl (by decide +kernel)))
  obtain rfl := Option.some.inj (hflag.symm.trans hread)
  exact hput.symm

end Setting

/-! ## What a command sets -/

/-- The changes of a command, one after the other. -/
abbrev SetAll (cfg : Config) (changes : List Change) (next : Config) : Prop :=
  changes.foldlM (fun cfg change => cfg.set change.1 change.2) cfg = .ok next

section Commands

variable {args : Bytes} {changes : List Change} {cfg next : Config}

theorem asks_name (hasked : cmdSetAdvertName args = some changes)
    (hset : SetAll cfg changes next) : Shown.Asks kCmdSetAdvertName args cfg.shown next.shown := by
  simp only [cmdSetAdvertName] at hasked
  split at hasked
  · simp at hasked
  next hname =>
    obtain rfl := Option.some.inj hasked
    obtain ⟨named, hnamed, hlast⟩ := foldlM_cons_eq_ok.mp hset
    obtain rfl := Except.ok.inj hlast
    rw [Setting.applied_str (s := .advertName) (by simp [settings]) rfl hname hnamed]
    exact .name hname

theorem asks_position (hasked : cmdSetAdvertLatLon args = some changes)
    (hset : SetAll cfg changes next) :
    Shown.Asks kCmdSetAdvertLatLon args cfg.shown next.shown := by
  simp only [cmdSetAdvertLatLon] at hasked
  split at hasked
  · simp at hasked
  next hread =>
    rw [Bool.not_eq_true, Bool.not_eq_false'] at hread
    obtain rfl := Option.some.inj hasked
    obtain ⟨placed, hlat, hrest⟩ := foldlM_cons_eq_ok.mp hset
    obtain ⟨north, hlon, hlast⟩ := foldlM_cons_eq_ok.mp hrest
    obtain rfl := Except.ok.inj hlast
    have hfirst := Reader.putI32_left (Reader.ok_of_u32_ok hread)
    have hsecond := Reader.putI32_left hread
    have hargs : args = putI32 (Reader.ofBytes args).i32.1 ++
        putI32 (Reader.ofBytes args).i32.2.i32.1 ++ (Reader.ofBytes args).i32.2.i32.2.left := by
      rw [List.append_assoc, hsecond, hfirst]
      rfl
    generalize (Reader.ofBytes args).i32.1 = lat at *
    generalize (Reader.ofBytes args).i32.2.i32.1 = lon at *
    obtain ⟨v, hv, rfl⟩ := exists_strtod_degreesFromE6 lat
    obtain ⟨w, hw, rfl⟩ := exists_strtod_degreesFromE6 lon
    rw [Setting.applied_degrees (s := .lon) (by simp [settings]) rfl hw hlon,
      Setting.applied_degrees (s := .lat) (by simp [settings]) rfl hv hlat, hargs]
    exact .position _ _ _

/-- The flag behind the other parameters, off where there is none. -/
theorem relay_flag {r : Reader} (hok : r.ok = true) :
    (r.has 1 && decide (r.u8.1 ≠ 0)) = decide (r.left.headD 0 ≠ 0) := by
  obtain ⟨left, ok⟩ := r
  obtain rfl := (hok : ok = true)
  cases left with
  | nil => rfl
  | cons byte rest => simp [Reader.has, Reader.u8, Reader.take, Reader.remaining]

theorem asks_radio (hasked : cmdSetRadioParams args = some changes)
    (hset : SetAll cfg changes next) :
    Shown.Asks kCmdSetRadioParams args cfg.shown next.shown := by
  simp only [cmdSetRadioParams] at hasked
  split at hasked
  · simp at hasked
  next hread =>
    rw [Bool.not_eq_true, Bool.not_eq_false'] at hread
    rw [relay_flag hread] at hasked
    split at hasked
    · simp at hasked
    next hallowed =>
      split at hasked
      · simp at hasked
      · split at hasked
        · simp at hasked
        next bw hbw =>
          obtain rfl := Option.some.inj hasked
          obtain ⟨tuned, hfreq, hrest⟩ := foldlM_cons_eq_ok.mp hset
          obtain ⟨wide, hwide, hrest⟩ := foldlM_cons_eq_ok.mp hrest
          obtain ⟨spread, hsf, hrest⟩ := foldlM_cons_eq_ok.mp hrest
          obtain ⟨coded, hcr, hrest⟩ := foldlM_cons_eq_ok.mp hrest
          obtain ⟨relayed, hrelay, hlast⟩ := foldlM_cons_eq_ok.mp hrest
          obtain rfl := Except.ok.inj hlast
          have hsfRead := Reader.ok_of_u8_ok hread
          have hbwRead := Reader.ok_of_u8_ok hsfRead
          have hargs := Reader.putU32_left (Reader.ok_of_u32_ok hbwRead)
          have hjoin := Reader.putU32_left hbwRead
          rw [← Reader.u8_cons_left hsfRead, ← Reader.u8_cons_left hread] at hjoin
          rw [← hjoin] at hargs
          generalize (Reader.ofBytes args).u32.1 = khz at *
          generalize (Reader.ofBytes args).u32.2.u32.1 = wanted at *
          generalize (Reader.ofBytes args).u32.2.u32.2.u8.1 = sf at *
          generalize (Reader.ofBytes args).u32.2.u32.2.u8.2.u8.1 = cr at *
          generalize (Reader.ofBytes args).u32.2.u32.2.u8.2.u8.2.left = rest at *
          obtain ⟨v, hv, rfl⟩ := exists_strtod_mhzFromKhz khz
          obtain ⟨hw, hsupported, hnear⟩ := nearestBandwidth_spec hbw
          have hrepeat : rest.headD 0 ≠ 0 → thousandths v ∈ kRepeatFreqsKhz := fun hflag => by
            rw [decide_eq_true hflag, Bool.true_and, Bool.not_eq_true, Bool.not_eq_false']
              at hallowed
            exact List.contains_iff_mem.mp hallowed
          have hbyte : ∀ byte : UInt8, UInt8.ofNat (byte.toNat : Int).toNat = byte := fun byte => by
            rw [Int.toNat_natCast, UInt8.ofNat_toNat]
          have hdecimal : ∀ byte : UInt8, toText byte.toNat = Text.decimalInt byte.toNat :=
            fun byte => by
              rw [Text.decimalInt, if_neg (by omega), Int.natAbs_natCast, toText]
          have hsmall : ∀ byte : UInt8, (byte.toNat : Int) < 9223372036854775808 := fun byte => by
            have hlt := byte.toNat_lt
            omega
          rw [Setting.applied_relay hrelay,
            Setting.applied_int (s := .loraCr) (by simp [settings]) rfl (hdecimal cr) (by omega)
              (hsmall cr) hcr,
            Setting.applied_int (s := .loraSf) (by simp [settings]) rfl (hdecimal sf) (by omega)
              (hsmall sf) hsf,
            Setting.applied_real (s := .loraBw) (by simp [settings]) rfl hw hwide,
            Setting.applied_real (s := .loraFreq) (by simp [settings]) rfl hv hfreq, hbyte, hbyte]
          have hframe : args = putU32 (thousandths v) ++ putU32 wanted ++ [sf, cr] ++ rest := by
            rw [List.append_assoc, List.append_assoc]
            exact hargs.symm
          rw [hframe]
          exact .radio (thousandths v) wanted sf cr rest hsupported hnear hrepeat

theorem asks_power (hasked : cmdSetTxPower args = some changes)
    (hset : SetAll cfg changes next) :
    Shown.Asks kCmdSetRadioTxPower args cfg.shown next.shown := by
  simp only [cmdSetTxPower] at hasked
  split at hasked
  · simp at hasked
  next hread =>
    rw [Bool.not_eq_true, Bool.not_eq_false'] at hread
    obtain rfl := Option.some.inj hasked
    obtain ⟨powered, hpower, hlast⟩ := foldlM_cons_eq_ok.mp hset
    obtain rfl := Except.ok.inj hlast
    have hargs := Reader.u8_cons_left hread
    generalize (Reader.ofBytes args).u8.1 = dbm at *
    have hlow := dbm.toInt8.le_toInt
    have hhigh := dbm.toInt8.toInt_lt
    have hsame : (Int8.ofInt dbm.toInt8.toInt).toUInt8 = dbm := by
      rw [Int8.ofInt_toInt]
      rfl
    have hasks := @Shown.Asks.power cfg.shown dbm (Reader.ofBytes args).u8.2.left
    rw [Setting.applied_int (s := .loraTxPower) (by simp [settings]) rfl rfl (by omega) (by omega)
      hpower]
    rw [hargs] at hasks
    nth_rewrite 1 [← hsame] at hasks
    exact hasks

theorem asks_tuning (hasked : cmdSetTuningParams args = some changes)
    (hset : SetAll cfg changes next) :
    Shown.Asks kCmdSetTuningParams args cfg.shown next.shown := by
  simp only [cmdSetTuningParams] at hasked
  split at hasked
  · simp at hasked
  next hread =>
    rw [Bool.not_eq_true, Bool.not_eq_false'] at hread
    split at hasked
    · simp at hasked
    next hdelay =>
      split at hasked
      · simp at hasked
      next hfactor =>
        obtain rfl := Option.some.inj hasked
        obtain ⟨eased, hduty, hlast⟩ := foldlM_cons_eq_ok.mp hset
        obtain rfl := Except.ok.inj hlast
        have hfirst := Reader.putU32_left (Reader.ok_of_u32_ok hread)
        have hsecond := Reader.putU32_left hread
        rw [← hsecond, not_not.mp hdelay] at hfirst
        generalize (Reader.ofBytes args).u32.2.u32.1 = factor at *
        rw [UInt32.not_lt] at hfactor
        have hasks := @Shown.Asks.tuning cfg.shown factor
          (Reader.ofBytes args).u32.2.u32.2.left
        rw [Setting.applied_real (s := .dutyCycle) (by simp [settings]) rfl
          (strtod_dutyCycle hfactor) hduty]
        rw [List.append_assoc, hfirst, ← factorOf_dutyCycle hfactor] at hasks
        exact hasks

end Commands

/-! ## Commands -/

namespace App

variable {app app' : App} {lib : Crypto.Library} {sign : Bytes → Bytes} {out : Surroundings}
  {defaults : Config}

theorem InForce.shown (hforce : InForce defaults app) : app.shown = app.settings.cfg.shown := by
  rw [App.shown, hforce.params, hforce.profile, hforce.node]
  rfl

theorem Aside.shown (haside : Aside app app') : app'.shown = app.shown := by
  rw [App.shown, App.shown, haside.params, haside.profile, haside.node.cfg]

/-- A change is answered with OK when it is in force, and only then. -/
theorem InForce.obeys_changeSettings (hforce : InForce defaults app) {requested : Requested}
    {cmd : UInt8} {args : Bytes} (hcmd : ChangesSettings cmd)
    (hasks : ∀ changes cfg next, requested = some changes → SetAll cfg changes next →
      Shown.Asks cmd args cfg.shown next.shown) :
    Shown.Obeys cmd args (app.changeSettings out requested).1 app.shown
      (app.changeSettings out requested).2.shown := by
  have hrefused : ∀ {answers after}, answers ≠ [respOk] → after = app.shown →
      Shown.Obeys cmd args answers app.shown after :=
    fun hanswers hsame => ⟨fun _ hok => absurd hok hanswers, fun _ => hsame⟩
  cases requested with
  | none =>
      show Shown.Obeys cmd args [respErr kErrIllegalArg] app.shown app.shown
      exact hrefused (by decide) rfl
  | some changes =>
      have hinvalid : [settingsReply .invalid] ≠ [respOk] := by decide
      have hioError : [settingsReply .ioError] ≠ [respOk] := by decide
      have hafter := hforce.changeSettings out changes
      rw [App.changeSettings] at hafter ⊢
      rcases app.attached.set_cases out.io out.toApplying app.node.files changes with
        ⟨-, hset⟩ | ⟨next, stored, haccept, ⟨files, -, hset⟩ | ⟨files, -, hset⟩⟩
      · rw [hset]
        exact hrefused hinvalid rfl
      · rw [hset]
        exact hrefused hioError rfl
      · rw [hset] at hafter ⊢
        have hchanged := hasks changes _ next rfl (SettingsStore.accept_ok haccept).1
        refine ⟨fun _ _ => ?_, fun hnot => absurd ⟨hcmd, rfl⟩ hnot⟩
        rw [hforce.shown, hafter.shown]
        exact hchanged

theorem InForce.obeys_command (hforce : InForce defaults app) (cmd : UInt8) (args : Bytes) :
    Shown.Obeys cmd args (app.command lib sign out cmd args).1 app.shown
      (app.command lib sign out cmd args).2.shown := by
  by_cases hcmd : ChangesSettings cmd
  · rcases hcmd with rfl | rfl | rfl | rfl | rfl
    · exact hforce.obeys_changeSettings (.inl rfl) fun _ _ _ => asks_name
    · exact hforce.obeys_changeSettings (.inr (.inl rfl)) fun _ _ _ => asks_position
    · exact hforce.obeys_changeSettings (.inr (.inr (.inl rfl))) fun _ _ _ => asks_radio
    · exact hforce.obeys_changeSettings (.inr (.inr (.inr (.inl rfl)))) fun _ _ _ => asks_power
    · exact hforce.obeys_changeSettings (.inr (.inr (.inr (.inr rfl)))) fun _ _ _ => asks_tuning
  · exact ⟨fun hsetting => absurd hsetting hcmd,
      fun _ => (aside_command lib sign out app hcmd args).shown⟩

/-! ## Runs -/

/-- What is set is what is shown: a settings command that is answered with OK does to it
what its bytes say, nothing else does anything to it, and the three frames that show
settings are made of it. -/
structure ReadsBack (lib : Crypto.Library) (sign : Bytes → Bytes) (app : App) : Prop where
  command : ∀ out cmd args, Shown.Obeys cmd args (app.command lib sign out cmd args).1 app.shown
    (app.command lib sign out cmd args).2.shown
  frame : ∀ out cmd args, (app.session []).nextFrame = some (cmd :: args) →
    (app.step lib sign (.frame out)).shown = (app.command lib sign out cmd args).2.shown
  noFrame : ∀ out, (∀ cmd args, (app.session []).nextFrame ≠ some (cmd :: args)) →
    (app.step lib sign (.frame out)).shown = app.shown
  elsewhere : ∀ event, event.Own → (∀ out, event ≠ .frame out) →
    (app.step lib sign event).shown = app.shown
  selfInfo : ∀ out args, (app.command lib sign out kCmdAppStart args).1 =
    [app.shown.selfInfo app.node.identity app.profile.advType]
  deviceInfo : ∀ out args, (app.command lib sign out kCmdDeviceQuery args).1 =
    [deviceInfoFrame out.metrics app.shown.relay]
  tuning : ∀ out args, (app.command lib sign out kCmdGetTuningParams args).1 = [app.shown.tuning]

theorem InForce.readsBack (hforce : InForce defaults app) {cfg : Config}
    (hplaced : Placed cfg app) : ReadsBack lib sign app where
  command := fun _ cmd args => hforce.obeys_command cmd args
  frame := by
    intro out cmd args hframe
    rw [App.step, dispatchOne, hframe]
    exact (aside_frame _ _).shown
  noFrame := by
    intro out hnone
    rw [App.step, dispatchOne]
    split
    next cmd args hframe => exact absurd hframe (hnone cmd args)
    next => exact (aside_frame _ _).shown
  elsewhere := fun _ hown hframe => (hplaced.aside_step hown hframe).shown
  selfInfo := fun _ _ => rfl
  deviceInfo := fun _ _ => rfl
  tuning := fun _ _ => rfl

variable {boot : Boot}

/-- **What an app sets it reads back.** In every run of the daemon from startup, whatever
the state it is in: the settings that the frames show are changed by the settings commands
that are answered with OK, each to what its bytes say, and by nothing else. -/
theorem reads_back (lib : Crypto.Library) (sign : Bytes → Bytes) {stateDir : Bytes}
    {radio : RadioParams} {node : NodeConfig}
    (hcfg : boot.cfg = Config.loaded stateDir radio node) (hstart : start boot = some app)
    {events : List Event} (hown : ∀ event ∈ events, event.Own) :
    ReadsBack lib sign (run (step lib sign) app events) := by
  obtain ⟨hforce, hplaced⟩ :=
    inForce_run lib sign (inForce_start hcfg hstart) (backed_start hstart).1 hown
  exact hforce.readsBack hplaced

/-- A name and a frequency are shown as they were set. -/
theorem reads_back_sample :
    ∃ app, start sampleBoot = some app ∧
      let after := run (step .transparent SettingsStore.sampleSign) app sampleSettings
      after.shown.name = utf8 "hilltop" ∧ after.shown.freqKhz = 869495 ∧
        after.shown.bwHz = 62500 ∧ after.shown.relay = true ∧
        ReadsBack .transparent SettingsStore.sampleSign after := by
  have hrun : (start sampleBoot).any (fun app =>
      let after := run (step .transparent SettingsStore.sampleSign) app sampleSettings
      decide (after.shown.name = utf8 "hilltop" ∧ after.shown.freqKhz = 869495 ∧
        after.shown.bwHz = 62500 ∧ after.shown.relay = true)) = true := by
    decide +kernel
  obtain ⟨app, hstart, hreached⟩ := (Option.any_eq_true _ _).mp hrun
  obtain ⟨hname, hfreq, hbw, hrelay⟩ := of_decide_eq_true hreached
  refine ⟨app, hstart, hname, hfreq, hbw, hrelay,
    reads_back .transparent SettingsStore.sampleSign
      (show sampleBoot.cfg = Config.loaded (utf8 "/var/lib/coreletd") {} {} from rfl) hstart ?_⟩
  intro event hmem
  simp only [sampleSettings, List.mem_cons, List.not_mem_nil, or_false] at hmem
  rcases hmem with rfl | rfl | rfl | rfl | rfl <;> trivial

end App

end Coreletd.Daemon
