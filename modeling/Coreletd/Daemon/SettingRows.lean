/-
# One row of the settings table

What a row leaves alone, what it lets into its field, and that it reads back its
own spelling. A config is settled by its rows and by what the config file says.
-/

import Mathlib.Tactic.FinCases
import Coreletd.Daemon.AppConfig

namespace Coreletd.Daemon

open Coreletd.Library
open Coreletd.Mesh
open Coreletd.Radio

/-- What the config file says, without the app's settings. -/
def Config.operatorPart (cfg : Config) : Config :=
  { cfg with
    radio :=
      { cfg.radio with
        freqMhz := 0, bwKhz := 0, sf := 0, cr := 0, txPowerDbm := 0, dutyCyclePct := 0 }
    profile := { cfg.profile with name := [], latE6 := 0, lonE6 := 0 }
    node := { cfg.node with relay := false } }

namespace Setting

/-- Two configs agree in the field of a row. -/
def Same (s : Setting) (a b : Config) : Prop :=
  match s.target with
  | .str get _ => get a = get b
  | .bool get _ => get a = get b
  | .int _ get _ => get a = get b
  | .real _ _ get _ => get a = get b
  | .degrees _ _ get _ => get a = get b

/-- The field of a row holds what the row lets through. -/
def InRange (s : Setting) (cfg : Config) : Prop :=
  match s.target with
  | .str _ _ => True
  | .bool _ _ => True
  | .int row get _ => row.min ≤ get cfg ∧ get cfg ≤ row.max
  | .real valid _ get _ => valid (get cfg) = true
  | .degrees valid _ get _ => valid (degreesOf (get cfg)) = true

/-- `strtod` makes of what a double is written as that double. -/
def ReadsBack (s : Setting) (cfg : Config) : Prop :=
  match s.target with
  | .real _ _ get _ => Numerals.strtod (formatReal (get cfg)) = some (get cfg)
  | .degrees _ _ get _ =>
      Numerals.strtod (formatReal (degreesOf (get cfg))) = some (degreesOf (get cfg))
  | _ => True

/-- The second config is the first with something put into the row's field. -/
def Wrote (s : Setting) (cfg cfg' : Config) : Prop :=
  match s.target with
  | .str _ put => ∃ v, cfg' = put cfg v
  | .bool _ put => ∃ v, cfg' = put cfg v
  | .int _ _ put => ∃ v, cfg' = put cfg v
  | .real _ _ _ put => ∃ v, cfg' = put cfg v
  | .degrees _ _ _ put => ∃ v, cfg' = put cfg v

theorem Same.refl (s : Setting) (cfg : Config) : s.Same cfg cfg := by
  obtain ⟨key, target⟩ := s
  cases target <;> rfl

theorem Same.symm {s : Setting} {a b : Config} (hsame : s.Same a b) : s.Same b a := by
  obtain ⟨key, target⟩ := s
  cases target <;> exact Eq.symm hsame

theorem Same.trans {s : Setting} {a b c : Config} (hfirst : s.Same a b) (hsecond : s.Same b c) :
    s.Same a c := by
  obtain ⟨key, target⟩ := s
  cases target <;> exact Eq.trans hfirst hsecond

theorem Same.format {s : Setting} {a b : Config} (hsame : s.Same a b) :
    s.format a = s.format b := by
  obtain ⟨key, target⟩ := s
  cases target <;> simp only [Same] at hsame <;> simp only [Setting.format, hsame]

theorem Same.inRange {s : Setting} {a b : Config} (hsame : s.Same a b) (hrange : s.InRange a) :
    s.InRange b := by
  obtain ⟨key, target⟩ := s
  cases target <;> simp only [Same] at hsame <;> simp only [InRange] at hrange ⊢ <;>
    rwa [← hsame]

/-- Configs that agree in every row and in what the config file says are one. -/
theorem config_ext {a b : Config} (hrest : a.operatorPart = b.operatorPart)
    (hsame : ∀ s ∈ settings, s.Same a b) : a = b := by
  simp only [settings, List.forall_mem_cons] at hsame
  obtain ⟨hfreq, hbw, hsf, hcr, hpower, hduty, hname, hlat, hlon, hrelay, -⟩ := hsame
  replace hfreq : a.radio.freqMhz = b.radio.freqMhz := hfreq
  replace hbw : a.radio.bwKhz = b.radio.bwKhz := hbw
  replace hsf : a.radio.sf = b.radio.sf := UInt8.toNat_inj.mp (Int.ofNat_inj.mp hsf)
  replace hcr : a.radio.cr = b.radio.cr := UInt8.toNat_inj.mp (Int.ofNat_inj.mp hcr)
  replace hpower : a.radio.txPowerDbm = b.radio.txPowerDbm := hpower
  replace hduty : a.radio.dutyCyclePct = b.radio.dutyCyclePct := hduty
  replace hname : a.profile.name = b.profile.name := hname
  replace hlat : a.profile.latE6 = b.profile.latE6 := hlat
  replace hlon : a.profile.lonE6 = b.profile.lonE6 := hlon
  replace hrelay : a.node.relay = b.node.relay := hrelay
  obtain ⟨_, ⟨_, _, _, _, _, _, _, _, _, _⟩, ⟨_, _, _, _⟩, ⟨_, _⟩⟩ := a
  obtain ⟨_, ⟨_, _, _, _, _, _, _, _, _, _⟩, ⟨_, _, _, _⟩, ⟨_, _⟩⟩ := b
  simp only [Config.operatorPart, Config.mk.injEq, RadioParams.mk.injEq, NodeProfile.mk.injEq,
    NodeConfig.mk.injEq] at hrest
  simp_all only [and_self]

theorem checkReal_ok {key requirement : String} {valid : ℚ → Bool} {value : Option ℚ} {v : ℚ}
    (hok : checkReal key valid requirement value = .ok v) : value = some v ∧ valid v = true := by
  cases value with
  | none => simp [checkReal] at hok
  | some w =>
      simp only [checkReal] at hok
      split at hok
      next hvalid =>
        obtain rfl := Except.ok.inj hok
        exact ⟨rfl, hvalid⟩
      next => simp at hok

theorem exists_of_map_ok {ε α β : Type} {f : α → β} {x : Except ε α} {y : β}
    (hok : x.map f = .ok y) : ∃ v, x = .ok v ∧ f v = y := by
  cases x with
  | error why => exact absurd hok (by simp [Except.map])
  | ok v => exact ⟨v, rfl, Except.ok.inj hok⟩

/-- What reading a value onto a row may do: put one into its field. -/
theorem apply_wrote {ini : Ini} {s : Setting} {cfg cfg' : Config}
    (hok : s.apply ini cfg = .ok cfg') : s.Wrote cfg cfg' := by
  obtain ⟨key, target⟩ := s
  cases target with
  | str get put => exact ⟨_, (Except.ok.inj hok).symm⟩
  | bool get put =>
      simp only [Setting.apply] at hok
      split at hok
      · simp at hok
      · exact ⟨_, (Except.ok.inj hok).symm⟩
  | int row get put =>
      obtain ⟨v, -, hput⟩ := exists_of_map_ok hok
      exact ⟨v, hput.symm⟩
  | real valid requirement get put =>
      obtain ⟨v, -, hput⟩ := exists_of_map_ok hok
      exact ⟨v, hput.symm⟩
  | degrees valid requirement get put =>
      obtain ⟨v, -, hput⟩ := exists_of_map_ok hok
      exact ⟨_, hput.symm⟩

/-- A row leaves the others' fields alone, and what the config file says. -/
theorem wrote_frame {s : Setting} (hs : s ∈ settings) {cfg cfg' : Config}
    (hwrote : s.Wrote cfg cfg') :
    cfg'.operatorPart = cfg.operatorPart ∧
      ∀ other ∈ settings, other.key ≠ s.key → other.Same cfg' cfg := by
  simp only [settings, List.mem_cons, List.not_mem_nil, or_false] at hs
  rcases hs with rfl | rfl | rfl | rfl | rfl | rfl | rfl | rfl | rfl | rfl <;>
    obtain ⟨v, rfl⟩ := hwrote <;>
    refine ⟨rfl, ?_⟩ <;>
    simp only [settings, List.forall_mem_cons] <;>
    refine ⟨?_, ?_, ?_, ?_, ?_, ?_, ?_, ?_, ?_, ?_, by simp⟩ <;>
    intro hne <;>
    first
      | rfl
      | exact absurd rfl hne

/-! ## Positions -/

/-- The bounds of a latitude and of a longitude. -/
def IsBound (bound : ℕ) : Prop := bound = 90 ∨ bound = 180

/-- The bounds are doubles. -/
theorem nearest_bound {bound : ℕ} (hbound : IsBound bound) :
    Binary64.nearest bound = bound ∧ Binary64.nearest (-bound) = -bound := by
  rcases hbound with rfl | rfl
  · exact ⟨by decide +kernel, by decide +kernel⟩
  · exact ⟨by decide +kernel, by decide +kernel⟩

/-- A position within its bounds is within them as a double. -/
theorem abs_nearest_le {n : ℤ} {bound : ℕ} (hbound : IsBound bound)
    (hn : |n| ≤ bound * 1000000) : |Binary64.nearest (n / 1000000)| ≤ bound := by
  have hcast : |(n : ℚ)| ≤ bound * 1000000 := by exact_mod_cast hn
  rcases hn.eq_or_lt with hedge | hinside
  · -- At the bound itself, which is a double.
    obtain ⟨hpos, hneg⟩ := nearest_bound hbound
    rcases abs_choice n with hsign | hsign
    · have hn : (n : ℚ) / 1000000 = bound := by
        rw [hsign] at hedge
        rw [hedge]
        push_cast
        ring
      rw [hn, hpos, Nat.abs_cast]
    · have hn : (n : ℚ) / 1000000 = -bound := by
        have hneg : n = -(bound * 1000000) := by omega
        rw [hneg]
        push_cast
        ring
      rw [hn, hneg, abs_neg, Nat.abs_cast]
  · have hstep : |n| + 1 ≤ bound * 1000000 := hinside
    have hsmall : |(n : ℚ)| + 1 ≤ bound * 1000000 := by exact_mod_cast hstep
    have habs : |(n : ℚ) / 1000000| = |(n : ℚ)| / 1000000 := by
      rw [abs_div]
      norm_num
    have hlow : (90 : ℚ) ≤ bound := by rcases hbound with rfl | rfl <;> norm_num
    have hhigh : (bound : ℚ) ≤ 180 := by rcases hbound with rfl | rfl <;> norm_num
    have hnear : |(n : ℚ) / 1000000| ≤ bound := by
      rw [habs]
      linarith
    have hround := Binary64.abs_nearest_sub_le_of_le hnear (by linarith)
    have htri := abs_sub_abs_le_abs_sub (Binary64.nearest ((n : ℚ) / 1000000)) (n / 1000000)
    have hsize : (bound : ℚ) / 2 ^ 53 ≤ 1 / 1000000 := by
      rw [div_le_div_iff₀ (by norm_num) (by norm_num)]
      linarith
    rw [habs] at htri
    linarith

/-- What a row makes of a position within its bounds is within them again. -/
theorem abs_degreesOf_millionthsOf_le {v : ℚ} {bound : ℕ} (hbound : IsBound bound)
    (hv : |v| ≤ bound) : |degreesOf (millionthsOf v)| ≤ bound := by
  have hlow : (90 : ℚ) ≤ bound := by rcases hbound with rfl | rfl <;> norm_num
  have hhigh : (bound : ℚ) ≤ 180 := by rcases hbound with rfl | rfl <;> norm_num
  have hscaled : |v * 1000000| ≤ bound * 1000000 := by
    rw [abs_mul]
    norm_num
    exact hv
  have hround := Binary64.abs_nearest_sub_le_of_le hscaled (by linarith)
  have htri := abs_sub_abs_le_abs_sub (Binary64.nearest (v * 1000000)) (v * 1000000)
  have hsize : (bound : ℚ) * 1000000 / 2 ^ 53 < 1 / 2 := by
    rw [div_lt_div_iff₀ (by norm_num) (by norm_num)]
    linarith
  have hmillionths : |Binary64.roundHalfAway (Binary64.nearest (v * 1000000))| ≤
      ((bound * 1000000 : ℕ) : ℤ) := by
    refine Binary64.abs_roundHalfAway_le ?_
    push_cast
    linarith
  have hfits : (millionthsOf v).toInt =
      Binary64.roundHalfAway (Binary64.nearest (v * 1000000)) := by
    obtain ⟨hbelow, habove⟩ := abs_le.mp hmillionths
    have hlimit : bound ≤ 180 := by exact_mod_cast hhigh
    rw [millionthsOf]
    exact Int32.toInt_ofInt_of_le (by omega) (by omega)
  rw [degreesOf, hfits]
  refine abs_nearest_le hbound ?_
  push_cast at hmillionths
  exact hmillionths

theorem validLat_iff (v : ℚ) : validLat v = true ↔ |v| ≤ (90 : ℕ) := by
  rw [validLat, Bool.and_eq_true, decide_eq_true_iff, decide_eq_true_iff, abs_le]
  norm_num

theorem validLon_iff (v : ℚ) : validLon v = true ↔ |v| ≤ (180 : ℕ) := by
  rw [validLon, Bool.and_eq_true, decide_eq_true_iff, decide_eq_true_iff, abs_le]
  norm_num

/-- A position survives being written in degrees. -/
theorem millionthsOf_degreesOf (e6 : Int32) : millionthsOf (degreesOf e6) = e6 := by
  have hrange : |e6.toInt| ≤ 2 ^ 31 := by
    have hlow := e6.le_toInt
    have hhigh := e6.toInt_lt
    rw [abs_le]
    constructor <;> omega
  rw [millionthsOf, degreesOf, Binary64.roundHalfAway_mul_div hrange, Int32.ofInt_toInt]

/-! ## Ranges -/

/-- A value in a byte's range keeps it in the byte. -/
theorem toNat_ofNat_of_range {low high v : Int} (hlow : 0 ≤ low) (hhigh : high < 256)
    (hv : low ≤ v ∧ v ≤ high) : ((UInt8.ofNat v.toNat).toNat : Int) = v := by
  rw [UInt8.toNat_ofNat']
  omega

/-- What a row lets through is in its range. -/
theorem apply_inRange {ini : Ini} {s : Setting} (hs : s ∈ settings) {cfg cfg' : Config}
    (hok : s.apply ini cfg = .ok cfg') : s.InRange cfg' := by
  simp only [settings, List.mem_cons, List.not_mem_nil, or_false] at hs
  have hreal : ∀ {key requirement : String} {valid : ℚ → Bool} {value : Option ℚ}
      {put : ℚ → Config}, (checkReal key valid requirement value).map put = .ok cfg' →
      ∃ v, valid v = true ∧ cfg' = put v := by
    intro key requirement valid value put hmapped
    obtain ⟨v, hchecked, hput⟩ := exists_of_map_ok hmapped
    exact ⟨v, (checkReal_ok hchecked).2, hput.symm⟩
  have hint : ∀ {row : IntTarget} {current : Int} {found : IniInt} {put : Int → Config},
      (row.apply current found).map put = .ok cfg' →
      ∃ v, (row.min ≤ v ∧ v ≤ row.max) ∧ cfg' = put v := by
    intro row current found put hmapped
    obtain ⟨v, hchecked, hput⟩ := exists_of_map_ok hmapped
    exact ⟨v, IntTarget.apply_ok hchecked, hput.symm⟩
  rcases hs with rfl | rfl | rfl | rfl | rfl | rfl | rfl | rfl | rfl | rfl
  · obtain ⟨v, hvalid, rfl⟩ := hreal hok
    exact hvalid
  · obtain ⟨v, hvalid, rfl⟩ := hreal hok
    exact hvalid
  · obtain ⟨v, hrange, rfl⟩ := hint hok
    have hbyte := toNat_ofNat_of_range (by decide) (by decide) hrange
    rw [← hbyte] at hrange
    exact hrange
  · obtain ⟨v, hrange, rfl⟩ := hint hok
    have hbyte := toNat_ofNat_of_range (by decide) (by decide) hrange
    rw [← hbyte] at hrange
    exact hrange
  · obtain ⟨v, hrange, rfl⟩ := hint hok
    exact hrange
  · obtain ⟨v, hvalid, rfl⟩ := hreal hok
    exact hvalid
  · trivial
  · obtain ⟨v, hvalid, rfl⟩ := hreal hok
    have hbound := (validLat_iff v).mp hvalid
    exact (validLat_iff _).mpr (abs_degreesOf_millionthsOf_le (.inl rfl) hbound)
  · obtain ⟨v, hvalid, rfl⟩ := hreal hok
    have hbound := (validLon_iff v).mp hvalid
    exact (validLon_iff _).mpr (abs_degreesOf_millionthsOf_le (.inr rfl) hbound)
  · trivial

/-! ## A row reads back what it wrote -/

/-- The keys are spelled in lower case, each row's own way. -/
theorem keys_lower : ∀ s ∈ settings, s.text.map Ini.toLower = s.text := by
  simp only [settings, List.forall_mem_cons]
  refine ⟨?_, ?_, ?_, ?_, ?_, ?_, ?_, ?_, ?_, ?_, by simp⟩ <;> decide +kernel

theorem find_set {ini : Ini} {key value : Bytes} (hkey : key.map Ini.toLower = key)
    (hvalue : value ≠ []) : (ini.set key value).find key = some value := by
  rw [Ini.find, Ini.set, hkey, SortedMap.find_assign_self]
  simp [hvalue]

/-- What is printed of a number is printed before any NUL. -/
theorem cStr_of_numeric {v : Bytes} (hv : ∀ byte ∈ v, Numerals.isNumeric byte = true) :
    Ini.cStr v = v := by
  rw [Ini.cStr, List.takeWhile_eq_self_iff]
  intro byte hbyte
  have hnumeric := hv byte hbyte
  rw [decide_eq_true_iff]
  rintro rfl
  exact absurd hnumeric (by decide)

/-- The decimals that are found read back. -/
theorem of_fewestDecimals {v : ℚ} {decimals more : Nat} {text : Bytes}
    (hfound : fewestDecimals v decimals more = some text) :
    ∃ count, text = Numerals.fixed count v ∧ Numerals.strtod text = some v := by
  induction more generalizing decimals with
  | zero => simp [fewestDecimals] at hfound
  | succ more ih =>
      rw [fewestDecimals] at hfound
      split at hfound
      next hreads =>
        obtain rfl := Option.some.inj hfound
        exact ⟨decimals, rfl, hreads⟩
      next => exact ih hfound

theorem numeric_formatReal {v : ℚ} {byte : UInt8} (hmem : byte ∈ formatReal v) :
    Numerals.isNumeric byte = true := by
  rw [formatReal] at hmem
  cases hfound : fewestDecimals v 0 18 with
  | none =>
      rw [hfound] at hmem
      exact Numerals.numeric_general17 hmem
  | some text =>
      rw [hfound] at hmem
      obtain ⟨count, rfl, -⟩ := of_fewestDecimals hfound
      exact Numerals.numeric_fixed hmem

/-- What reads back as a double is not empty. -/
theorem ne_nil_of_strtod {text : Bytes} {v : ℚ} (hreads : Numerals.strtod text = some v) :
    text ≠ [] := by
  rintro rfl
  have hnone : Numerals.strtod [] = none := by decide +kernel
  rw [hnone] at hreads
  simp at hreads

theorem getDouble_set {key : Bytes} (hkey : key.map Ini.toLower = key) {v default : ℚ}
    (hreads : Numerals.strtod (formatReal v) = some v) :
    (({} : Ini).set key (formatReal v)).getDouble key default = some v := by
  rw [Ini.getDouble, find_set hkey (ne_nil_of_strtod hreads)]
  show Numerals.strtod (Ini.cStr (formatReal v)) = some v
  rw [cStr_of_numeric fun _ => numeric_formatReal, hreads]

theorem decimalInt_ne_nil (z : Int) : Text.decimalInt z ≠ [] := by
  rw [Text.decimalInt]
  split
  · simp
  · exact Text.decimal_ne_nil _

theorem getInt64_of_find {ini : Ini} {key v : Bytes} {value : Int}
    (hfind : ini.find key = some v) (hparse : Numerals.strtoll (Ini.cStr v) = some value) :
    getInt64 ini key = .value value := by
  rw [getInt64, hfind]
  dsimp only
  rw [hparse]

/-- The row of the one flag takes the flag that is read. -/
theorem apply_relay_iff {ini : Ini} {cfg cfg' : Config} :
    relay.apply ini cfg = .ok cfg' ↔ ∃ value,
      ini.getBool relay.text cfg.node.relay = some value ∧
        { cfg with node := { cfg.node with relay := value } } = cfg' := by
  have htarget : relay.target = .bool (fun cfg => cfg.node.relay)
      (fun cfg value => { cfg with node := { cfg.node with relay := value } }) := rfl
  rw [apply, htarget]
  dsimp only
  cases ini.getBool relay.text cfg.node.relay <;> simp

theorem apply_decimalInt {row : IntTarget} {key : Bytes} (hkey : key.map Ini.toLower = key)
    {current v : Int} (hlow : -9223372036854775808 ≤ row.min)
    (hhigh : row.max < 9223372036854775808) (hrange : row.min ≤ v ∧ v ≤ row.max) :
    row.apply current (getInt64 (({} : Ini).set key (Text.decimalInt v)) key) = .ok v := by
  have hfound : getInt64 (({} : Ini).set key (Text.decimalInt v)) key = .value v := by
    refine getInt64_of_find (find_set hkey (decimalInt_ne_nil v)) ?_
    rw [cStr_of_numeric fun _ => Numerals.numeric_decimalInt,
      Numerals.strtoll_decimalInt (by omega) (by omega)]
  rw [hfound, IntTarget.apply, IntTarget.apply.check, if_neg (by omega)]

/-- A row takes its own spelling of a value, and has the value then. -/
theorem apply_format {s : Setting} (hs : s ∈ settings) {source : Config} (cfg : Config)
    (hrange : s.InRange source) (hreads : s.ReadsBack source) (hname : source.profile.name ≠ []) :
    ∃ cfg', s.apply (({} : Ini).set s.text (s.format source)) cfg = .ok cfg' ∧
      s.Same cfg' source := by
  have hkey := keys_lower s hs
  simp only [settings, List.mem_cons, List.not_mem_nil, or_false] at hs
  have hreal : ∀ {key requirement : String} {valid : ℚ → Bool} {v default : ℚ}
      {put : ℚ → Config}, valid v = true → Numerals.strtod (formatReal v) = some v →
      (checkReal key valid requirement
        ((({} : Ini).set s.text (formatReal v)).getDouble s.text default)).map put =
        .ok (put v) := by
    intro key requirement valid v default put hvalid hback
    rw [getDouble_set hkey hback, checkReal, if_pos hvalid]
    rfl
  have hint : ∀ {row : IntTarget} {current v : Int} {put : Int → Config},
      -9223372036854775808 ≤ row.min → row.max < 9223372036854775808 →
      row.min ≤ v ∧ v ≤ row.max →
      (row.apply current (getInt64 (({} : Ini).set s.text (Text.decimalInt v)) s.text)).map put =
        .ok (put v) := by
    intro row current v put hlow hhigh hv
    rw [apply_decimalInt hkey hlow hhigh hv]
    rfl
  rcases hs with rfl | rfl | rfl | rfl | rfl | rfl | rfl | rfl | rfl | rfl
  · exact ⟨_, hreal hrange hreads, rfl⟩
  · exact ⟨_, hreal hrange hreads, rfl⟩
  · exact ⟨_, hint (by decide) (by decide) hrange, by simp [Same, loraSf, Setting.int]⟩
  · exact ⟨_, hint (by decide) (by decide) hrange, by simp [Same, loraCr, Setting.int]⟩
  · exact ⟨_, hint (by decide) (by decide) hrange, rfl⟩
  · exact ⟨_, hreal hrange hreads, rfl⟩
  · refine ⟨_, rfl, ?_⟩
    show (({} : Ini).set advertName.text source.profile.name).getStr advertName.text _ = _
    rw [Ini.getStr, find_set hkey hname, Option.getD_some]
  · exact ⟨_, hreal hrange hreads, millionthsOf_degreesOf _⟩
  · exact ⟨_, hreal hrange hreads, millionthsOf_degreesOf _⟩
  · have hfound : (({} : Ini).set relay.text (relay.format source)).getBool relay.text
        cfg.node.relay = some source.node.relay := by
      show (({} : Ini).set relay.text (if source.node.relay then utf8 "1" else utf8 "0")).getBool
        relay.text cfg.node.relay = _
      have hvalue : (if source.node.relay then utf8 "1" else utf8 "0") ≠ [] := by
        cases source.node.relay <;> decide +kernel
      rw [Ini.getBool, find_set hkey hvalue]
      dsimp only
      cases source.node.relay <;> decide +kernel
    exact ⟨_, apply_relay_iff.mpr ⟨_, hfound, rfl⟩, rfl⟩

end Setting

end Coreletd.Daemon
