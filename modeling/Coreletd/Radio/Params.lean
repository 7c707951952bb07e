/-
# On-air parameters and time on air

The parameters of a radio and the LoRa time on air they give a payload. The
code computes in doubles; here the same formulas are exact rationals.
-/

import Mathlib.Algebra.Order.Floor.Ring
import Mathlib.Data.Rat.Floor

namespace Coreletd.Radio

/-- The settings a radio is tuned to. A frequency of 0 is none given yet. -/
structure RadioParams where
  freqMhz : ℚ := 0
  bwKhz : ℚ := 62.5
  sf : UInt8 := 8
  cr : UInt8 := 5
  txPowerDbm : Int := 22
  tcxoVoltage : ℚ := 1.8
  dio2AsRfSwitch : Bool := true
  rxBoostedGain : Bool := true
  currentLimitMa : Int := 140
  dutyCyclePct : ℚ := 10
  deriving DecidableEq

namespace RadioParams

def hasFrequency (p : RadioParams) : Bool := decide (0 < p.freqMhz)

/-- On once a symbol reaches 16 ms. -/
def lowDataRateOptimize (p : RadioParams) : Bool :=
  if p.sf < 5 ∨ p.bwKhz ≤ 0 then false else decide (16 ≤ (2 : ℚ) ^ p.sf.toNat / p.bwKhz)

def preambleSymbols (p : RadioParams) : Nat := if p.sf ≤ 8 then 32 else 16

/-- Symbols between the preamble and the header. -/
def sfdSymbols (p : RadioParams) : ℚ := if p.sf ≤ 6 then 6.25 else 4.25

/-- LoRa time on air of a payload of `bytes`, in milliseconds rounded up. -/
def airtimeMs (p : RadioParams) (bytes : Nat) : UInt32 :=
  if p.sf < 5 ∨ p.bwKhz ≤ 0 then 0
  else
    let de := p.lowDataRateOptimize
    let bwHz := p.bwKhz * 1000
    let tSym := (2 : ℚ) ^ p.sf.toNat / bwHz
    let tPreamble := (p.preambleSymbols + p.sfdSymbols) * tSym
    let cr : Nat := if 5 ≤ p.cr ∧ p.cr ≤ 8 then p.cr.toNat - 4 else 4
    let headerCoeff : ℚ := if p.sf ≤ 6 then 0 else 8
    let numerator := max (8 * (bytes : ℚ) + 16 - 4 * (p.sf.toNat : ℚ) + headerCoeff + 20) 0
    let denominator := 4 * ((p.sf.toNat : ℚ) - if de then 2 else 0)
    let nPayload := max (8 + (⌈numerator / denominator⌉ : ℚ) * (4 + cr)) 8
    let total := tPreamble + nPayload * tSym
    UInt32.ofNat ⌈total * 1000⌉.toNat

/-- Symbol time at the configured spreading factor and bandwidth, rounded up by
a whole millisecond. -/
def symbolsMs (p : RadioParams) (symbols : Nat) : UInt32 :=
  if p.sf < 5 ∨ p.bwKhz ≤ 0 then 0
  else UInt32.ofNat ⌊(2 : ℚ) ^ p.sf.toNat / p.bwKhz * symbols⌋.toNat + 1

/-- Equal in everything the chip is programmed with: the duty cycle is the
dispatcher's to enforce. -/
def SameOnChip (p q : RadioParams) : Prop := { p with dutyCyclePct := q.dutyCyclePct } = q

instance (p q : RadioParams) : Decidable (p.SameOnChip q) :=
  inferInstanceAs (Decidable (_ = _))

end RadioParams

end Coreletd.Radio
