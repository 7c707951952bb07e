/-
# The settings an app may change

The rows of the settings table for the app's ten keys: where a value lands, how
it is parsed and what it is checked against, and the one spelling it is written
back in. Doubles are the rationals they stand for.
-/

import Coreletd.Daemon.Config
import Coreletd.Mesh.SelfAdvert
import Coreletd.Radio.Params
import Coreletd.Util.Ini

namespace Coreletd.Daemon

open Coreletd.Library
open Coreletd.Mesh
open Coreletd.Proto
open Coreletd.Radio

def kMinTxPowerDbm : Int := -9
def kMaxTxPowerDbm : Int := 22

/-- The LoRa bandwidths of the SX1262, in kHz. -/
def kBandwidthsKhz : List ℚ :=
  [781 / 100, 1042 / 100, 1563 / 100, 2083 / 100, 3125 / 100, 4167 / 100, 625 / 10, 125, 250,
    500].map Binary64.nearest

/-- The most an advert carries. -/
def kMaxAdvertAppDataSize : Nat := 32

structure Config where
  stateDir : Bytes := []
  radio : RadioParams := {}
  profile : NodeProfile := {}
  node : NodeConfig := {}

def Config.settingsPath (cfg : Config) : Bytes := cfg.stateDir ++ utf8 "/settings"

/-! ## Constraints -/

/-- 0 is not set. -/
def validFreq (mhz : ℚ) : Bool := mhz = 0 || (150 ≤ mhz && mhz ≤ 960)

def supportedBandwidth (khz : ℚ) : Bool :=
  kBandwidthsKhz.any fun supported =>
    |Binary64.nearest (khz - supported)| < Binary64.nearest (5 / 1000)

/-- 100 is no limit. -/
def validDutyCycle (pct : ℚ) : Bool := 0 < pct && pct ≤ 100

def validLat (deg : ℚ) : Bool := -90 ≤ deg && deg ≤ 90

def validLon (deg : ℚ) : Bool := -180 ≤ deg && deg ≤ 180

/-- What these let into a radio's parameters. -/
structure RadioAccepted (p : RadioParams) : Prop where
  freq : validFreq p.freqMhz = true
  bandwidth : supportedBandwidth p.bwKhz = true
  sf : 5 ≤ p.sf ∧ p.sf ≤ 12
  cr : 5 ≤ p.cr ∧ p.cr ≤ 8
  txPower : kMinTxPowerDbm ≤ p.txPowerDbm ∧ p.txPowerDbm ≤ kMaxTxPowerDbm
  dutyCycle : validDutyCycle p.dutyCyclePct = true

/-! ## The settings table -/

/-- Where a value goes, and how it is read. -/
inductive Target where
  | str (get : Config → Bytes) (put : Config → Bytes → Config)
  | bool (get : Config → Bool) (put : Config → Bool → Config)
  | int (row : IntTarget) (get : Config → Int) (put : Config → Int → Config)
  | real (valid : ℚ → Bool) (requirement : String) (get : Config → ℚ) (put : Config → ℚ → Config)
  /-- Written in decimal degrees, held in millionths. -/
  | degrees (valid : ℚ → Bool) (requirement : String) (get : Config → Int32)
      (put : Config → Int32 → Config)

structure Setting where
  key : String
  target : Target

def Setting.text (s : Setting) : Bytes := utf8 s.key

/-- A row for an integer field. -/
def Setting.int (key : String) (min max : Int) (get : Config → Int)
    (put : Config → Int → Config) : Setting :=
  { key, target := .int { key, min, max } get put }

def Setting.loraFreq : Setting where
  key := "radio.lora_freq"
  target := .real validFreq "0 (unset) or between 150 and 960 MHz" (·.radio.freqMhz)
    fun cfg v => { cfg with radio := { cfg.radio with freqMhz := v } }

def Setting.loraBw : Setting where
  key := "radio.lora_bw"
  target := .real supportedBandwidth "a bandwidth supported by SX1262 (7.81 to 500 kHz)"
    (·.radio.bwKhz) fun cfg v => { cfg with radio := { cfg.radio with bwKhz := v } }

def Setting.loraSf : Setting :=
  .int "radio.lora_sf" 5 12 (·.radio.sf.toNat) fun cfg v =>
    { cfg with radio := { cfg.radio with sf := UInt8.ofNat v.toNat } }

def Setting.loraCr : Setting :=
  .int "radio.lora_cr" 5 8 (·.radio.cr.toNat) fun cfg v =>
    { cfg with radio := { cfg.radio with cr := UInt8.ofNat v.toNat } }

def Setting.loraTxPower : Setting :=
  .int "radio.lora_tx_power" kMinTxPowerDbm kMaxTxPowerDbm (·.radio.txPowerDbm) fun cfg v =>
    { cfg with radio := { cfg.radio with txPowerDbm := v } }

def Setting.dutyCycle : Setting where
  key := "radio.duty_cycle"
  target := .real validDutyCycle "greater than 0 and less than 100 percent"
    (·.radio.dutyCyclePct) fun cfg v => { cfg with radio := { cfg.radio with dutyCyclePct := v } }

def Setting.advertName : Setting where
  key := "node.advert_name"
  target := .str (·.profile.name) fun cfg v =>
    { cfg with profile := { cfg.profile with name := v } }

def Setting.lat : Setting where
  key := "node.lat"
  target := .degrees validLat "between -90 and 90 degrees" (·.profile.latE6) fun cfg v =>
    { cfg with profile := { cfg.profile with latE6 := v } }

def Setting.lon : Setting where
  key := "node.lon"
  target := .degrees validLon "between -180 and 180 degrees" (·.profile.lonE6) fun cfg v =>
    { cfg with profile := { cfg.profile with lonE6 := v } }

/-- `node.repeat`. -/
def Setting.relay : Setting where
  key := "node.repeat"
  target := .bool (·.node.relay) fun cfg v => { cfg with node := { cfg.node with relay := v } }

/-- The rows of the table that an app may change, in the table's order. -/
def settings : List Setting :=
  [.loraFreq, .loraBw, .loraSf, .loraCr, .loraTxPower, .dutyCycle, .advertName, .lat, .lon, .relay]

def kAppKeys : List String :=
  ["radio.lora_freq", "radio.lora_bw", "radio.lora_sf", "radio.lora_cr", "radio.lora_tx_power",
    "radio.duty_cycle", "node.advert_name", "node.lat", "node.lon", "node.repeat"]

/-- What `get_int64` finds under a key. -/
def getInt64 (ini : Ini) (key : Bytes) : IniInt :=
  match ini.find key with
  | none => .absent
  | some v =>
      match Numerals.strtoll (Ini.cStr v) with
      | none => .malformed
      | some value => .value value

/-- A checked double for a row. -/
def checkReal (key : String) (valid : ℚ → Bool) (requirement : String) (value : Option ℚ) :
    Except String ℚ :=
  match value with
  | none => .error (key ++ ": not a finite number")
  | some v => if valid v then .ok v else .error (key ++ " must be " ++ requirement)

/-- A position in degrees, as a double. -/
def degreesOf (e6 : Int32) : ℚ := Binary64.nearest (e6.toInt / 1000000)

/-- The millionths nearest to a double. -/
def millionthsOf (degrees : ℚ) : Int32 :=
  Int32.ofInt (Binary64.roundHalfAway (Binary64.nearest (degrees * 1000000)))

/-- One setting, whose field is the default when the key is absent. -/
def Setting.apply (ini : Ini) (s : Setting) (cfg : Config) : Except String Config :=
  match s.target with
  | .str get put => .ok (put cfg (ini.getStr s.text (get cfg)))
  | .bool get put =>
      match ini.getBool s.text (get cfg) with
      | none => .error (s.key ++ ": not a boolean")
      | some value => .ok (put cfg value)
  | .int row get put => (row.apply (get cfg) (getInt64 ini s.text)).map (put cfg)
  | .real valid requirement get put =>
      (checkReal s.key valid requirement (ini.getDouble s.text (get cfg))).map (put cfg)
  | .degrees valid requirement get put =>
      (checkReal s.key valid requirement (ini.getDouble s.text (degreesOf (get cfg)))).map
        fun value => put cfg (millionthsOf value)

/-- The fewest decimals that read back as the value, among `decimals` and the
`more` that follow. -/
def fewestDecimals (v : ℚ) : Nat → Nat → Option Bytes
  | _, 0 => none
  | decimals, more + 1 =>
      if Numerals.strtod (Numerals.fixed decimals v) = some v then
        some (Numerals.fixed decimals v)
      else fewestDecimals v (decimals + 1) more

def formatReal (v : ℚ) : Bytes := (fewestDecimals v 0 18).getD (Numerals.general17 v)

def Setting.format (s : Setting) (cfg : Config) : Bytes :=
  match s.target with
  | .str get _ => get cfg
  | .bool get _ => if get cfg then utf8 "1" else utf8 "0"
  | .int _ get _ => Text.decimalInt (get cfg)
  | .real _ _ get _ => formatReal (get cfg)
  | .degrees _ _ get _ => formatReal (degreesOf (get cfg))

namespace Config

def appKey (key : Bytes) : Bool := kAppKeys.any fun known => utf8 known = key

/-- The row of an app's key. -/
def row (key : Bytes) : Option Setting := settings.find? fun s => s.text = key

/-- An app key's value, as the settings file writes it. -/
def get (cfg : Config) (key : Bytes) : Bytes :=
  if !appKey key then []
  else
    match row key with
    | none => []
    | some s => s.format cfg

/-- Parse a value into an app key, with the checks its line in the settings file
gets. -/
def set (cfg : Config) (key value : Bytes) : Except Bytes Config :=
  if !appKey key then .error (key ++ utf8 " is not a setting an app may change")
  else
    match row key with
    | none => .error []
    | some s => (s.apply (({} : Ini).set key value) cfg).mapError utf8

/-- Not for a settings file, nor for an app to show. -/
def isControl (c : UInt8) : Bool := c < 0x20 || c = 0x7F

/-- The checks no one key can make. -/
def validate (cfg : Config) : Except Bytes Unit :=
  if cfg.profile.name = [] then
    .error (utf8 ("node.advert_name must not be empty — MeshCore clients ignore adverts with " ++
      "no name"))
  else if cfg.profile.name.any isControl then
    .error (utf8 "node.advert_name must not contain control characters")
  else
    let overhead := 1 + if cfg.profile.hasLocation then 8 else 0
    let budget := kMaxAdvertAppDataSize - overhead
    if budget < cfg.profile.name.length then
      .error (utf8 "node.advert_name is " ++ toText cfg.profile.name.length ++
        utf8 " bytes; the advert only carries " ++ toText budget ++
        (if cfg.profile.hasLocation then utf8 " once node.lat/node.lon are set" else []) ++
        utf8 ", and a longer one fails signature verification on every MeshCore node")
    else .ok ()

end Config

end Coreletd.Daemon
