/-
# What the commands answer

The frames a session answers commands with, from what it reads of the node, the
stores and the radio, and how it reads the settings an app sends. Doubles are the
rationals they stand for.
-/

import Coreletd.Companion.ContactSync
import Coreletd.Companion.SendText
import Coreletd.Daemon.Settings

namespace Coreletd.Companion

open Coreletd.Crypto
open Coreletd.Daemon
open Coreletd.Library
open Coreletd.Mesh
open Coreletd.Radio

/-! ## Codes -/

def kCmdSendChannelTxtMsg : UInt8 := 3
def kCmdGetContacts : UInt8 := 4
def kCmdGetDeviceTime : UInt8 := 5
def kCmdSetDeviceTime : UInt8 := 6
def kCmdSendSelfAdvert : UInt8 := 7
def kCmdSetAdvertName : UInt8 := 8
def kCmdAddUpdateContact : UInt8 := 9
def kCmdSetRadioParams : UInt8 := 11
def kCmdSetRadioTxPower : UInt8 := 12
def kCmdResetPath : UInt8 := 13
def kCmdSetAdvertLatLon : UInt8 := 14
def kCmdRemoveContact : UInt8 := 15
def kCmdShareContact : UInt8 := 16
def kCmdExportContact : UInt8 := 17
def kCmdGetBatteryVoltage : UInt8 := 20
def kCmdSetTuningParams : UInt8 := 21
def kCmdDeviceQuery : UInt8 := 22
def kCmdGetContactByKey : UInt8 := 30
def kCmdGetChannel : UInt8 := 31
def kCmdSetChannel : UInt8 := 32
def kCmdGetTuningParams : UInt8 := 43

def kRespSelfInfo : UInt8 := 5
def kRespCurrTime : UInt8 := 9
def kRespExportContact : UInt8 := 11
def kRespBatteryVoltage : UInt8 := 12
def kRespDeviceInfo : UInt8 := 13
def kRespChannelInfo : UInt8 := 18
def kRespTuningParams : UInt8 := 23

def kPushAdvert : UInt8 := 0x80
def kPushPathUpdated : UInt8 := 0x81
def kPushLogRxData : UInt8 := 0x88
def kPushNewAdvert : UInt8 := 0x8A

def kFirmwareVersion : UInt8 := 3
def kChannelNameField : Nat := 32
def kChannelSecretSize : Nat := 16

def CommandError.code : CommandError → UInt8
  | .illegalArg => kErrIllegalArg
  | .tableFull => kErrTableFull
  | .notFound => kErrNotFound

/-! ## Frames -/

/-- `lround` and a cast to 32 bits. -/
def roundedWord (v : ℚ) : UInt32 := UInt32.ofInt (Binary64.roundHalfAway v)

/-- A double's thousandfold, rounded and not truncated. -/
def thousandths (v : ℚ) : UInt32 := roundedWord (Binary64.nearest (v * 1000))

def selfInfoFrame (self : LocalIdentity) (profile : NodeProfile) (rp : RadioParams) : Bytes :=
  [kRespSelfInfo, profile.advType, (Int8.ofInt rp.txPowerDbm).toUInt8,
      (Int8.ofInt kMaxTxPowerDbm).toUInt8] ++
    self.pub ++ putI32 profile.latE6 ++ putI32 profile.lonE6 ++ [0, 0, 0, 0] ++
    putU32 (thousandths rp.freqMhz) ++ putU32 (thousandths rp.bwKhz) ++ [rp.sf, rp.cr] ++
    profile.name

/-- What an app can ask about the machine: what is fixed, and what is read when it
asks. -/
structure DeviceMetrics where
  model : Bytes := []
  firmwareBuild : Bytes := []
  version : Bytes := []
  maxContactsDiv2 : UInt8 := 0
  maxChannels : UInt8 := 0
  batteryMv : UInt16 := 0
  usedBytes : UInt64 := 0
  totalBytes : UInt64 := 0

def deviceInfoFrame (metrics : DeviceMetrics) (relay : Bool) : Bytes :=
  [kRespDeviceInfo, kFirmwareVersion, metrics.maxContactsDiv2, metrics.maxChannels] ++ putU32 0 ++
    putPadded metrics.firmwareBuild 12 ++ putPadded metrics.model 40 ++
    putPadded metrics.version 20 ++ [if relay then 1 else 0, 0]

/-- Whole kilobytes, as many as fit. -/
def toKb (bytes : UInt64) : UInt32 := UInt32.ofNat (min (bytes.toNat / 1024) 4294967295)

def batteryFrame (metrics : DeviceMetrics) : Bytes :=
  [kRespBatteryVoltage] ++ putU16 metrics.batteryMv ++ putU32 (toKb metrics.usedBytes) ++
    putU32 (toKb metrics.totalBytes)

def cmdGetContactByKey (contacts : ContactStore) (args : Bytes) : Bytes :=
  let (pubkey, r) := (Reader.ofBytes args).take kPubKeySize
  if !r.ok then respErr kErrIllegalArg
  else
    match contacts.find pubkey with
    | none => respErr kErrNotFound
    | some c => contactFrame kRespContact c

/-- Our own card as a signed advert packet. Nobody else's can be exported: that
takes the advert they signed, which is not kept. -/
def cmdExportContact (advert : Option Proto.Packet) (args : Bytes) : Bytes :=
  if (Reader.ofBytes args).has kPubKeySize then respErr kErrNotFound
  else
    match advert with
    | none => respErr kErrBadState
    | some p => [kRespExportContact] ++ p.encode

def cmdGetChannel (channels : ChannelStore) (args : Bytes) : Bytes :=
  let (index, r) := (Reader.ofBytes args).u8
  if !r.ok then respErr kErrIllegalArg
  else
    match channels.channels[index.toNat]? with
    | none => respErr kErrNotFound
    | some ch =>
        [kRespChannelInfo, index] ++ putPadded ch.name kChannelNameField ++
          putPadded ch.secret kChannelSecretSize

/-- The slot and the channel of a frame; a key of zeros clears the slot. -/
def readChannel (args : Bytes) : Option (Nat × Channel) :=
  let (index, r) := (Reader.ofBytes args).u8
  let (name, r) := r.fixedStr kChannelNameField
  let (secret, r) := r.take kChannelSecretSize
  if !r.ok then none
  else if kMaxChannels ≤ index.toNat then none
  else some (index.toNat, { name, secret := if secret.all (· = 0) then [] else secret })

def tuningFrame (rp : RadioParams) : Bytes :=
  let factor := Binary64.nearest (Binary64.nearest (100 / rp.dutyCyclePct) - 1)
  [kRespTuningParams] ++ putU32 0 ++ putU32 (thousandths factor)

/-! ## Settings

Each value goes to the config as the text that a line of the settings file would
hold. -/

def kRepeatFreqsKhz : List UInt32 := [433000, 869495, 918000]

def kMaxAirtimeFactorMilli : UInt32 := 9000

def mhzFromKhz (khz : UInt32) : Bytes :=
  toText (khz.toNat / 1000) ++ [Ini.dot] ++ Numerals.padded 3 (khz.toNat % 1000)

def degreesFromE6 (e6 : Int32) : Bytes :=
  let magnitude := e6.toInt.natAbs
  (if e6.toInt < 0 then [45] else []) ++ toText (magnitude / 1000000) ++ [Ini.dot] ++
    Numerals.padded 6 (magnitude % 1000000)

/-- The supported bandwidth within one percent, if there is one. -/
def nearestBandwidth (khz : ℚ) : Option ℚ :=
  kBandwidthsKhz.find? fun supported =>
    |Binary64.nearest (khz - supported)| ≤
      Binary64.nearest (supported * Binary64.nearest (1 / 100))

/-- The changes a settings command asks for, or nothing when it is refused before
they are tried. -/
abbrev Requested : Type := Option (List Change)

/-- The rest of the frame, up to a NUL. -/
def cmdSetAdvertName (args : Bytes) : Requested :=
  let name := args.takeWhile (· ≠ 0)
  if name = [] then none else some [(utf8 "node.advert_name", name)]

def cmdSetAdvertLatLon (args : Bytes) : Requested :=
  let (lat, r) := (Reader.ofBytes args).i32
  let (lon, r) := r.i32
  if !r.ok then none
  else some [(utf8 "node.lat", degreesFromE6 lat), (utf8 "node.lon", degreesFromE6 lon)]

/-- freq(4) in kHz, bw(4) in Hz, sf(1), cr(1), and repeat(1), which is off where the
frame has none. -/
def cmdSetRadioParams (args : Bytes) : Requested :=
  let (freqKhz, r) := (Reader.ofBytes args).u32
  let (bwHz, r) := r.u32
  let (sf, r) := r.u8
  let (cr, r) := r.u8
  if !r.ok then none
  else
    let relay := r.has 1 && decide (r.u8.1 ≠ 0)
    if relay && !kRepeatFreqsKhz.contains freqKhz then none
    else if freqKhz = 0 then none
    else
      match nearestBandwidth (Binary64.nearest (bwHz.toNat / 1000)) with
      | none => none
      | some bw => some
          [(utf8 "radio.lora_freq", mhzFromKhz freqKhz),
            (utf8 "radio.lora_bw", Numerals.general17 bw),
            (utf8 "radio.lora_sf", toText sf.toNat), (utf8 "radio.lora_cr", toText cr.toNat),
            (utf8 "node.repeat", utf8 (if relay then "1" else "0"))]

/-- A signed byte. -/
def cmdSetTxPower (args : Bytes) : Requested :=
  let (dbm, r) := (Reader.ofBytes args).u8
  if !r.ok then none
  else some [(utf8 "radio.lora_tx_power", Text.decimalInt dbm.toInt8.toInt)]

/-- rx_delay(4) airtime_factor(4), each in thousandths. -/
def cmdSetTuningParams (args : Bytes) : Requested :=
  let (rxDelay, r) := (Reader.ofBytes args).u32
  let (factor, r) := r.u32
  if !r.ok then none
  else if rxDelay ≠ 0 then none
  else if kMaxAirtimeFactorMilli < factor then none
  else
    let quiet := Binary64.nearest (1 + Binary64.nearest (factor.toNat / 1000))
    some [(utf8 "radio.duty_cycle", Numerals.general17 (Binary64.nearest (100 / quiet)))]

def settingsReply : SettingsResult → Bytes
  | .ok => respOk
  | .invalid => respErr kErrIllegalArg
  | .ioError => respErr kErrFileIoError

end Coreletd.Companion
