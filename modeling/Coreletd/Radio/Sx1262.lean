/-
# The SX1262 driver

The driver's state machine over a chip that may answer anything at any moment.
Each call into it (an interrupt, a timer, a request) comes with the replies the
hardware gives while the call runs: whether BUSY cleared, whether the transfer
went through (and the error text if not), the status byte, the bytes read and
the milliseconds it took. A reply not listed is a prompt and successful one. What the driver
does to the outside is kept in a trace, newest first.
-/

import Coreletd.Library.Runs
import Coreletd.Library.SerialClock
import Coreletd.Radio.Params

namespace Coreletd.Radio

open Coreletd.Library
open Coreletd.Library.SerialClock

/-- The commands of the chip that the driver uses. -/
inductive Opcode where
  | setStandby
  | setTx
  | setRx
  | setRfFrequency
  | setPacketType
  | setTxParams
  | setPaConfig
  | setBufferBaseAddress
  | setModulationParams
  | setPacketParams
  | setDioIrqParams
  | getIrqStatus
  | clearIrqStatus
  | setDio2AsRfSwitch
  | setDio3AsTcxoCtrl
  | writeRegister
  | readRegister
  | writeBuffer
  | readBuffer
  | getRxBufferStatus
  | getPacketStatus
  | calibrate
  | calibrateImage
  | setRegulatorMode
  | getDeviceErrors
  | clearDeviceErrors
  | setRxTxFallbackMode
  deriving DecidableEq, Repr

/-- What the hardware does with one call: `waited` is BUSY going low in time,
`transferred` the kernel carrying the SPI or GPIO request out. -/
structure Reply where
  waited : Bool := true
  transferred : Bool := true
  error : String := ""
  status : UInt8 := 0x22
  data : List UInt8 := []
  ms : Nat := 0
  deriving DecidableEq, Repr

/-- An unpowered module leaves the status at all-zeroes or all-ones; a real one
reports a defined chip mode and may report a command error. -/
def commandStatusOk (status : UInt8) : Bool :=
  let chipMode := (status >>> 4) &&& 0x07
  let commandStatus := (status >>> 1) &&& 0x07
  decide (2 ≤ chipMode) && decide (chipMode ≤ 6) &&
    (decide (commandStatus < 3) || decide (5 < commandStatus))

def Reply.accepted (r : Reply) : Bool := r.waited && r.transferred && commandStatusOk r.status

/-- A packet handed to the chip: when SetTx was accepted, and the time on air
the parameters of that moment give it. -/
structure Sent where
  time : Nat
  size : Nat
  airtimeMs : UInt32
  deriving DecidableEq, Repr

/-- A `deliver_tx_done`. -/
structure Done where
  time : Nat
  airtimeMs : UInt32
  deriving DecidableEq, Repr

inductive RxError where
  | headerError
  | crcError
  | timeout
  deriving DecidableEq, Repr

/-- A reception that failed, with the signal it had where the chip can say. -/
structure RxFailure where
  error : RxError
  signal : Option (Int × ℚ)
  deriving DecidableEq

structure RxPacket where
  data : List UInt8
  rssi : Int
  snr : ℚ
  rxMillis : UInt32
  deriving DecidableEq

/-- What the driver did: a command the chip accepted, a transmission begun or
reported done, something delivered upwards. -/
inductive Activity where
  | command (opcode : Opcode)
  | sent (s : Sent)
  | txDone (done : Done)
  | rx (packet : RxPacket)
  | rxError (failure : RxFailure)
  deriving DecidableEq

/-- The optional lines that switch the antenna. -/
inductive Line where
  | rxen
  | txen
  deriving DecidableEq, Repr

/-- The steps of a recovery that wait for a timer. -/
inductive RecoveryStep where
  | releaseReset
  | pollResetBusy
  deriving DecidableEq, Repr

/-- Pin numbers as configured; a negative one is not wired. -/
structure Pins where
  irq : Int := 26
  busy : Int := 24
  reset : Int := 25
  rxen : Int := -1
  txen : Int := -1

/-- The driver. A timer is armed when it holds the reading it is due at.
`programmed` is what the chip was last configured with to the end. -/
structure Sx1262 where
  params : RadioParams
  pins : Pins := {}
  retryIntervalMs : UInt32
  time : Nat := 0
  script : List Reply := []
  begun : Bool := false
  watching : Bool := false
  supervised : Bool := false
  resetLine : Bool := false
  busyLine : Bool := false
  rxenLine : Bool := false
  txenLine : Bool := false
  txTimeout : Option UInt32 := none
  recoveryTimer : Option (RecoveryStep × UInt32) := none
  txBusy : Bool := false
  txStartedMs : UInt32 := 0
  retunePending : Bool := false
  rxSinceMs : UInt32 := 0
  healthy : Bool := false
  recovering : Bool := false
  everHealthy : Bool := false
  initialFailureReported : Bool := false
  recoveryDeadlineMs : UInt32 := 0
  programmed : Option RadioParams := none
  trace : List Activity := []

namespace Sx1262

/-! ## Low level -/

/-- One call into the hardware: the next reply of the script, and its time. -/
def io (d : Sx1262) : Reply × Sx1262 :=
  match d.script with
  | [] => ({}, d)
  | r :: script => (r, { d with script, time := d.time + r.ms })

def millis (d : Sx1262) : UInt32 := reading d.time

def record (a : Activity) (d : Sx1262) : Sx1262 := { d with trace := a :: d.trace }

def hasLine (d : Sx1262) : Line → Bool
  | .rxen => d.rxenLine
  | .txen => d.txenLine

/-- The calls whose only answer is whether they worked. -/
inductive Action where
  | cmd (opcode : Opcode)
  | line (pin : Line) (level : Bool)
  | waitBusy
  | sleep (ms : Nat)

/-- A line that is not wired is never in the way. -/
def perform (d : Sx1262) : Action → Bool × Sx1262
  | .cmd opcode =>
      let (r, d) := d.io
      if r.accepted then (true, d.record (.command opcode)) else (false, d)
  | .line pin _ =>
      if d.hasLine pin then
        let (r, d) := d.io
        (r.transferred, d)
      else (true, d)
  | .waitBusy =>
      let (r, d) := d.io
      (r.waited, d)
  | .sleep ms => (true, { d with time := d.time + ms })

/-- A sequence of calls, abandoned at the first that fails with the text that
stands beside it. -/
def attempt (d : Sx1262) : List (Action × String) → Except String Unit × Sx1262
  | [] => (.ok (), d)
  | (action, what) :: rest =>
      match d.perform action with
      | (true, d) => d.attempt rest
      | (false, d) => (.error what, d)

/-- `cmd_read`, `read_register` and `read_buffer`: `count` bytes out of the chip. -/
def read (d : Sx1262) (opcode : Opcode) (count : Nat) : Option (List UInt8) × Sx1262 :=
  let (r, d) := d.io
  if r.accepted then
    (some ((List.range count).map fun i => r.data.getD i 0), d.record (.command opcode))
  else (none, d)

/-! ## Configuration -/

/-- `configure`, call by call; the text names the one that failed. -/
def configureCalls (p : RadioParams) : List (Action × String) :=
  [(.cmd .setStandby, "SetStandby")] ++
  (if 0 < p.tcxoVoltage then
    [(.cmd .setDio3AsTcxoCtrl, "SetDio3AsTcxoCtrl"),
      (.cmd .calibrate, "Calibrate"),
      (.sleep 5, ""),
      (.waitBusy, "Calibrate (busy)"),
      (.cmd .clearDeviceErrors, "ClearDeviceErrors")]
  else []) ++
  [(.cmd .setRegulatorMode, "SetRegulatorMode")] ++
  (if p.dio2AsRfSwitch then [(.cmd .setDio2AsRfSwitch, "SetDio2AsRfSwitch")] else []) ++
  [(.cmd .setPacketType, "SetPacketType"),
    (.cmd .setRfFrequency, "SetRfFrequency"),
    (.cmd .calibrateImage, "CalibrateImage"),
    (.cmd .setPaConfig, "SetPaConfig"),
    (.cmd .readRegister, "read TX clamp configuration"),
    (.cmd .writeRegister, "write TX clamp configuration"),
    (.cmd .readRegister, "read sensitivity configuration"),
    (.cmd .writeRegister, "write sensitivity configuration"),
    (.cmd .writeRegister, "over-current protection"),
    (.cmd .setTxParams, "SetTxParams"),
    (.cmd .setModulationParams, "SetModulationParams"),
    (.cmd .setPacketParams, "SetPacketParams"),
    (.cmd .writeRegister, "sync word"),
    (.cmd .writeRegister, "RX gain"),
    (.cmd .setBufferBaseAddress, "SetBufferBaseAddress"),
    (.cmd .setRxTxFallbackMode, "SetRxTxFallbackMode"),
    (.cmd .setDioIrqParams, "SetDioIrqParams"),
    (.cmd .getDeviceErrors, "GetDeviceErrors")]

def configure (d : Sx1262) : Except String Unit × Sx1262 :=
  match d.attempt (configureCalls d.params) with
  | (.error what, d) => (.error ("SX1262 configuration failed at " ++ what), d)
  | (.ok (), d) => (.ok (), { d with programmed := some d.params })

/-- The calls of `set_rx_mode`. -/
def rxModeCalls (what : String) : List (Action × String) :=
  [(.line .txen false, what), (.line .rxen true, what), (.cmd .clearIrqStatus, what),
    (.cmd .setRx, what)]

def setRxMode (d : Sx1262) : Except String Unit × Sx1262 := d.attempt (rxModeCalls "")

/-! ## Down -/

def deliverTxDone (airtimeMs : UInt32) (d : Sx1262) : Sx1262 :=
  d.record (.txDone { time := d.time, airtimeMs })

/-- Mark the radio down and release whatever was waiting on a transmission. -/
def goDown (d : Sx1262) : Sx1262 :=
  let d := { d with initialFailureReported := true, healthy := false, retunePending := false }
  let d := (d.perform (.line .txen false)).2
  let d := (d.perform (.line .rxen false)).2
  if d.txBusy then deliverTxDone 0 { d with txBusy := false, txTimeout := none } else d

/-- An I/O failure; what the driver was doing is only logged. -/
def fail (_what : String) (d : Sx1262) : Sx1262 := d.goDown

/-- Reprogram a running chip with the parameters in force. -/
def retune (d : Sx1262) : Sx1262 :=
  match { d with retunePending := false }.configure with
  | (.error _, d) => d.goDown
  | (.ok (), d) =>
      match d.setRxMode with
      | (.error _, d) => d.fail "returning to RX after retuning"
      | (.ok (), d) => d

/-- Back to receiving once a transmission is over. -/
def afterTx (what : String) (d : Sx1262) : Sx1262 :=
  if d.retunePending then d.retune
  else
    match d.setRxMode with
    | (.error _, d) => d.fail what
    | (.ok (), d) => d

/-! ## Bring-up and recovery -/

/-- The loop of `reset_chip` that repeats SetStandby until the chip takes it.
Each turn uses one reply, so it runs down the script. -/
def awaitStandby (deadline : UInt32) (d : Sx1262) : List Reply → Except String Unit × Sx1262
  | [] => (.ok (), { d with script := [] }.record (.command .setStandby))
  | r :: script =>
      let d := { d with script, time := d.time + r.ms }
      if r.accepted then (.ok (), d.record (.command .setStandby))
      else if 0 ≤ signed (d.millis - deadline) then
        (.error "SX1262 did not accept standby after reset — check the wiring", d)
      else awaitStandby deadline { d with time := d.time + 10 } script

/-- Drive the reset line, which `begin` acquired. -/
def setReset (d : Sx1262) : Bool × Sx1262 :=
  let (r, d) := d.io
  (r.transferred, d)

def resetChip (d : Sx1262) : Except String Unit × Sx1262 :=
  if !d.resetLine then (.error "no reset line configured", d)
  else
    match d.setReset with
    | (false, d) => (.error "could not assert the SX1262 reset line", d)
    | (true, d) =>
        match { d with time := d.time + 2 }.setReset with
        | (false, d) => (.error "could not release the SX1262 reset line", d)
        | (true, d) =>
            match { d with time := d.time + 20 }.perform .waitBusy with
            | (false, d) =>
                (.error "SX1262 did not release BUSY after reset — check the wiring", d)
            | (true, d) => awaitStandby (d.millis + 1000) d d.script

/-- Read the part number back: the five bytes of "SX126". -/
def chipResponding (d : Sx1262) : Bool × Sx1262 :=
  match d.read .readRegister 6 with
  | (none, d) => (false, d)
  | (some version, d) => (version.take 5 == [0x53, 0x58, 0x31, 0x32, 0x36], d)

/-- What `bring_up` and the end of a recovery have in common. -/
def startChip (d : Sx1262) : Except String Unit × Sx1262 :=
  match d.chipResponding with
  | (false, d) => (.error "SX1262 is not answering — the LoRa power rail is most likely off", d)
  | (true, d) =>
      match d.configure with
      | (.error what, d) => (.error what, d)
      | (.ok (), d) =>
          match d.setRxMode with
          | (.error _, d) => (.error "could not put the radio into receive mode", d)
          | (.ok (), d) => (.ok (), d)

def bringUp (d : Sx1262) : Except String Unit × Sx1262 :=
  match d.resetChip with
  | (.error what, d) => (.error what, d)
  | (.ok (), d) =>
      match d.startChip with
      | (.error what, d) => (.error what, d)
      | (.ok (), d) => (.ok (), { d with healthy := true })

def recoveryFailed (_error : String) (d : Sx1262) : Sx1262 :=
  let d := { d with recovering := false, recoveryTimer := none }
  let d := (d.perform (.line .txen false)).2
  let d := (d.perform (.line .rxen false)).2
  { d with initialFailureReported := true }

/-- Arm the one recovery timer. -/
def armRecovery (next : RecoveryStep) (delayMs : UInt32) (d : Sx1262) : Sx1262 :=
  { d with recoveryTimer := some (next, d.millis + delayMs) }

def startRecovery (d : Sx1262) : Sx1262 :=
  if !d.begun || d.healthy || d.recovering || !d.params.hasFrequency then d
  else
    let d := { d with recovering := true }
    if !d.resetLine then d.recoveryFailed "no reset line configured"
    else
      match d.setReset with
      | (false, d) => d.recoveryFailed "could not assert the SX1262 reset line"
      | (true, d) => d.armRecovery .releaseReset 2

def releaseReset (d : Sx1262) : Sx1262 :=
  if !d.recovering then d
  else
    match d.setReset with
    | (false, d) => d.recoveryFailed "could not release the SX1262 reset line"
    | (true, d) =>
        { d with recoveryDeadlineMs := d.millis + 1000 }.armRecovery .pollResetBusy 20

/-- The BUSY line: `none` when it cannot be read, else its level. -/
def busyLevel (d : Sx1262) : Option Bool × Sx1262 :=
  if !d.busyLine then (some false, d)
  else
    let (r, d) := d.io
    if r.transferred then (some !r.waited, d) else (none, d)

/-- Try again in 10 ms, unless the deadline has passed. -/
def pollAgain (error : String) (d : Sx1262) : Sx1262 :=
  if 0 ≤ signed (d.millis - d.recoveryDeadlineMs) then d.recoveryFailed error
  else d.armRecovery .pollResetBusy 10

def pollResetBusy (d : Sx1262) : Sx1262 :=
  if !d.recovering then d
  else
    match d.busyLevel with
    | (none, d) => d.recoveryFailed "could not read the SX1262 BUSY line"
    | (some true, d) =>
        d.pollAgain "SX1262 did not release BUSY after reset — check the wiring"
    | (some false, d) =>
        match d.perform (.cmd .setStandby) with
        | (false, d) =>
            d.pollAgain "SX1262 did not accept standby after reset — check the wiring"
        | (true, d) =>
            match d.startChip with
            | (.error what, d) => d.recoveryFailed what
            | (.ok (), d) => { d with healthy := true, recovering := false, everHealthy := true }

def supervise (d : Sx1262) : Sx1262 :=
  if d.recovering then d
  else if d.healthy then
    if d.txBusy then d
    else
      match d.chipResponding with
      | (true, d) => d
      | (false, d) => d.goDown
  else d.startRecovery

/-! ## Beginning -/

/-- One request of `begin` to the kernel: opening a device, taking a line. -/
def acquire (d : Sx1262) : Except String Unit × Sx1262 :=
  let (r, d) := d.io
  if r.transferred then (.ok (), d) else (.error r.error, d)

/-- A line that is only asked for where it is wired. -/
def acquireSwitch (d : Sx1262) (line : Line) : Except String Unit × Sx1262 :=
  match line with
  | .rxen =>
      if d.pins.rxen < 0 then (.ok (), d)
      else
        match d.acquire with
        | (.error what, d) => (.error what, d)
        | (.ok (), d) => (.ok (), { d with rxenLine := true })
  | .txen =>
      if d.pins.txen < 0 then (.ok (), d)
      else
        match d.acquire with
        | (.error what, d) => (.error what, d)
        | (.ok (), d) => (.ok (), { d with txenLine := true })

/-- The reset, BUSY and interrupt lines and those that switch the antenna. -/
def acquireLines (d : Sx1262) : Except String Unit × Sx1262 :=
  match d.acquire with
  | (.error what, d) => (.error what, d)
  | (.ok (), d) =>
    match { d with resetLine := true }.acquire with
    | (.error what, d) => (.error what, d)
    | (.ok (), d) =>
      match { d with busyLine := true }.acquire with
      | (.error what, d) => (.error what, d)
      | (.ok (), d) =>
        match d.acquireSwitch .rxen with
        | (.error what, d) => (.error what, d)
        | (.ok (), d) => d.acquireSwitch .txen

/-- The SPI device and the GPIO chip, then the lines. -/
def openDevices (d : Sx1262) : Except String Unit × Sx1262 :=
  match d.acquire with
  | (.error what, d) => (.error what, d)
  | (.ok (), d) =>
    match d.acquire with
    | (.error what, d) => (.error what, d)
    | (.ok (), d) =>
      if d.pins.reset < 0 ∨ d.pins.busy < 0 ∨ d.pins.irq < 0 then
        (.error "lora_reset_pin, lora_busy_pin and lora_irq_pin are all required", d)
      else d.acquireLines

/-- `begin`. Without a frequency, or with retries, it succeeds over a chip that
is not there. -/
def start (d : Sx1262) : Except String Unit × Sx1262 :=
  match { d with begun := true }.openDevices with
  | (.error what, d) => (.error what, d)
  | (.ok (), d) =>
      let d := { d with watching := true }
      if d.retryIntervalMs = 0 then
        if !d.params.hasFrequency then (.ok (), d)
        else
          match d.bringUp with
          | (.error what, d) => (.error what, d)
          | (.ok (), d) => (.ok (), { d with everHealthy := true })
      else (.ok (), { d with supervised := true }.startRecovery)

/-! ## Transmit and receive -/

/-- The calls of `send` up to SetTx. -/
def txCalls : List (Action × String) :=
  [(.cmd .setStandby, "entering standby"),
    (.cmd .setPacketParams, "setting TX packet parameters"),
    (.cmd .setBufferBaseAddress, "setting the TX buffer address"),
    (.cmd .writeBuffer, "writing the TX buffer"),
    (.cmd .clearIrqStatus, "clearing IRQ status before TX"),
    (.line .rxen false, "disabling the RX path"),
    (.line .txen true, "enabling the TX path")]

/-- The end of `send`, once SetTx was accepted. -/
def beginTx (size : Nat) (d : Sx1262) : Sx1262 :=
  let expected := d.params.airtimeMs size
  { d with
    txBusy := true
    txStartedMs := d.millis
    txTimeout := some (d.millis + (expected + 2000)) }.record
      (.sent { time := d.time, size, airtimeMs := expected })

def send (size : Nat) (d : Sx1262) : Bool × Sx1262 :=
  if !d.healthy || d.txBusy then (false, d)
  else if size = 0 ∨ 255 < size then (false, d)
  else
    match d.attempt txCalls with
    | (.error what, d) => (false, d.fail what)
    | (.ok (), d) =>
        match d.perform (.cmd .setTx) with
        | (false, d) => (false, (d.perform (.line .txen false)).2.fail "starting TX")
        | (true, d) => (true, d.beginTx size)

/-- A timer is due when the loop's signed comparison says so. -/
def due (d : Sx1262) (dueMs : UInt32) : Bool := decide (signed (dueMs - d.millis) ≤ 0)

/-- The TX timeout coming due: a one-shot, so it is no longer armed. -/
def onTxTimeout (d : Sx1262) : Sx1262 :=
  match d.txTimeout with
  | none => d
  | some dueMs =>
      if !d.due dueMs then d
      else
        let d := { d with txTimeout := none }
        if !d.txBusy then d
        else
          ({ d with txBusy := false }.afterTx "returning to RX after a TX timeout").deliverTxDone 0

def handleTxDone (d : Sx1262) : Sx1262 :=
  if !d.txBusy then d
  else
    let d := { d with txBusy := false, txTimeout := none }
    let d := (d.perform (.line .txen false)).2
    let airtime := d.millis - d.txStartedMs
    (d.afterTx "returning to RX after TX").deliverTxDone airtime

/-- The signal of a packet, from its status bytes. -/
def signalOf (status : List UInt8) : Int × ℚ :=
  (Int.tdiv (-(status.getD 0 0).toNat) 2, ((status.getD 1 0).toInt8.toInt : ℚ) / 4)

/-- The commands of `handle_rx_done`: the packet, none where it is empty, or
what failed. -/
def readPacket (d : Sx1262) : Except String (Option (List UInt8 × Int × ℚ)) × Sx1262 :=
  match d.read .getRxBufferStatus 2 with
  | (none, d) => (.error "reading RX buffer status", d)
  | (some bufStatus, d) =>
      if bufStatus.getD 0 0 = 0 then
        match d.setRxMode with
        | (.error _, d) => (.error "returning to RX after an empty packet", d)
        | (.ok (), d) => (.ok none, d)
      else
        match d.read .readBuffer (bufStatus.getD 0 0).toNat with
        | (none, d) => (.error "reading RX buffer", d)
        | (some data, d) =>
            match d.read .getPacketStatus 3 with
            | (none, d) => (.error "reading packet status", d)
            | (some pktStatus, d) =>
                match d.setRxMode with
                | (.error _, d) => (.error "returning to RX after a packet", d)
                | (.ok (), d) => (.ok (some (data, signalOf pktStatus)), d)

def handleRxDone (d : Sx1262) : Sx1262 :=
  match d.readPacket with
  | (.error what, d) => d.fail what
  | (.ok none, d) => d
  | (.ok (some (data, rssi, snr)), d) =>
      d.record (.rx { data, rssi, snr, rxMillis := d.millis })

def kIrqTxDone : UInt16 := 0x0001
def kIrqRxDone : UInt16 := 0x0002
def kIrqPreambleDetected : UInt16 := 0x0004
def kIrqHeaderValid : UInt16 := 0x0010
def kIrqHeaderErr : UInt16 := 0x0020
def kIrqCrcErr : UInt16 := 0x0040
def kIrqTimeout : UInt16 := 0x0200

/-- Some flag of the mask is up. -/
def has (irq mask : UInt16) : Bool := irq &&& mask != 0

/-- The two status bytes as a word, high byte first. -/
def irqWord (status : List UInt8) : UInt16 :=
  ((status.getD 0 0).toUInt16 <<< 8) ||| (status.getD 1 0).toUInt16

/-- The head of `on_irq`: read the flags and clear those that were up. -/
def takeIrq (d : Sx1262) : Except String UInt16 × Sx1262 :=
  match d.read .getIrqStatus 2 with
  | (none, d) => (.error "reading IRQ status", d)
  | (some status, d) =>
      let irq := irqWord status
      if irq = 0 then (.ok 0, d)
      else
        match d.perform (.cmd .clearIrqStatus) with
        | (false, d) => (.error "clearing IRQ status", d)
        | (true, d) => (.ok irq, d)

/-- A failed reception, with its packet status where one was read. Nothing
arrived before a timeout, so none is read then. -/
def failedReception (irq : UInt16) (d : Sx1262) : RxFailure × Sx1262 :=
  let error : RxError :=
    if has irq kIrqCrcErr then .crcError
    else if has irq kIrqHeaderErr then .headerError
    else .timeout
  if error = .timeout then ({ error, signal := none }, d)
  else
    match d.read .getPacketStatus 3 with
    | (none, d) => ({ error, signal := none }, d)
    | (some status, d) => ({ error, signal := some (signalOf status) }, d)

/-- The tail of `on_irq`, for the receiver's flags. -/
def handleReception (irq : UInt16) (d : Sx1262) : Sx1262 :=
  if has irq (kIrqCrcErr ||| kIrqHeaderErr ||| kIrqTimeout) then
    let (failure, d) := d.failedReception irq
    match (d.record (.rxError failure)).setRxMode with
    | (.error _, d) => d.fail "returning to RX after a failed reception"
    | (.ok (), d) => d
  else if has irq kIrqRxDone then d.handleRxDone
  else d

def handleIrq (irq : UInt16) (d : Sx1262) : Sx1262 :=
  if has irq kIrqTxDone then
    let d := d.handleTxDone
    if !d.healthy then d else d.handleReception irq
  else d.handleReception irq

/-- An edge on the interrupt line; `drained` is whether its events could be
taken off the line. -/
def onIrq (drained : Bool) (d : Sx1262) : Sx1262 :=
  if !drained || !d.healthy then d
  else
    match d.takeIrq with
    | (.error what, d) => d.fail what
    | (.ok irq, d) => if irq = 0 then d else d.handleIrq irq

def channelBusy (d : Sx1262) : Bool × Sx1262 :=
  if !d.healthy || d.txBusy then (false, d)
  else
    match d.read .getIrqStatus 2 with
    | (none, d) => (false, d)
    | (some status, d) =>
        let irq := irqWord status
        if !has irq (kIrqPreambleDetected ||| kIrqHeaderValid) then
          (false, { d with rxSinceMs := 0 })
        else
          let now := d.millis
          let d := if d.rxSinceMs = 0 then { d with rxSinceMs := now } else d
          let deadline :=
            if has irq kIrqHeaderValid then d.params.airtimeMs 255
            else d.params.symbolsMs (d.params.preambleSymbols + 16)
          if deadline < now - d.rxSinceMs then
            (false, { (d.perform (.cmd .clearIrqStatus)).2 with rxSinceMs := 0 })
          else (true, d)

/-- New parameters. A change of the duty cycle alone is no reason to retune, and
a packet on the air is not cut short. -/
def reconfigure (params : RadioParams) (d : Sx1262) : Sx1262 :=
  let before := d.params
  let d := { d with params }
  if before.SameOnChip params ∨ d.begun = false then d
  else if d.healthy then
    if d.txBusy then { d with retunePending := true } else d.retune
  else if before.hasFrequency then d
  else if 0 < d.retryIntervalMs then d.startRecovery
  else
    match d.bringUp with
    | (.error _, d) => d
    | (.ok (), d) => { d with everHealthy := true }

/-! ## Runs -/

/-- What calls into the driver. An edge that is lost is an event that does not
come; the supervisor's beat is left open. -/
inductive Event where
  | tick (ms : Nat)
  | start
  | send (size : Nat)
  | irq (drained : Bool)
  | txTimeout
  | recovery
  | supervise
  | channelBusy
  | reconfigure (params : RadioParams)

/-- The recovery timer coming due. -/
def onRecoveryTimer (d : Sx1262) : Sx1262 :=
  match d.recoveryTimer with
  | none => d
  | some (next, dueMs) =>
      if !d.due dueMs then d
      else
        let d := { d with recoveryTimer := none }
        match next with
        | .releaseReset => d.releaseReset
        | .pollResetBusy => d.pollResetBusy

def handle (d : Sx1262) : Event → Sx1262
  | .tick ms => { d with time := d.time + ms }
  | .start => if d.begun then d else d.start.2
  | .send size => (d.send size).2
  | .irq drained => if d.watching then d.onIrq drained else d
  | .txTimeout => d.onTxTimeout
  | .recovery => d.onRecoveryTimer
  | .supervise => if d.supervised then d.supervise else d
  | .channelBusy => d.channelBusy.2
  | .reconfigure params => d.reconfigure params

/-- One call together with the replies the hardware gives during it. -/
def step (d : Sx1262) (call : Event × List Reply) : Sx1262 :=
  { d with script := call.2 }.handle call.1

/-- A driver as constructed. -/
def new (params : RadioParams) (pins : Pins) (retryIntervalMs : UInt32) (time : Nat) : Sx1262 :=
  { params, pins, retryIntervalMs, time }

end Sx1262

end Coreletd.Radio
