/-
# The dispatcher

The priority transmit queue, its pump, and deduplication. The radio is outside:
one call of the pump meets one set of answers from it. Result handlers are
values of a type `H` and act on a client state of their own, at the moment the
code calls them; that they cannot reach the dispatcher is how the handlers of
this code base behave.

A queued packet keeps the true time it was queued at and its delay, from which
the two 32-bit deadlines of the source follow. The trace is not in the source:
it lists what the dispatcher did, newest first, so that results about whole runs
can be stated.
-/

import Coreletd.Library.Runs
import Coreletd.Library.UpperBound
import Coreletd.Proto.Packet
import Coreletd.Radio.DutyCycle

namespace Coreletd.Mesh

open Coreletd.Crypto
open Coreletd.Library
open Coreletd.Library.SerialClock
open Coreletd.Proto
open Coreletd.Radio

universe u v

def kPriorityAck : UInt8 := 1
def kPriorityResponse : UInt8 := 2
def kPriorityDirect : UInt8 := 3
def kPriorityFlood : UInt8 := 4
def kPriorityRepeat : UInt8 := 5
def kPriorityAdvert : UInt8 := 6

def kSeenTtlMs : UInt32 := 60000
def kExpiryPerPriorityMs : UInt32 := 10000
def kJitterMs : UInt32 := 400
def kChannelBusyRetryMs : UInt32 := 60
def kChannelBusyJitterMs : UInt32 := 60
def kChannelBusyMaxMs : UInt32 := 4000
def kRadioDownRecheckMs : UInt32 := 1000

/-- The four hash bytes as a 32-bit key, first byte lowest. -/
def packHash (h : Bytes) : UInt32 :=
  (h.take 4).foldr (fun byte acc => byte.toUInt32 ||| acc <<< 8) 0

/-- One packet waiting in the queue. -/
structure Queued (H : Type u) where
  packet : Packet
  priority : UInt8
  queuedAt : Nat
  delayMs : UInt32
  seq : Nat
  onResult : Option H

namespace Queued

variable {H : Type u}

/-- `expiry_ms`: the lifetime grows with the priority number. -/
def expiryMs (q : Queued H) : UInt32 :=
  reading q.queuedAt + kExpiryPerPriorityMs * q.priority.toUInt32

/-- `not_before_ms`. -/
def notBeforeMs (q : Queued H) : UInt32 := reading q.queuedAt + q.delayMs

/-- The pump's test for a lifetime that has run out. -/
def expired (now : UInt32) (q : Queued H) : Bool := signed (q.expiryMs - now) ≤ 0

/-- The pump's test for a backoff that is over. -/
def due (now : UInt32) (q : Queued H) : Bool := signed (q.notBeforeMs - now) ≤ 0

/-- The queue's order: priority, then expiry across the clock's wrap, then
sequence. -/
def before (a b : Queued H) : Bool :=
  if a.priority ≠ b.priority then a.priority < b.priority
  else if a.expiryMs ≠ b.expiryMs then signed (a.expiryMs - b.expiryMs) < 0
  else a.seq < b.seq

end Queued

inductive DropReason
  | evicted
  | expired
  | oversize
  deriving DecidableEq, Repr

/-- What the dispatcher does to packets. -/
inductive TxEvent (H : Type u)
  /-- `send` took the packet on. -/
  | queued (q : Queued H)
  /-- `Radio::send` was called with the packet, beside what stayed queued. -/
  | handed (q : Queued H) (time : Nat) (others : List (Queued H)) (accepted : Bool)
  | dropped (q : Queued H) (time : Nat) (reason : DropReason)
  /-- The packet's result handler was called. -/
  | called (seq : Nat) (handler : H) (transmitted : Bool)
  /-- The radio reported a transmission over. -/
  | txDone (time : Nat) (airtimeMs : UInt32)

/-- The radio's answers during one call of the pump, and the random byte it may
draw. -/
structure RadioView where
  txBusy : Bool := false
  ready : Bool := true
  hasFrequency : Bool := true
  channelBusy : Bool := false
  /-- What `Radio::send` returns. -/
  sendOk : Bool := true
  airtimeMs : Nat → UInt32
  random : UInt8 := 0

/-- A radio that is up and free, with one airtime for every packet. -/
def RadioView.idle (airtimeMs : UInt32) : RadioView := { airtimeMs := fun _ => airtimeMs }

/-- A radio that is down. -/
def RadioView.down : RadioView := { ready := false, airtimeMs := fun _ => 0 }

structure DispatcherStats where
  rxTotal : Nat := 0
  rxDup : Nat := 0
  rxBad : Nat := 0
  rxFlood : Nat := 0
  rxDirect : Nat := 0
  txDeferred : Nat := 0
  txForced : Nat := 0
  txTotal : Nat := 0
  txFlood : Nat := 0
  txDirect : Nat := 0
  txDropped : Nat := 0
  airtimeMs : Nat := 0

/-- The dispatcher over handlers `H` of a client with state `σ`. -/
structure Dispatcher (H : Type u) (σ : Type v) where
  time : Nat := 0
  duty : DutyCycle
  queue : List (Queued H) := []
  queueLimit : Nat
  nextSeq : Nat := 0
  /-- Whether `pump_timer_` holds a registration. -/
  pumpTimer : Bool := false
  pumpDueMs : UInt32 := 0
  busySinceMs : UInt32 := 0
  /-- Dedup key to expiry. -/
  seen : UInt32 → Option UInt32 := fun _ => none
  stats : DispatcherStats := {}
  client : σ
  trace : List (TxEvent H) := []
  /-- The airtime the packet on the air was let through for, until the radio
  reports it done. -/
  inFlight : Option UInt32 := none

namespace Dispatcher

variable {H : Type u} {σ : Type v}

/-- The constructor, which admits no empty queue limit. -/
def new (percent : ℚ) (queueLimit : Nat) (client : σ) (time : Nat := 0) : Dispatcher H σ :=
  { time, duty := { percent }, queueLimit := max queueLimit 1, client }

def nowMs (d : Dispatcher H σ) : UInt32 := reading d.time

/-- Seen recently; recorded either way. -/
def checkAndMarkSeen (lib : Library) (d : Dispatcher H σ) (p : Packet) :
    Bool × Dispatcher H σ :=
  let key := packHash (p.dedupHash lib)
  let known := match d.seen key with
    | some expiry => decide (0 < signed (expiry - d.nowMs))
    | none => false
  (known, { d with seen := fun other =>
      if other = key then some (d.nowMs + kSeenTtlMs) else d.seen other })

def expireSeen (d : Dispatcher H σ) : Dispatcher H σ :=
  { d with seen := fun key =>
      match d.seen key with
      | some expiry => if signed (expiry - d.nowMs) ≤ 0 then none else some expiry
      | none => none }

/-- Arm the pump's timer, keeping one that wakes no later. -/
def schedulePump (d : Dispatcher H σ) (delayMs : UInt32) : Dispatcher H σ :=
  let due := d.nowMs + delayMs
  if d.pumpTimer && decide (0 ≤ signed (due - d.pumpDueMs)) then d
  else { d with pumpDueMs := due, pumpTimer := true }

/-- What a handler does to its client. -/
abbrev Handler (H : Type u) (σ : Type v) : Type (max u v) := Nat → σ → H → Bool → σ

section Transmit

variable (call : Handler H σ)

/-- Call a packet's result handler, if it has one. -/
def notify (d : Dispatcher H σ) (q : Queued H) (transmitted : Bool) : Dispatcher H σ :=
  match q.onResult with
  | none => d
  | some handler =>
      { d with
        client := call d.time d.client handler transmitted
        trace := .called q.seq handler transmitted :: d.trace }

/-- Count a packet as dropped, having taken it off the queue, and tell its
handler. -/
def discard (d : Dispatcher H σ) (q : Queued H) (reason : DropReason) : Dispatcher H σ :=
  notify call
    { d with
      stats := { d.stats with txDropped := d.stats.txDropped + 1 }
      trace := .dropped q d.time reason :: d.trace } q false

/-- The pump's first loop: drop what expired, as long as it is at the front. -/
def dropExpired (now : UInt32) : List (Queued H) → Dispatcher H σ → Dispatcher H σ
  | [], d => { d with queue := [] }
  | q :: rest, d =>
      if q.expired now then dropExpired now rest (discard call { d with queue := rest } q .expired)
      else { d with queue := q :: rest }

/-- How long until the first backoff is over. -/
def backoffMs (now : UInt32) (queue : List (Queued H)) : UInt32 :=
  let waits := queue.map fun q => signed (q.notBeforeMs - now)
  let soonest := waits.foldl min (waits.headD 0)
  if 0 < soonest then UInt32.ofNat soonest.toNat else 1

/-- The channel is taken: note since when, and hold off unless that was too long
ago. -/
def listen (radio : RadioView) (d : Dispatcher H σ) : Bool × Dispatcher H σ :=
  if radio.channelBusy then
    let d := if d.busySinceMs = 0 then { d with busySinceMs := d.nowMs } else d
    if d.nowMs - d.busySinceMs < kChannelBusyMaxMs then
      (false, schedulePump
        { d with stats := { d.stats with txDeferred := d.stats.txDeferred + 1 } }
        (kChannelBusyRetryMs + radio.random.toUInt32 % kChannelBusyJitterMs))
    else (true, { d with stats := { d.stats with txForced := d.stats.txForced + 1 } })
  else (true, d)

/-- Hand the selected packet, already off the queue, to the radio. A refused
packet goes to the front of the queue. -/
def transmit (radio : RadioView) (d : Dispatcher H σ) (q : Queued H) : Dispatcher H σ :=
  let d := { d with trace := .handed q d.time d.queue radio.sendOk :: d.trace }
  if !radio.sendOk then schedulePump { d with queue := q :: d.queue } 20
  else
    notify call
      { d with
        stats := { d.stats with
          txTotal := d.stats.txTotal + 1
          txFlood := d.stats.txFlood + if q.packet.isFlood then 1 else 0
          txDirect := d.stats.txDirect + if q.packet.isFlood then 0 else 1 }
        inFlight := some (radio.airtimeMs q.packet.encode.length) } q true

/-- The pump behind its first loop: hold, back off, wait for budget, listen, and
transmit. `again` is the call it makes of itself behind an oversized packet. -/
def pumpSelected (again : Dispatcher H σ → Dispatcher H σ) (radio : RadioView)
    (d : Dispatcher H σ) : Dispatcher H σ :=
  if d.queue = [] then d
  else if !radio.ready || !radio.hasFrequency then d.schedulePump kRadioDownRecheckMs
  else
    match d.queue.dropWhile (fun q => !q.due d.nowMs) with
    | [] => d.schedulePump (backoffMs d.nowMs d.queue)
    | q :: behind =>
        let ahead := d.queue.takeWhile fun q => !q.due d.nowMs
        let size := q.packet.encode.length
        let (wait, duty) := d.duty.waitMs d.time (radio.airtimeMs size)
        let d := { d with duty }
        if 0 < wait then d.schedulePump (min wait 30000)
        else
          let (clear, d) := d.listen radio
          if !clear then d
          else
            let d := { d with busySinceMs := 0, queue := ahead ++ behind }
            if kMaxPacketSize < size then again (discard call d q .oversize)
            else transmit call radio d q

/-- `pump`, with a bound on how often it calls itself. Each call takes a packet
off the queue. -/
def pumpWithin (radio : RadioView) : Nat → Dispatcher H σ → Dispatcher H σ
  | 0, d => d
  | fuel + 1, d =>
      if d.queue = [] then d
      else if radio.txBusy then d
      else pumpSelected call (pumpWithin radio fuel) radio (dropExpired call d.nowMs d.queue d)

def pump (radio : RadioView) (d : Dispatcher H σ) : Dispatcher H σ :=
  pumpWithin call radio (d.queue.length + 1) d

/-- The packet a full queue gives up: the oldest of the least urgent. -/
def victim : Queued H → List (Queued H) → Queued H
  | chosen, [] => chosen
  | chosen, q :: rest =>
      if chosen.priority < q.priority ∨ (q.priority = chosen.priority ∧ q.seq < chosen.seq) then
        victim q rest
      else victim chosen rest

/-- Insert a packet in order, and drop one if that is one too many. -/
def enqueue (d : Dispatcher H σ) (q : Queued H) : Dispatcher H σ :=
  let queue := insertAtUpperBound q.before q d.queue
  let d := { d with queue, nextSeq := d.nextSeq + 1, trace := .queued q :: d.trace }
  if d.queueLimit < queue.length then
    match queue with
    | [] => d
    | first :: rest =>
        let chosen := victim first rest
        discard call { d with queue := queue.eraseP (·.seq = chosen.seq) } chosen .evicted
  else d

/-- The entry `send` makes of a packet. -/
def entry (d : Dispatcher H σ) (p : Packet) (priority : UInt8) (delayMs : UInt32)
    (onResult : Option H) : Queued H :=
  { packet := p, priority, queuedAt := d.time, delayMs, seq := d.nextSeq, onResult }

def send (lib : Library) (radio : RadioView) (d : Dispatcher H σ) (p : Packet) (priority : UInt8)
    (delayMs : UInt32) (onResult : Option H) : Bool × Dispatcher H σ :=
  if !p.valid then
    (false, { d with stats := { d.stats with txDropped := d.stats.txDropped + 1 } })
  else
    let d := (d.checkAndMarkSeen lib p).2
    (true, pump call radio (enqueue call d (d.entry p priority delayMs onResult)))

/-- The pump's timer fires. -/
def onPumpTimer (radio : RadioView) (d : Dispatcher H σ) : Dispatcher H σ :=
  if d.pumpTimer then pump call radio { d with pumpTimer := false, pumpDueMs := 0 } else d

/-- New parameters from the app; all of them but the budget go to the radio. -/
def reconfigure (radio : RadioView) (percent : ℚ) (d : Dispatcher H σ) : Dispatcher H σ :=
  pump call radio { d with duty := { d.duty with percent } }

end Transmit

/-- A transmission is over: charge it, and pump after a short random pause. -/
def onRadioTxDone (d : Dispatcher H σ) (airtimeMs : UInt32) (random : UInt8) : Dispatcher H σ :=
  schedulePump
    { d with
      stats := { d.stats with airtimeMs := d.stats.airtimeMs + airtimeMs.toNat }
      duty := d.duty.record d.time airtimeMs
      inFlight := none
      trace := .txDone d.time airtimeMs :: d.trace }
    (1 + random.toUInt32 * kJitterMs / 255)

/-- A reception: count it, and hand up what decodes and is new. -/
def onRadioRx (lib : Library) (d : Dispatcher H σ) (raw : Bytes) (rssi snrQ4 : Int) :
    Option Packet × Dispatcher H σ :=
  let d := { d with stats := { d.stats with rxTotal := d.stats.rxTotal + 1 } }
  match Packet.decode raw with
  | none => (none, { d with stats := { d.stats with rxBad := d.stats.rxBad + 1 } })
  | some p =>
      let p := { p with rssi, snrQ4 }
      let d := { d with stats := { d.stats with
        rxFlood := d.stats.rxFlood + if p.isFlood then 1 else 0
        rxDirect := d.stats.rxDirect + if p.isFlood then 0 else 1 } }
      let (known, d) := d.checkAndMarkSeen lib p
      if known then (none, { d with stats := { d.stats with rxDup := d.stats.rxDup + 1 } })
      else (some p, d)

/-- What can happen to a dispatcher. -/
inductive Event (H : Type u)
  | tick (ms : Nat)
  | send (packet : Packet) (priority : UInt8) (delayMs : UInt32) (onResult : Option H)
      (radio : RadioView)
  | pumpTimer (radio : RadioView)
  | txDone (airtimeMs : UInt32) (random : UInt8)
  | reconfigure (percent : ℚ) (radio : RadioView)
  | rx (raw : Bytes) (rssi snrQ4 : Int)
  | sweep

def step (lib : Library) (call : Handler H σ) (d : Dispatcher H σ) : Event H → Dispatcher H σ
  | .tick ms => { d with time := d.time + ms }
  | .send p priority delayMs onResult radio => (d.send call lib radio p priority delayMs onResult).2
  | .pumpTimer radio => d.onPumpTimer call radio
  | .txDone airtimeMs random => d.onRadioTxDone airtimeMs random
  | .reconfigure percent radio => d.reconfigure call radio percent
  | .rx raw rssi snrQ4 => (d.onRadioRx lib raw rssi snrQ4).2
  | .sweep => d.expireSeen

end Dispatcher

end Coreletd.Mesh
