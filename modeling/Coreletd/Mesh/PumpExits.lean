/-
# The exits of the pump

Every way out of the pump, with the state it leaves behind. On packets that fit
the wire, and `send` admits no others, the pump does not call itself, so these are
all there are.
-/

import Coreletd.Mesh.PumpEntry

namespace Coreletd.Mesh.Dispatcher

open Coreletd.Crypto
open Coreletd.Library
open Coreletd.Library.SerialClock
open Coreletd.Proto

universe u v

variable {H : Type u} {σ : Type v} {call : Handler H σ} {radio : RadioView} {d : Dispatcher H σ}

/-- The state behind the pump's first loop. -/
def afterExpiry (call : Handler H σ) (d : Dispatcher H σ) : Dispatcher H σ :=
  dropExpired call d.nowMs d.queue d

/-- Since when the channel has been busy, if it is now. -/
def deferredSince (d : Dispatcher H σ) : UInt32 :=
  if d.busySinceMs = 0 then d.nowMs else d.busySinceMs

/-- The budget for a packet, as the pump asks for it. -/
def budget (radio : RadioView) (d : Dispatcher H σ) (q : Queued H) : UInt32 × Radio.DutyCycle :=
  d.duty.waitMs d.time (radio.airtimeMs q.packet.encode.length)

/-- Asking for the budget forgets what has left the window. -/
def budgeted (radio : RadioView) (d : Dispatcher H σ) (q : Queued H) : Dispatcher H σ :=
  { d with duty := (d.budget radio q).2 }

/-- How the pump may end, and with what. -/
inductive Exit (call : Handler H σ) (radio : RadioView) (d : Dispatcher H σ) :
    Dispatcher H σ → Prop
  | idle (hempty : d.queue = []) : Exit call radio d d
  | transmitting (hqueue : d.queue ≠ []) (hbusy : radio.txBusy = true) : Exit call radio d d
  | expired (hqueue : d.queue ≠ []) (hidle : radio.txBusy = false)
      (hempty : (d.afterExpiry call).queue = []) : Exit call radio d (d.afterExpiry call)
  | down (hqueue : d.queue ≠ []) (hidle : radio.txBusy = false)
      (hleft : (d.afterExpiry call).queue ≠ [])
      (hdown : radio.ready = false ∨ radio.hasFrequency = false) :
      Exit call radio d ((d.afterExpiry call).schedulePump kRadioDownRecheckMs)
  | backoff (hqueue : d.queue ≠ []) (hidle : radio.txBusy = false)
      (hleft : (d.afterExpiry call).queue ≠ [])
      (hwaiting : ∀ q ∈ (d.afterExpiry call).queue, q.due d.nowMs = false) :
      Exit call radio d
        ((d.afterExpiry call).schedulePump (backoffMs d.nowMs (d.afterExpiry call).queue))
  | held (hqueue : d.queue ≠ []) (hidle : radio.txBusy = false) (q : Queued H)
      (hfirst : (d.afterExpiry call).queue.find? (·.due d.nowMs) = some q)
      (hwait : 0 < ((d.afterExpiry call).budget radio q).1) :
      Exit call radio d
        (((d.afterExpiry call).budgeted radio q).schedulePump
          (min ((d.afterExpiry call).budget radio q).1 30000))
  | deferred (hqueue : d.queue ≠ []) (hidle : radio.txBusy = false)
      {ahead : List (Queued H)} {q : Queued H} {behind : List (Queued H)}
      (hselected : Selected radio (d.afterExpiry call) ahead q behind)
      (hbusy : radio.channelBusy = true) (hrecent : d.nowMs - d.deferredSince < kChannelBusyMaxMs) :
      Exit call radio d
        ({ (d.afterExpiry call).budgeted radio q with
          busySinceMs := d.deferredSince
          stats := { ((d.afterExpiry call).budgeted radio q).stats with
            txDeferred := ((d.afterExpiry call).budgeted radio q).stats.txDeferred + 1 } }.schedulePump
          (kChannelBusyRetryMs + radio.random.toUInt32 % kChannelBusyJitterMs))
  | handed (hqueue : d.queue ≠ []) (hidle : radio.txBusy = false)
      {ahead : List (Queued H)} {q : Queued H} {behind : List (Queued H)}
      (hselected : Selected radio (d.afterExpiry call) ahead q behind)
      (hforced : radio.channelBusy = true → kChannelBusyMaxMs ≤ d.nowMs - d.deferredSince)
      (stats : DispatcherStats) (htotal : stats.txTotal = d.stats.txTotal) :
      Exit call radio d
        (transmit call radio
          { (d.afterExpiry call).budgeted radio q with
            busySinceMs := 0
            stats
            queue := ahead ++ behind } q)

/-! ## What the first loop leaves alone -/

/-- The same timer, if one is armed, and the same record of a busy channel, at the
same time. -/
structure SameTimers (d d' : Dispatcher H σ) : Prop where
  time : d'.time = d.time
  pumpTimer : d'.pumpTimer = d.pumpTimer
  pumpDueMs : d.pumpTimer = true → d'.pumpDueMs = d.pumpDueMs
  busySinceMs : d'.busySinceMs = d.busySinceMs
  txTotal : d'.stats.txTotal = d.stats.txTotal

namespace SameTimers

theorem refl (d : Dispatcher H σ) : SameTimers d d :=
  ⟨rfl, rfl, fun _ => rfl, rfl, rfl⟩

variable {d' : Dispatcher H σ}

theorem notify (hsame : SameTimers d d') (q : Queued H) (transmitted : Bool) :
    SameTimers d (notify call d' q transmitted) := by
  rw [Dispatcher.notify]
  split <;> exact ⟨hsame.time, hsame.pumpTimer, hsame.pumpDueMs, hsame.busySinceMs, hsame.txTotal⟩

theorem discard (hsame : SameTimers d d') (q : Queued H) (reason : DropReason) :
    SameTimers d (discard call d' q reason) := by
  rw [Dispatcher.discard]
  apply notify
  exact ⟨hsame.time, hsame.pumpTimer, hsame.pumpDueMs, hsame.busySinceMs, hsame.txTotal⟩

theorem dropExpired (hsame : SameTimers d d') (now : UInt32) (queue : List (Queued H)) :
    SameTimers d (dropExpired call now queue d') := by
  induction queue generalizing d' with
  | nil => exact ⟨hsame.time, hsame.pumpTimer, hsame.pumpDueMs, hsame.busySinceMs, hsame.txTotal⟩
  | cons q rest ih =>
      have hrest : SameTimers d { d' with queue := rest } :=
        ⟨hsame.time, hsame.pumpTimer, hsame.pumpDueMs, hsame.busySinceMs, hsame.txTotal⟩
      rw [Dispatcher.dropExpired]
      split
      · exact ih (hrest.discard q .expired)
      · exact ⟨hsame.time, hsame.pumpTimer, hsame.pumpDueMs, hsame.busySinceMs, hsame.txTotal⟩

end SameTimers

theorem sameTimers_afterExpiry (call : Handler H σ) (d : Dispatcher H σ) :
    SameTimers d (d.afterExpiry call) :=
  (SameTimers.refl d).dropExpired _ _

theorem sameTimers_enqueue (call : Handler H σ) (d : Dispatcher H σ) (q : Queued H) :
    SameTimers d (enqueue call d q) := by
  rw [enqueue]
  dsimp only
  split
  · split
    · exact ⟨rfl, rfl, fun _ => rfl, rfl, rfl⟩
    · apply SameTimers.discard
      exact ⟨rfl, rfl, fun _ => rfl, rfl, rfl⟩
  · exact ⟨rfl, rfl, fun _ => rfl, rfl, rfl⟩

theorem sameTimers_onRadioRx (lib : Library) (d : Dispatcher H σ) (raw : Bytes)
    (rssi snrQ4 : Int) : SameTimers d (d.onRadioRx lib raw rssi snrQ4).2 := by
  rw [onRadioRx]
  dsimp only
  split
  · exact ⟨rfl, rfl, fun _ => rfl, rfl, rfl⟩
  · split <;> split <;> exact ⟨rfl, rfl, fun _ => rfl, rfl, rfl⟩

/-- The timer as an event finds it: one that fires is armed no more. -/
def fired (d : Dispatcher H σ) : Event H → Dispatcher H σ
  | .pumpTimer _ => { d with pumpTimer := false }
  | _ => d

theorem sameTimers_entering {lib : Library} {d' : Dispatcher H σ} {event : Event H}
    (hentering : entering lib call d event = some (radio, d')) :
    SameTimers (d.fired event) d' ∧ event.radio? = some radio := by
  cases event with
  | send p priority delayMs onResult radio' =>
      rw [entering] at hentering
      split at hentering
      · obtain ⟨rfl, rfl⟩ := Prod.mk.inj (Option.some.inj hentering)
        have hsame := sameTimers_enqueue call (d.checkAndMarkSeen lib p).2
          ((d.checkAndMarkSeen lib p).2.entry p priority delayMs onResult)
        exact ⟨⟨hsame.time, hsame.pumpTimer, hsame.pumpDueMs, hsame.busySinceMs, hsame.txTotal⟩, rfl⟩
      · simp at hentering
  | pumpTimer radio' =>
      rw [entering] at hentering
      split at hentering
      · obtain ⟨rfl, rfl⟩ := Prod.mk.inj (Option.some.inj hentering)
        exact ⟨⟨rfl, rfl, fun h => absurd h Bool.false_ne_true, rfl, rfl⟩, rfl⟩
      · simp at hentering
  | reconfigure percent radio' =>
      obtain ⟨rfl, rfl⟩ := Prod.mk.inj (Option.some.inj hentering)
      exact ⟨⟨rfl, rfl, fun _ => rfl, rfl, rfl⟩, rfl⟩
  | tick ms => simp [entering] at hentering
  | txDone airtimeMs random => simp [entering] at hentering
  | rx raw rssi snrQ4 => simp [entering] at hentering
  | sweep => simp [entering] at hentering

theorem fired_frame (d : Dispatcher H σ) (event : Event H) :
    (d.fired event).time = d.time ∧ (d.fired event).busySinceMs = d.busySinceMs ∧
      (d.fired event).stats = d.stats := by
  cases event <;> exact ⟨rfl, rfl, rfl⟩

/-! ## All the exits -/

theorem listen_cases (radio : RadioView) (d : Dispatcher H σ) :
    (radio.channelBusy = true ∧ d.nowMs - d.deferredSince < kChannelBusyMaxMs ∧
      d.listen radio = (false,
        { d with
          busySinceMs := d.deferredSince
          stats := { d.stats with txDeferred := d.stats.txDeferred + 1 } }.schedulePump
          (kChannelBusyRetryMs + radio.random.toUInt32 % kChannelBusyJitterMs))) ∨
    ((radio.channelBusy = true → kChannelBusyMaxMs ≤ d.nowMs - d.deferredSince) ∧
      ∃ since stats, stats.txTotal = d.stats.txTotal ∧
        d.listen radio = (true, { d with busySinceMs := since, stats })) := by
  have hsince : (if d.busySinceMs = 0 then { d with busySinceMs := d.nowMs } else d) =
      { d with busySinceMs := d.deferredSince } := by
    rw [deferredSince]
    split <;> rfl
  rw [listen, hsince]
  cases hbusy : radio.channelBusy with
  | false =>
      exact .inr ⟨fun h => absurd h Bool.false_ne_true, d.busySinceMs, d.stats, rfl, rfl⟩
  | true =>
      by_cases hrecent : d.nowMs - d.deferredSince < kChannelBusyMaxMs
      · exact .inl ⟨rfl, hrecent, if_pos hrecent⟩
      · refine .inr ⟨fun _ => UInt32.not_lt.mp hrecent, d.deferredSince,
          { d.stats with txForced := d.stats.txForced + 1 }, rfl, ?_⟩
        exact if_neg hrecent

/-- The first packet whose backoff is over, and what is on either side of it. -/
theorem split_of_dropWhile {now : UInt32} {queue : List (Queued H)} {q : Queued H}
    {behind : List (Queued H)} (hselect : queue.dropWhile (fun q => !q.due now) = q :: behind) :
    queue = (queue.takeWhile fun q => !q.due now) ++ q :: behind ∧
      (∀ other ∈ queue.takeWhile fun q => !q.due now, other.due now = false) ∧
      q.due now = true := by
  refine ⟨?_, fun other hother => ?_, ?_⟩
  · rw [← hselect, List.takeWhile_append_dropWhile]
  · simpa using List.mem_takeWhile_imp hother
  · have hhead := List.head?_dropWhile_not (fun q => !q.due now) queue
    rw [hselect] at hhead
    simpa using hhead

theorem find?_of_split {now : UInt32} {ahead behind : List (Queued H)} {q : Queued H}
    (hwaiting : ∀ other ∈ ahead, other.due now = false) (hdue : q.due now = true) :
    (ahead ++ q :: behind).find? (·.due now) = some q := by
  rw [List.find?_eq_some_iff_append]
  exact ⟨hdue, ahead, behind, rfl, fun other hother => by simp [hwaiting other hother]⟩

/-- The pump once it has a packet to send, its answers taken apart. -/
theorem pumpSelected_of_due (again : Dispatcher H σ → Dispatcher H σ) {q : Queued H}
    {behind : List (Queued H)} (hleft : d.queue ≠ [])
    (hup : ¬ (!radio.ready || !radio.hasFrequency) = true)
    (hselect : d.queue.dropWhile (fun q => !q.due d.nowMs) = q :: behind) :
    pumpSelected call again radio d =
      if 0 < (d.budget radio q).1 then
        (d.budgeted radio q).schedulePump (min (d.budget radio q).1 30000)
      else
        let heard := (d.budgeted radio q).listen radio
        if !heard.1 then heard.2
        else
          let taken := { heard.2 with
            busySinceMs := 0
            queue := d.queue.takeWhile (fun q => !q.due d.nowMs) ++ behind }
          if kMaxPacketSize < q.packet.encode.length then again (discard call taken q .oversize)
          else transmit call radio taken q := by
  rw [pumpSelected, if_neg hleft, if_neg hup, hselect]
  rfl

/-- On packets that fit, the pump ends in one of its exits. -/
theorem pump_exit (call : Handler H σ) (radio : RadioView) (hd : d.Sane) :
    Exit call radio d (pump call radio d) := by
  rw [pump, pumpWithin]
  split
  next hempty => exact .idle hempty
  next hqueue =>
    split
    next hbusy => exact .transmitting hqueue hbusy
    next htxBusy =>
      have hidle : radio.txBusy = false := by simpa using htxBusy
      have hsame := sameTimers_afterExpiry call d
      have hnow : (d.afterExpiry call).nowMs = d.nowMs := by rw [nowMs, nowMs, hsame.time]
      have hsince : (d.afterExpiry call).deferredSince = d.deferredSince := by
        rw [deferredSince, deferredSince, hnow, hsame.busySinceMs]
      have hfits : ∀ q ∈ (d.afterExpiry call).queue, q.packet.encode.length ≤ kMaxPacketSize := by
        intro q hq
        rw [afterExpiry, dropExpired_queue] at hq
        exact Packet.length_encode_le_of_valid
          (hd.valid q ((List.dropWhile_sublist _).subset hq))
      rw [show dropExpired call d.nowMs d.queue d = d.afterExpiry call from rfl]
      by_cases hempty : (d.afterExpiry call).queue = []
      · rw [pumpSelected, if_pos hempty]
        exact .expired hqueue hidle hempty
      by_cases hdown : (!radio.ready || !radio.hasFrequency) = true
      · rw [pumpSelected, if_neg hempty, if_pos hdown]
        exact .down hqueue hidle hempty (by simpa using hdown)
      cases hselect : (d.afterExpiry call).queue.dropWhile
          (fun q => !q.due (d.afterExpiry call).nowMs) with
      | nil =>
          rw [pumpSelected, if_neg hempty, if_neg hdown, hselect, hnow]
          refine .backoff hqueue hidle hempty fun q hq => ?_
          rw [← hnow]
          simpa using List.dropWhile_eq_nil_iff.mp hselect q hq
      | cons q behind =>
          obtain ⟨hsplit, hwaiting, hdue⟩ := split_of_dropWhile hselect
          rw [pumpSelected_of_due _ hempty hdown hselect]
          split
          next hwait =>
            refine .held hqueue hidle q ?_ hwait
            rw [hsplit, ← hnow]
            exact find?_of_split hwaiting hdue
          next hwait =>
            have hready : radio.ready = true ∧ radio.hasFrequency = true := by simpa using hdown
            have hselected : Selected radio (d.afterExpiry call) _ q behind :=
              ⟨hsplit, hwaiting, hdue, hready.1, hready.2, by simpa [budget] using hwait⟩
            have hsize := hfits q (by rw [hselected.split]; simp)
            have hnow' : ((d.afterExpiry call).budgeted radio q).nowMs = d.nowMs := hnow
            have hsince' : ((d.afterExpiry call).budgeted radio q).deferredSince =
                d.deferredSince := hsince
            rcases listen_cases radio ((d.afterExpiry call).budgeted radio q) with
              ⟨hbusy, hrecent, hlisten⟩ | ⟨hforced, since, stats, htotal, hlisten⟩
            · rw [hnow', hsince'] at hrecent
              rw [hsince'] at hlisten
              rw [hlisten]
              exact .deferred hqueue hidle hselected hbusy hrecent
            · rw [hnow', hsince'] at hforced
              rw [hlisten]
              dsimp only
              rw [if_neg (by simp), if_neg (Nat.not_lt.mpr hsize)]
              exact .handed hqueue hidle hselected hforced stats (htotal.trans hsame.txTotal)

end Coreletd.Mesh.Dispatcher
