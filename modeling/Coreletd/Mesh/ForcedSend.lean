/-
# Transmitting over a busy channel

After four seconds of a busy channel the pump transmits anyway. It remembers since
when in one field, which a clear channel and a transmission reset, and the pump's
other ways out do not. As long as none of those is taken while a deferral is on
record, a forced transmission has an uninterrupted deferral of four seconds behind
it; once one is, the record outlives the deferral it belongs to.
-/

import Coreletd.Mesh.PumpExits
import Mathlib.Data.List.Induction

namespace Coreletd.Mesh.Dispatcher

open Coreletd.Crypto
open Coreletd.Library
open Coreletd.Library.SerialClock
open Coreletd.Proto

universe u v

variable {H : Type u} {σ : Type v} {call : Handler H σ} {radio : RadioView} {d : Dispatcher H σ}

/-- The pump entered with this state gets as far as listening: the radio is up and
free, and the first packet that is neither expired nor held back is within the
budget. -/
structure Listens (radio : RadioView) (d : Dispatcher H σ) : Prop where
  queue : d.queue ≠ []
  idle : radio.txBusy = false
  ready : radio.ready = true
  hasFrequency : radio.hasFrequency = true
  packet : ∃ q, (d.queue.dropWhile (·.expired d.nowMs)).find? (·.due d.nowMs) = some q ∧
    (d.budget radio q).1 = 0

/-- The pump finds the queue filled, the radio ready and the channel busy. -/
structure FindsBusy (radio : RadioView) (d : Dispatcher H σ) : Prop where
  listens : Listens radio d
  busy : radio.channelBusy = true

/-- If the event pumps, the pump finds the channel busy. -/
def FoundBusy (lib : Library) (call : Handler H σ) (d : Dispatcher H σ) (event : Event H) : Prop :=
  ∀ radio d', entering lib call d event = some (radio, d') → FindsBusy radio d'

/-- How many packets were handed to the radio. -/
def handings (trace : List (TxEvent H)) : Nat := trace.countP (isHanded fun _ _ _ => true)

/-- The event hands a packet to the radio although the channel is busy. -/
def ForcedSend (lib : Library) (call : Handler H σ) (d : Dispatcher H σ) (event : Event H) : Prop :=
  ∃ radio, event.radio? = some radio ∧ radio.channelBusy = true ∧
    handings d.trace < handings (step lib call d event).trace

/-- No pump is cut short of listening while a deferral is on record. -/
def Uninterrupted (lib : Library) (call : Handler H σ) (d : Dispatcher H σ) (event : Event H) :
    Prop :=
  d.busySinceMs ≠ 0 → ∀ radio d', entering lib call d event = some (radio, d') → Listens radio d'

/-- The last event of a run has an uninterrupted deferral of four seconds behind it:
a pump that found the channel busy so long before, and from it on none that found
anything else. -/
def Deferred (lib : Library) (call : Handler H σ) (start : Dispatcher H σ)
    (before : List (Event H)) (event : Event H) : Prop :=
  ∃ first deferral rest, before = first ++ deferral :: rest ∧
    entering lib call (run (step lib call) start first) deferral ≠ none ∧
    Along (step lib call) (FoundBusy lib call) (run (step lib call) start first)
      (deferral :: rest ++ [event]) ∧
    (run (step lib call) start first).time + 4000 ≤ (run (step lib call) start before).time

/-! ## What one pump does to the record -/

/-- Dropping what expired asks nothing of the budget and hands nothing over. -/
theorem dropExpired_quiet (call : Handler H σ) (now : UInt32) (queue : List (Queued H))
    (d : Dispatcher H σ) :
    (dropExpired call now queue d).duty = d.duty ∧
      handings (dropExpired call now queue d).trace = handings d.trace := by
  induction queue generalizing d with
  | nil => exact ⟨rfl, rfl⟩
  | cons q rest ih =>
      rw [dropExpired]
      split
      · obtain ⟨hduty, htrace⟩ := ih (discard call { d with queue := rest } q .expired)
        rw [discard_duty] at hduty
        refine ⟨hduty, htrace.trans ?_⟩
        rw [discard_trace]
        cases q.onResult <;> rfl
      · exact ⟨rfl, rfl⟩

theorem budget_afterExpiry (call : Handler H σ) (radio : RadioView) (d : Dispatcher H σ)
    (q : Queued H) : (d.afterExpiry call).budget radio q = d.budget radio q := by
  rw [budget, budget, (sameTimers_afterExpiry call d).time, afterExpiry,
    (dropExpired_quiet call d.nowMs d.queue d).1]

theorem listens_of_selected {ahead behind : List (Queued H)} {q : Queued H}
    (hqueue : d.queue ≠ []) (hidle : radio.txBusy = false)
    (hselected : Selected radio (d.afterExpiry call) ahead q behind) : Listens radio d := by
  have hnow : (d.afterExpiry call).nowMs = d.nowMs := by
    rw [nowMs, nowMs, (sameTimers_afterExpiry call d).time]
  refine ⟨hqueue, hidle, hselected.ready, hselected.hasFrequency, q, ?_, ?_⟩
  · rw [← dropExpired_queue call d.nowMs d.queue d]
    have hsplit := hselected.split
    rw [afterExpiry] at hsplit
    rw [hsplit, ← hnow]
    exact find?_of_split hselected.waiting hselected.due
  · rw [← budget_afterExpiry call]
    exact hselected.fits

/-- What one call of the pump does to the record of a busy channel. -/
inductive Records (radio : RadioView) (d d' : Dispatcher H σ) : Prop
  | nothing (hshort : ¬ Listens radio d) (hsince : d'.busySinceMs = d.busySinceMs)
      (hhanded : handings d'.trace = handings d.trace)
  | deferral (hbusy : FindsBusy radio d) (hsince : d'.busySinceMs = d.deferredSince)
      (hhanded : handings d'.trace = handings d.trace)
  | transmission (hlistens : Listens radio d) (hsince : d'.busySinceMs = 0)
      (hforced : radio.channelBusy = true → kChannelBusyMaxMs ≤ d.nowMs - d.deferredSince)

theorem records_pump (call : Handler H σ) (radio : RadioView) (hd : d.Sane) :
    Records radio d (pump call radio d) := by
  have hsame := sameTimers_afterExpiry call d
  have hhanded := (dropExpired_quiet call d.nowMs d.queue d).2
  have hkept : (d.afterExpiry call).queue = d.queue.dropWhile (·.expired d.nowMs) :=
    dropExpired_queue call d.nowMs d.queue d
  have hexit := pump_exit call radio hd
  generalize pump call radio d = d' at hexit ⊢
  cases hexit with
  | idle hempty => exact .nothing (fun hlistens => hlistens.queue hempty) rfl rfl
  | transmitting hqueue hbusy =>
      exact .nothing (fun hlistens => by simp [hlistens.idle] at hbusy) rfl rfl
  | expired hqueue hidle hempty =>
      refine .nothing (fun hlistens => ?_) hsame.busySinceMs hhanded
      obtain ⟨q, hfirst, -⟩ := hlistens.packet
      rw [← hkept, hempty] at hfirst
      simp at hfirst
  | down hqueue hidle hleft hdown =>
      refine .nothing (fun hlistens => ?_) ?_ ?_
      · rcases hdown with hready | hfrequency
        · simp [hlistens.ready] at hready
        · simp [hlistens.hasFrequency] at hfrequency
      · rw [schedulePump_busySinceMs, hsame.busySinceMs]
      · rw [schedulePump_trace]
        exact hhanded
  | backoff hqueue hidle hleft hwaiting =>
      refine .nothing (fun hlistens => ?_) ?_ ?_
      · obtain ⟨q, hfirst, -⟩ := hlistens.packet
        rw [← hkept] at hfirst
        have hdue := List.find?_some hfirst
        rw [hwaiting q (List.mem_of_find?_eq_some hfirst)] at hdue
        exact Bool.false_ne_true hdue
      · rw [schedulePump_busySinceMs, hsame.busySinceMs]
      · rw [schedulePump_trace]
        exact hhanded
  | held hqueue hidle q hfirst hwait =>
      refine .nothing (fun hlistens => ?_) ?_ ?_
      · obtain ⟨other, hother, hfits⟩ := hlistens.packet
        rw [← hkept, hfirst] at hother
        obtain rfl := Option.some.inj hother
        rw [budget_afterExpiry, hfits] at hwait
        exact absurd hwait (by decide)
      · rw [schedulePump_busySinceMs]
        exact hsame.busySinceMs
      · rw [schedulePump_trace]
        exact hhanded
  | @deferred hqueue hidle ahead q behind hselected hbusy hrecent =>
      refine .deferral ⟨listens_of_selected hqueue hidle hselected, hbusy⟩ ?_ ?_
      · rw [schedulePump_busySinceMs]
      · rw [schedulePump_trace]
        exact hhanded
  | @handed hqueue hidle ahead q behind hselected hforced stats htotal =>
      refine .transmission (listens_of_selected hqueue hidle hselected) ?_ hforced
      cases hok : radio.sendOk with
      | true => rw [transmit_accepted _ _ _ hok, notify_busySinceMs]
      | false => rw [transmit_refused _ _ _ hok, schedulePump_busySinceMs]

/-! ## What one event does to it -/

theorem handings_entering {lib : Library} {d' : Dispatcher H σ} {event : Event H}
    (hnumbered : d.Numbered) (hentering : entering lib call d event = some (radio, d')) :
    handings d'.trace = handings d.trace := by
  rcases entering_cases hnumbered hentering with
    ⟨-, -, htrace⟩ | ⟨p, priority, delayMs, onResult, marked, -, hquiet, hkept⟩
  · rw [htrace]
  · have hinserted : handings (marked.inserted (marked.entry p priority delayMs onResult)).trace =
        handings d.trace := by
      rw [← hquiet.trace]
      rfl
    rcases hkept with rfl | ⟨ahead, chosen, behind, -, rfl⟩
    · exact hinserted
    · rw [discard_trace, ← hinserted]
      cases chosen.onResult <;> rfl

/-- An event that does not pump leaves the record alone and hands nothing over. -/
theorem record_of_not_entering {lib : Library} {event : Event H}
    (hentering : entering lib call d event = none) :
    (step lib call d event).busySinceMs = d.busySinceMs ∧
      handings (step lib call d event).trace = handings d.trace := by
  constructor
  · cases event with
    | send p priority delayMs onResult radio' =>
        rw [entering] at hentering
        split at hentering
        · simp at hentering
        next hvalid => rw [step, send, if_pos (by simpa using hvalid)]
    | pumpTimer radio' =>
        rw [entering] at hentering
        split at hentering
        · simp at hentering
        next harmed => rw [step, onPumpTimer, if_neg harmed]
    | reconfigure percent radio' => simp [entering] at hentering
    | tick ms => rfl
    | txDone airtimeMs random => rw [step, onRadioTxDone, schedulePump_busySinceMs]
    | rx raw rssi snrQ4 => exact (sameTimers_onRadioRx lib d raw rssi snrQ4).busySinceMs
    | sweep => rfl
  · rcases (step_of_not_entering hentering).2.2 with htrace | ⟨time, airtimeMs, htrace⟩
    · rw [htrace]
    · rw [htrace]
      rfl

/-- An event that pumps does to the record what its pump does. -/
theorem records_of_entering {lib : Library} {d' : Dispatcher H σ} {event : Event H}
    (hnumbered : d.Numbered) (hd : d.Sane)
    (hentering : entering lib call d event = some (radio, d')) :
    d'.time = d.time ∧ d'.busySinceMs = d.busySinceMs ∧
      Records radio d' (step lib call d event) := by
  obtain ⟨hsame, -⟩ := sameTimers_entering hentering
  obtain ⟨htime, hsince, -⟩ := fired_frame d event
  rw [step_of_entering hentering]
  exact ⟨hsame.time.trans htime, hsame.busySinceMs.trans hsince,
    records_pump call radio (sane_entering hnumbered hd hentering).1⟩

theorem time_le_step (lib : Library) (call : Handler H σ) (d : Dispatcher H σ) (event : Event H) :
    d.time ≤ (step lib call d event).time := by
  cases hentering : entering lib call d event with
  | none => exact (step_of_not_entering hentering).2.1
  | some entered =>
      obtain ⟨radio, d'⟩ := entered
      have hsame := (sameTimers_entering hentering).1.time
      rw [step_of_entering hentering, pump_time, hsame, (fired_frame d event).1]

/-- A forced transmission is a pump that found the channel busy, with a record four
seconds old. -/
theorem ForcedSend.recorded {lib : Library} {event : Event H} (hnumbered : d.Numbered)
    (hd : d.Sane) (hforced : ForcedSend lib call d event) :
    FoundBusy lib call d event ∧ d.busySinceMs ≠ 0 ∧
      kChannelBusyMaxMs ≤ d.nowMs - d.busySinceMs := by
  obtain ⟨radio, hradio, hbusy, hhanded⟩ := hforced
  cases hentering : entering lib call d event with
  | none =>
      rw [(record_of_not_entering hentering).2] at hhanded
      exact absurd hhanded (Nat.lt_irrefl _)
  | some entered =>
      obtain ⟨view, d'⟩ := entered
      obtain ⟨htime, hsince, hrecords⟩ := records_of_entering hnumbered hd hentering
      obtain rfl : view = radio :=
        Option.some.inj ((sameTimers_entering hentering).2.symm.trans hradio)
      rw [← handings_entering hnumbered hentering] at hhanded
      rcases hrecords with ⟨-, -, hnone⟩ | ⟨-, -, hnone⟩ | ⟨hlistens, -, hpatience⟩
      · exact absurd hhanded (by rw [hnone]; exact Nat.lt_irrefl _)
      · exact absurd hhanded (by rw [hnone]; exact Nat.lt_irrefl _)
      · have hlong := hpatience hbusy
        rw [deferredSince, nowMs, htime, hsince] at hlong
        split at hlong
        · rw [UInt32.sub_self] at hlong
          exact absurd hlong (by decide)
        next hrecord =>
          refine ⟨?_, hrecord, hlong⟩
          intro other d'' hother
          obtain ⟨rfl, rfl⟩ := Prod.mk.inj (Option.some.inj (hentering.symm.trans hother))
          exact ⟨hlistens, hbusy⟩

/-! ## Whole runs -/

/-- What is on record is the start of an uninterrupted deferral. -/
def OnRecord (lib : Library) (call : Handler H σ) (start : Dispatcher H σ)
    (before : List (Event H)) : Prop :=
  (run (step lib call) start before).busySinceMs ≠ 0 →
    ∃ first deferral rest, before = first ++ deferral :: rest ∧
      entering lib call (run (step lib call) start first) deferral ≠ none ∧
      Along (step lib call) (FoundBusy lib call) (run (step lib call) start first)
        (deferral :: rest) ∧
      (run (step lib call) start first).time ≤ (run (step lib call) start before).time ∧
      (run (step lib call) start before).busySinceMs =
        reading (run (step lib call) start first).time

theorem OnRecord.snoc {lib : Library} {start : Dispatcher H σ} {before : List (Event H)}
    {event : Event H} (hnumbered : (run (step lib call) start before).Numbered)
    (hd : (run (step lib call) start before).Sane) (hrecord : OnRecord lib call start before)
    (hok : Uninterrupted lib call (run (step lib call) start before) event) :
    OnRecord lib call start (before ++ [event]) := by
  have hlast : run (step lib call) start (before ++ [event]) =
      step lib call (run (step lib call) start before) event := run_append _ _ _ _
  -- while the event finds the channel busy or does not pump, the deferral goes on
  have hgoesOn : (run (step lib call) start before).busySinceMs ≠ 0 →
      FoundBusy lib call (run (step lib call) start before) event →
      (step lib call (run (step lib call) start before) event).busySinceMs =
        (run (step lib call) start before).busySinceMs →
      OnRecord lib call start (before ++ [event]) := by
    intro hsome hbusy hsince _
    obtain ⟨first, deferral, rest, hbefore, hpumped, hfound, hearlier, hstamp⟩ := hrecord hsome
    have hreached : run (step lib call) (run (step lib call) start first) (deferral :: rest) =
        run (step lib call) start before := by
      rw [hbefore, run_append]
    refine ⟨first, deferral, rest ++ [event], ?_, hpumped, ?_, ?_, ?_⟩
    · rw [hbefore, List.append_assoc, List.cons_append]
    · rw [← List.cons_append, along_append, hreached]
      exact ⟨hfound, hbusy, trivial⟩
    · rw [hlast]
      exact Nat.le_trans hearlier (time_le_step lib call _ event)
    · rw [hlast, hsince, hstamp]
  cases hentering : entering lib call (run (step lib call) start before) event with
  | none =>
      have hsince := (record_of_not_entering hentering).1
      intro hsome
      have hbefore := hsome
      rw [hlast, hsince] at hbefore
      refine hgoesOn hbefore (fun radio d' hother => ?_) hsince hsome
      rw [hentering] at hother
      exact absurd hother (by simp)
  | some entered =>
      obtain ⟨radio, d'⟩ := entered
      obtain ⟨htime, hsince, hrecords⟩ := records_of_entering hnumbered hd hentering
      rcases hrecords with ⟨hshort, hkept, -⟩ | ⟨hbusy, hnew, -⟩ | ⟨-, hreset, -⟩
      · intro hsome
        rw [hlast, hkept, hsince] at hsome
        exact absurd (hok hsome radio d' hentering) hshort
      · have hfound : FoundBusy lib call (run (step lib call) start before) event := by
          intro other d'' hother
          obtain ⟨rfl, rfl⟩ := Prod.mk.inj (Option.some.inj (hentering.symm.trans hother))
          exact hbusy
        by_cases hold : (run (step lib call) start before).busySinceMs = 0
        · refine fun _ => ⟨before, event, [], rfl, by simp [hentering], ⟨hfound, trivial⟩, ?_, ?_⟩
          · rw [hlast]
            exact time_le_step lib call _ event
          · rw [hlast, hnew, deferredSince, hsince, if_pos hold, nowMs, htime]
        · refine hgoesOn hold hfound ?_
          rw [hnew, deferredSince, hsince, if_neg hold]
      · intro hsome
        rw [hlast, hreset] at hsome
        exact absurd rfl hsome

/-- Along a run without an interruption the record is always right. -/
theorem onRecord_run (lib : Library) (call : Handler H σ) {start : Dispatcher H σ}
    (haccounted : start.Accounted) (hd : start.Sane) (hclear : start.busySinceMs = 0)
    (events : List (Event H))
    (hrun : Along (step lib call) (Uninterrupted lib call) start events) :
    (run (step lib call) start events).Accounted ∧ (run (step lib call) start events).Sane ∧
      OnRecord lib call start events := by
  induction events using List.reverseRecOn with
  | nil => exact ⟨haccounted, hd, fun hsome => absurd hclear hsome⟩
  | append_singleton before event ih =>
      obtain ⟨hbefore, hok, -⟩ := (along_append _ _ _ _ _).mp hrun
      obtain ⟨hreached, hsane, hrecord⟩ := ih hbefore
      rw [run_append]
      exact ⟨accounted_step lib call hreached event, sane_step lib call hreached hsane event,
        hrecord.snoc hreached.numbered hsane hok⟩

/-- **A busy channel is transmitted over only as a last resort.** In every run in
which no pump is cut short while a deferral is on record, a packet handed to the
radio over a busy channel has an uninterrupted deferral of four seconds behind it. -/
theorem forced_only_after_deferral (lib : Library) (call : Handler H σ) (percent : ℚ)
    (limit : Nat) (client : σ) (time : Nat) (before : List (Event H)) (event : Event H)
    (after : List (Event H))
    (hrun : Along (step lib call) (Uninterrupted lib call) (new percent limit client time)
      (before ++ event :: after))
    (hforced : ForcedSend lib call
      (run (step lib call) (new percent limit client time) before) event) :
    Deferred lib call (new percent limit client time) before event := by
  obtain ⟨haccounted, hsane, hrecord⟩ := onRecord_run lib call
    (accounted_new percent limit client time)
    ⟨by simp [new], by simp [new], by simp [new]⟩ rfl before ((along_append _ _ _ _ _).mp hrun).1
  obtain ⟨hbusy, hsome, hlong⟩ := hforced.recorded haccounted.numbered hsane
  obtain ⟨first, deferral, rest, hbefore, hpumped, hfound, hearlier, hstamp⟩ := hrecord hsome
  refine ⟨first, deferral, rest, hbefore, hpumped, ?_, ?_⟩
  · rw [along_append, ← run_append, ← hbefore]
    exact ⟨hfound, hbusy, trivial⟩
  · -- what a 32-bit difference shows is no more than the true difference
    rw [hstamp, nowMs, UInt32.le_iff_toNat_le,
      show kChannelBusyMaxMs.toNat = 4000 from rfl] at hlong
    have hshown := toNat_reading_sub_le hearlier
    omega

/-- A radio that hears somebody. -/
def occupied : RadioView := { RadioView.idle 100 with channelBusy := true }

/-- A packet that finds the channel busy, and four seconds. -/
def patient : List (Event Unit) :=
  [.send { payload := [1] } kPriorityFlood 0 none occupied, .tick 4000]

/-- The patient packet goes out over a channel that never cleared. -/
theorem forced_after_four_seconds :
    ForcedSend Library.transparent (fun _ client _ _ => client)
      (run (step Library.transparent (fun _ client _ _ => client)) (new 10 128 () 1000) patient)
      (.pumpTimer occupied) ∧
    Deferred Library.transparent (fun _ client _ _ => client) (new 10 128 () 1000) patient
      (.pumpTimer occupied) := by
  have hforced : ForcedSend Library.transparent (fun _ client _ _ => client)
      (run (step Library.transparent (fun _ client _ _ => client)) (new 10 128 () 1000) patient)
      (.pumpTimer occupied) := ⟨_, rfl, rfl, by decide +kernel⟩
  refine ⟨hforced, forced_only_after_deferral Library.transparent _ 10 128 () 1000 patient _ []
    ⟨fun hsome => absurd rfl hsome, fun _ radio d' hentering => ?_, fun _ radio d' hentering => ?_,
      trivial⟩ hforced⟩
  · simp [entering] at hentering
  · rw [entering, if_pos (by decide +kernel)] at hentering
    obtain ⟨rfl, rfl⟩ := Prod.mk.inj (Option.some.inj hentering)
    refine ⟨by decide +kernel, rfl, rfl, rfl, ?_⟩
    let waited := run (step Library.transparent (fun _ client _ _ => client)) (new 10 128 () 1000)
      patient
    let d : Dispatcher Unit Unit := { waited with pumpTimer := false, pumpDueMs := 0 }
    have hwithin : ((d.queue.dropWhile (·.expired d.nowMs)).find? (·.due d.nowMs)).any
        (fun q => decide ((d.budget occupied q).1 = 0)) = true := by decide +kernel
    obtain ⟨q, hfirst, hfits⟩ := (Option.any_eq_true _ _).mp hwithin
    exact ⟨q, hfirst, of_decide_eq_true hfits⟩

/-- A packet finds the channel busy, the radio goes down for five seconds, and is
back. -/
def interrupted : List (Event Unit) :=
  [.send { payload := [1] } kPriorityFlood 0 none occupied, .tick 100,
    .pumpTimer .down, .tick 5000]

/-- The first pump to find the channel busy again transmits over it at once. -/
theorem stale_record_forces :
    ForcedSend Library.transparent (fun _ client _ _ => client)
      (run (step Library.transparent (fun _ client _ _ => client)) (new 10 128 () 1000) interrupted)
      (.pumpTimer occupied) ∧
    ¬ Deferred Library.transparent (fun _ client _ _ => client) (new 10 128 () 1000) interrupted
      (.pumpTimer occupied) := by
  refine ⟨⟨_, rfl, rfl, by decide +kernel⟩, ?_⟩
  rintro ⟨first, deferral, rest, hbefore, hpumped, hfound, hlong⟩
  have hdown : ∀ d : Dispatcher Unit Unit, d.pumpTimer = true →
      ¬ FoundBusy Library.transparent (fun _ client _ _ => client) d (.pumpTimer .down) := by
    intro d harmed hbusy
    have hready := (hbusy _ _ (if_pos harmed)).listens.ready
    exact absurd hready (by decide)
  rcases first with _ | ⟨sent, _ | ⟨tick, _ | ⟨pumped, first⟩⟩⟩
  · obtain ⟨rfl, rfl⟩ := List.cons.inj hbefore
    exact hdown _ (by decide +kernel) hfound.2.2.1
  · obtain ⟨rfl, hrest⟩ := List.cons.inj hbefore
    obtain ⟨rfl, -⟩ := List.cons.inj hrest
    exact hpumped rfl
  · obtain ⟨rfl, hrest⟩ := List.cons.inj hbefore
    obtain ⟨rfl, hlast⟩ := List.cons.inj hrest
    obtain ⟨rfl, -⟩ := List.cons.inj hlast
    exact hdown _ (by decide +kernel) hfound.1
  · obtain ⟨-, hrest⟩ := List.cons.inj hbefore
    obtain ⟨-, hlast⟩ := List.cons.inj hrest
    obtain ⟨-, hnone⟩ := List.cons.inj hlast
    rcases first with _ | ⟨other, first⟩
    · obtain ⟨rfl, -⟩ := List.cons.inj hnone
      exact hpumped rfl
    · exact absurd (congrArg List.length hnone) (by simp)

end Coreletd.Mesh.Dispatcher
