/-
# Charging every transmission

Each accepted packet is reported done once, with an airtime the dispatcher puts
on its account. The TxDone interrupt reports the time since SetTx. The other
two ends of a transmission, the software timeout and the chip failing under an
interrupt, report none, whatever was spent.
-/

import Coreletd.Radio.Sx1262Steps

namespace Coreletd.Radio.Sx1262

open Coreletd.Library
open Coreletd.Library.SerialClock

/-- The transmission a trace shows as begun and not yet reported done. -/
def pending : List Activity → Option Sent
  | [] => none
  | .sent s :: _ => some s
  | .txDone _ :: _ => none
  | _ :: earlier => pending earlier

/-- The report covers the time the packet was on the air. -/
def Covers (s : Sent) (done : Done) : Prop :=
  min s.airtimeMs.toNat (done.time - s.time) ≤ done.airtimeMs.toNat

/-- Every transmission is followed by its report, which covers its airtime, or
is the one in flight, with its timeout armed. -/
def TransmissionsCharged (d : Sx1262) : Prop :=
  ∀ later s earlier, d.trace = later ++ .sent s :: earlier →
    (∃ newer done between, later = newer ++ .txDone done :: between ∧
      (∀ a ∈ between, transmits a = false) ∧ Covers s done) ∨
    ((∀ a ∈ later, transmits a = false) ∧ d.txBusy = true ∧ d.txTimeout.isSome = true)

/-- The clock a TxDone is timed at, and the one it is reported at: between the
two the driver goes back to receiving. -/
def heardAt (d : Sx1262) : Sx1262 := (d.idle.perform (.line .txen false)).2

def reportedAt (d : Sx1262) : Sx1262 := d.heardAt.afterTx "returning to RX after TX"

/-- The interrupt of TxDone finds the packet's airtime passed on the 32-bit
clock; or it comes sooner, and no millisecond passes until it is reported. -/
def handledInTime (d : Sx1262) : Bool :=
  match pending d.trace with
  | none => true
  | some s =>
      decide (s.airtimeMs.toNat ≤ (d.heardAt.time - s.time) % 2 ^ 32 ∨
        (d.heardAt.time - s.time < 2 ^ 32 ∧ d.reportedAt.time = d.heardAt.time))

/-- A TxDone among the flags is handled in time. -/
def txDoneInTime (d : Sx1262) : Bool :=
  match d.takeIrq with
  | (.error _, _) => true
  | (.ok irq, d) => !has irq kIrqTxDone || handledInTime d

/-- While a packet is on the air its timeout does not come due, and an interrupt
neither finds the chip failing nor reports TxDone out of time. -/
def EndsByTxDone (d : Sx1262) : Event → Prop
  | .txTimeout => ∀ dueMs, d.txTimeout = some dueMs → d.due dueMs = true → d.txBusy = false
  | .irq true => d.watching = true → d.healthy = true → d.txBusy = true →
      irqFails d = false ∧ txDoneInTime d = true
  | _ => True

/-! ## The trace as an account -/

/-- Reports answer the pending transmission and cover it; none begins while
another is pending. -/
def Paid : List Activity → Prop
  | [] => True
  | .sent _ :: earlier => pending earlier = none ∧ Paid earlier
  | .txDone done :: earlier => (∃ s, pending earlier = some s ∧ Covers s done) ∧ Paid earlier
  | _ :: earlier => Paid earlier

theorem pending_cons {a : Activity} (ha : transmits a = false) (trace : List Activity) :
    pending (a :: trace) = pending trace := by
  cases a <;> first | rfl | simp [transmits] at ha

theorem paid_cons {a : Activity} (ha : transmits a = false) (trace : List Activity) :
    Paid (a :: trace) ↔ Paid trace := by
  cases a <;> first | rfl | simp [transmits] at ha

theorem pending_append {news : List Activity} (hnews : ∀ a ∈ news, transmits a = false)
    (trace : List Activity) : pending (news ++ trace) = pending trace := by
  induction news with
  | nil => rfl
  | cons a news ih =>
      rw [List.cons_append, pending_cons (hnews a (by simp)), ih fun b hb => hnews b (by simp [hb])]

theorem paid_append {news : List Activity} (hnews : ∀ a ∈ news, transmits a = false)
    (trace : List Activity) : Paid (news ++ trace) ↔ Paid trace := by
  induction news with
  | nil => rfl
  | cons a news ih =>
      rw [List.cons_append, paid_cons (hnews a (by simp)), ih fun b hb => hnews b (by simp [hb])]

/-- In a paid trace a transmission is still pending, or its report follows. -/
theorem Paid.answered {later earlier : List Activity} {s : Sent}
    (hpaid : Paid (later ++ .sent s :: earlier)) :
    (∃ newer done between, later = newer ++ .txDone done :: between ∧
      (∀ a ∈ between, transmits a = false) ∧ Covers s done) ∨
    ((∀ a ∈ later, transmits a = false) ∧ pending (later ++ .sent s :: earlier) = some s) := by
  induction later with
  | nil => exact .inr ⟨by simp, rfl⟩
  | cons a later ih =>
      by_cases ha : transmits a = true
      · cases a with
        | sent s' =>
            obtain ⟨hnone, hpaid⟩ := hpaid
            rcases ih hpaid with ⟨newer, done, between, rfl, hquiet, hcovers⟩ | ⟨_, hsome⟩
            · exact .inl ⟨.sent s' :: newer, done, between, rfl, hquiet, hcovers⟩
            · rw [show pending (later ++ Activity.sent s :: earlier) = none from hnone] at hsome
              simp at hsome
        | txDone done' =>
            obtain ⟨⟨s', hs', hcovers'⟩, hpaid⟩ := hpaid
            rcases ih hpaid with ⟨newer, done, between, rfl, hquiet, hcovers⟩ | ⟨hquiet, hsome⟩
            · exact .inl ⟨.txDone done' :: newer, done, between, rfl, hquiet, hcovers⟩
            · rw [show pending (later ++ Activity.sent s :: earlier) = some s' from hs'] at hsome
              obtain rfl : s' = s := Option.some.inj hsome
              exact .inl ⟨[], done', later, rfl, hquiet, hcovers'⟩
        | command _ => simp [transmits] at ha
        | rx _ => simp [transmits] at ha
        | rxError _ => simp [transmits] at ha
      · have ha : transmits a = false := by simpa using ha
        rw [List.cons_append, paid_cons ha] at hpaid
        rcases ih hpaid with ⟨newer, done, between, rfl, hquiet, hcovers⟩ | ⟨hquiet, hsome⟩
        · exact .inl ⟨a :: newer, done, between, rfl, hquiet, hcovers⟩
        · refine .inr ⟨by simpa [ha] using hquiet, ?_⟩
          rw [List.cons_append, pending_cons ha]
          exact hsome

/-! ## The driver keeps the account -/

/-- While busy, the pending transmission is the one the driver timed, and its
timeout is armed; while idle, none is pending. -/
structure Accounts (d : Sx1262) : Prop where
  paid : Paid d.trace
  busy : d.txBusy = true → ∃ s, pending d.trace = some s ∧ reading s.time = d.txStartedMs ∧
    s.time ≤ d.time ∧ d.txTimeout.isSome = true
  idle : d.txBusy = false → pending d.trace = none

theorem Accounts.charged {d : Sx1262} (hd : Accounts d) : TransmissionsCharged d := by
  intro later s earlier htrace
  have hpaid := hd.paid
  rw [htrace] at hpaid
  rcases hpaid.answered with hanswered | ⟨hquiet, hpending⟩
  · exact .inl hanswered
  · rw [← htrace] at hpending
    cases hbusy : d.txBusy with
    | false =>
        rw [hd.idle hbusy] at hpending
        simp at hpending
    | true =>
        obtain ⟨_, _, _, _, harmed⟩ := hd.busy hbusy
        exact .inr ⟨hquiet, rfl, harmed⟩

theorem Accounts.quiet {d d' : Sx1262} (hd : Accounts d) (hquiet : Quiet d d') : Accounts d' := by
  obtain ⟨news, hnews, htrace⟩ := hquiet.trace
  refine ⟨?_, ?_, ?_⟩
  · rw [htrace, paid_append hnews]
    exact hd.paid
  · intro hbusy
    rw [hquiet.txBusy] at hbusy
    obtain ⟨s, hs, hstarted, hle, harmed⟩ := hd.busy hbusy
    refine ⟨s, ?_, hstarted.trans hquiet.txStartedMs.symm, le_trans hle hquiet.time, ?_⟩
    · rw [htrace, pending_append hnews]
      exact hs
    · rw [hquiet.txTimeout hbusy]
      exact harmed
  · intro hidle
    rw [hquiet.txBusy] at hidle
    rw [htrace, pending_append hnews]
    exact hd.idle hidle

theorem Accounts.beginTx {d : Sx1262} (hd : Accounts d) (hidle : d.txBusy = false) (size : Nat) :
    Accounts (d.beginTx size) where
  paid := ⟨hd.idle hidle, hd.paid⟩
  busy _ := ⟨_, rfl, rfl, le_rfl, rfl⟩
  idle hbusy := by simp [Sx1262.beginTx, record] at hbusy

/-- A report that covers the pending transmission settles it. -/
theorem Accounts.deliverTxDone {d d' : Sx1262} (hd : Accounts d) (hquiet : Quiet d.idle d')
    {s : Sent} (hs : pending d.trace = some s) {airtimeMs : UInt32}
    (hcovers : Covers s { time := d'.time, airtimeMs }) :
    Accounts (d'.deliverTxDone airtimeMs) := by
  obtain ⟨news, hnews, htrace⟩ := hquiet.trace
  refine ⟨⟨⟨s, ?_, hcovers⟩, ?_⟩, ?_, fun _ => rfl⟩
  · rw [htrace, pending_append hnews]
    exact hs
  · rw [htrace, paid_append hnews]
    exact hd.paid
  · intro hbusy
    have hidle : d'.txBusy = false := hquiet.txBusy
    rw [show (d'.deliverTxDone airtimeMs).txBusy = d'.txBusy from rfl, hidle] at hbusy
    simp at hbusy

/-- TxDone handled in time covers the packet. -/
theorem Accounts.handleTxDone {d : Sx1262} (hd : Accounts d) (hbusy : d.txBusy = true)
    (htime : handledInTime d = true) : Accounts d.handleTxDone := by
  obtain ⟨s, hs, hstarted, hle, _⟩ := hd.busy hbusy
  have hheard : Quiet d.idle d.heardAt := (talked_perform d.idle (.line .txen false)).quiet
  have hback : Quiet d.heardAt d.reportedAt := quiet_afterTx _ hheard.txBusy
  rw [handledInTime, hs] at htime
  have hclock := of_decide_eq_true htime
  rw [Sx1262.handleTxDone, hbusy]
  show Accounts (d.reportedAt.deliverTxDone (d.heardAt.millis - d.heardAt.txStartedMs))
  have hsince : s.time ≤ d.heardAt.time := le_trans hle hheard.time
  have hreport : (d.heardAt.millis - d.heardAt.txStartedMs).toNat =
      (d.heardAt.time - s.time) % 2 ^ 32 := by
    rw [hheard.txStartedMs, show d.idle.txStartedMs = d.txStartedMs from rfl, ← hstarted, millis,
      toNat_reading_sub hsince]
  refine hd.deliverTxDone (hheard.trans hback) hs ?_
  show min s.airtimeMs.toNat (d.reportedAt.time - s.time) ≤ _
  rw [hreport]
  rcases hclock with hpassed | ⟨hsoon, hsame⟩
  · exact le_trans (min_le_left _ _) hpassed
  · rw [hsame, Nat.mod_eq_of_lt hsoon]
    exact min_le_right _ _

/-- Every call that ends no transmission but by its TxDone keeps the account. -/
theorem accounts_handle {d : Sx1262} (hd : Accounts d) {event : Event}
    (hends : EndsByTxDone d event) : Accounts (d.handle event) := by
  have houtcome := handle_outcome d event
  generalize d.handle event = d' at houtcome ⊢
  cases houtcome with
  | quiet hquiet => exact hd.quiet hquiet
  | began size hidle hbefore => exact (hd.quiet hbefore).beginTx hidle size
  | timedOut dueMs harmed hdue hbusy =>
      have hidle := hends dueMs harmed hdue
      rw [hbusy] at hidle
      simp at hidle
  | lost hbusy hup hwatch hfails =>
      have hworks := (hends hwatch hup hbusy).1
      rw [hfails] at hworks
      simp at hworks
  | completed hbusy hup hwatch hirq hflag hafter =>
      have htake := (talked_takeIrq d).quiet
      rw [hirq] at htake
      have htime := (hends hwatch hup hbusy).2
      simp only [txDoneInTime, hirq, hflag, Bool.not_true, Bool.false_or] at htime
      exact ((hd.quiet htake).handleTxDone (htake.txBusy.trans hbusy) htime).quiet hafter

theorem accounts_new (params : RadioParams) (pins : Pins) (retryIntervalMs : UInt32) (time : Nat) :
    Accounts (new params pins retryIntervalMs time) where
  paid := trivial
  busy hbusy := by simp [new] at hbusy
  idle _ := rfl

/-- **Where each transmission ends by its TxDone, each is charged.** In every run
whose calls end a transmission only by a TxDone handled in time, every packet
for which SetTx was accepted is followed by a report covering its time on the
air, or is in flight with its timeout armed. -/
theorem transmissions_charged_of_txDone (params : RadioParams) (pins : Pins)
    (retryIntervalMs : UInt32) (time : Nat) (calls : List (Event × List Reply))
    (hends : Along step (fun d call => EndsByTxDone { d with script := call.2 } call.1)
      (new params pins retryIntervalMs time) calls) :
    TransmissionsCharged (run step (new params pins retryIntervalMs time) calls) := by
  have hstep : ∀ (d : Sx1262) (call : Event × List Reply), Accounts d →
      EndsByTxDone { d with script := call.2 } call.1 → Accounts (step d call) := by
    intro d call hd hcall
    have hscript : Accounts { d with script := call.2 } := hd.quiet (.of_eq rfl rfl rfl rfl rfl)
    exact accounts_handle hscript hcall
  exact (Along.invariant hstep (accounts_new _ _ _ _) hends).charged

/-- The replies of a chip that comes up: nothing is amiss, and the part number
is read back after nine other calls. -/
def chipAnswers : List Reply :=
  List.replicate 9 ({} : Reply) ++ [{ data := [0x53, 0x58, 0x31, 0x32, 0x36, 0x32] }]

/-- A radio at 869.525 MHz that is brought up and given twenty bytes. -/
def transmitting : List (Event × List Reply) := [(.start, chipAnswers), (.send 20, [])]

def tuned : RadioParams := { freqMhz := 869.525 }

/-- A TxDone one millisecond after the packet's airtime of 305 ms. -/
def acknowledged : List (Event × List Reply) :=
  transmitting ++ [(.tick 306, []), (.irq true, [{ data := [0x00, 0x01] }])]

/-- The acknowledged packet is charged 306 ms. -/
theorem transmissions_charged_acknowledged :
    (run step (new tuned {} 0 0) acknowledged).trace.head? =
        some (.txDone { time := 333, airtimeMs := 306 }) ∧
      TransmissionsCharged (run step (new tuned {} 0 0) acknowledged) := by
  refine ⟨by decide +kernel, transmissions_charged_of_txDone tuned {} 0 0 acknowledged
    ⟨trivial, trivial, trivial, ?_, trivial⟩⟩
  intro _ _ _
  exact ⟨by decide +kernel, by decide +kernel⟩

/-- Its TxDone edge lost, the packet runs into the timeout. -/
def timedOut : List (Event × List Reply) :=
  transmitting ++ [(.tick 2305, []), (.txTimeout, [])]

/-- A packet that was on the air for 305 ms is reported with none. -/
theorem timedOut_not_charged :
    ¬ TransmissionsCharged (run step (new tuned {} 0 0) timedOut) := by
  intro hcharged
  have htrace : (run step (new tuned {} 0 0) timedOut).trace =
      [.txDone { time := 2332, airtimeMs := 0 }, .command .setRx, .command .clearIrqStatus] ++
        .sent { time := 27, size := 20, airtimeMs := 305 } ::
          (run step (new tuned {} 0 0) timedOut).trace.drop 4 := by
    decide +kernel
  rcases hcharged _ _ _ htrace with ⟨newer, done, between, hlater, _, hcovers⟩ | ⟨hquiet, _⟩
  · have hmem : Activity.txDone done ∈
        [.txDone { time := 2332, airtimeMs := 0 }, .command .setRx, .command .clearIrqStatus] := by
      rw [hlater]
      simp
    obtain rfl : done = { time := 2332, airtimeMs := 0 } := by simpa using hmem
    exact absurd hcovers (by unfold Covers; decide)
  · exact absurd (hquiet (.txDone { time := 2332, airtimeMs := 0 }) (by simp)) (by decide)

end Coreletd.Radio.Sx1262
