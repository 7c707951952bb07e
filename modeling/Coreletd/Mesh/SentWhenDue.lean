/-
# Sent when due

With the radio free and nothing on the duty-cycle account, a packet with a delay
is transmitted when the delay is over, unless its lifetime is over first or the
hour's budget is smaller than the packet.
-/

import Coreletd.Daemon.AppConfig
import Coreletd.Mesh.QueueWakes
import Coreletd.Mesh.Reception
import Coreletd.Mesh.Transmittable
import Coreletd.Mesh.TransmitFreshness

namespace Coreletd.Mesh

open Coreletd.Crypto
open Coreletd.Daemon
open Coreletd.Library
open Coreletd.Library.SerialClock
open Coreletd.Proto
open Coreletd.Radio

/-! ## Airtimes the config allows -/

theorem bwKhz_gt_of_supported {khz : ℚ} (hsupported : supportedBandwidth khz = true) : 7 < khz := by
  obtain ⟨supported, hmem, hnear⟩ := List.any_eq_true.mp hsupported
  have hdistance := of_decide_eq_true hnear
  have hlow : ∀ s ∈ kBandwidthsKhz, (78 / 10 : ℚ) ≤ s := by decide +kernel
  have hclose : Binary64.nearest (5 / 1000) < 1 / 100 := by decide +kernel
  by_contra hslow
  have hgap : khz - supported ≤ -(8 / 10) := by
    have hsupportedLow := hlow supported hmem
    linarith
  have habs : |khz - supported| = -(khz - supported) := abs_of_nonpos (by linarith)
  have hmin : Binary64.minNormal ≤ |khz - supported| := by
    have hpow : Binary64.minNormal ≤ (2 : ℚ) ^ (-1 : ℤ) :=
      zpow_le_zpow_right₀ (by norm_num) (by norm_num)
    rw [habs]
    refine hpow.trans ?_
    norm_num
    linarith
  -- Rounding leaves at least half of a difference that large.
  have hround := Binary64.abs_nearest_sub_le hmin
  have htri := abs_sub_abs_le_abs_sub (khz - supported) (Binary64.nearest (khz - supported))
  have hhalf : |khz - supported| / 2 ^ 53 ≤ |khz - supported| / 2 := by
    apply div_le_div_of_nonneg_left (abs_nonneg _) <;> norm_num
  rw [abs_sub_comm] at hround
  linarith

/-- No packet takes a quarter of an hour. -/
theorem toNat_airtimeMs_le {p : RadioParams} (haccepted : RadioAccepted p) {bytes : Nat}
    (hbytes : bytes ≤ 255) : (p.airtimeMs bytes).toNat ≤ 900000 := by
  have hbw := bwKhz_gt_of_supported haccepted.bandwidth
  have hsf := haccepted.sf.2
  have hsf' := haccepted.sf.1
  have hguard : ¬ (p.sf < 5 ∨ p.bwKhz ≤ 0) := by
    rintro (h | h)
    · exact absurd hsf' (UInt8.not_le.mpr h)
    · linarith
  rw [UInt8.le_iff_toNat_le] at hsf hsf'
  have hlow : 5 ≤ p.sf.toNat := hsf'
  have hhigh : p.sf.toNat ≤ 12 := hsf
  have hlowCast : (5 : ℚ) ≤ p.sf.toNat := by exact_mod_cast hlow
  have hsym : (2 : ℚ) ^ p.sf.toNat / (p.bwKhz * 1000) ≤ 4096 / 7000 := by
    have hpow : (2 : ℚ) ^ p.sf.toNat ≤ 2 ^ 12 := pow_le_pow_right₀ (by norm_num) hhigh
    apply div_le_div₀ (by norm_num) (hpow.trans (by norm_num)) (by norm_num)
    linarith
  have hsymPos : (0 : ℚ) ≤ 2 ^ p.sf.toNat / (p.bwKhz * 1000) := by positivity
  have hpreamble : (p.preambleSymbols : ℚ) + p.sfdSymbols ≤ 39 := by
    rw [RadioParams.preambleSymbols, RadioParams.sfdSymbols]
    split <;> split <;> norm_num
  have hcr : (if 5 ≤ p.cr ∧ p.cr ≤ 8 then p.cr.toNat - 4 else 4) ≤ 4 := by
    split
    next hrange =>
      have htop := UInt8.le_iff_toNat_le.mp hrange.2
      have height : (8 : UInt8).toNat = 8 := rfl
      omega
    next => exact Nat.le_refl _
  rw [RadioParams.airtimeMs, if_neg hguard]
  dsimp only
  generalize (2 : ℚ) ^ p.sf.toNat / (p.bwKhz * 1000) = tSym at hsym hsymPos ⊢
  generalize (if 5 ≤ p.cr ∧ p.cr ≤ 8 then p.cr.toNat - 4 else 4) = cr at hcr ⊢
  generalize (p.preambleSymbols : ℚ) + p.sfdSymbols = preamble at hpreamble ⊢
  have hnumerator : max (8 * (bytes : ℚ) + 16 - 4 * p.sf.toNat + (if p.sf ≤ 6 then 0 else 8) + 20)
      0 ≤ 2084 := by
    have hcast : (bytes : ℚ) ≤ 255 := by exact_mod_cast hbytes
    apply max_le _ (by norm_num)
    split <;> linarith
  have hdenominator :
      (12 : ℚ) ≤ 4 * (p.sf.toNat - if p.lowDataRateOptimize = true then 2 else 0) := by
    split <;> linarith
  have hceil : (⌈max (8 * (bytes : ℚ) + 16 - 4 * p.sf.toNat + (if p.sf ≤ 6 then 0 else 8) + 20) 0 /
      (4 * (p.sf.toNat - if p.lowDataRateOptimize = true then 2 else 0))⌉ : ℚ) ≤ 175 := by
    have hdiv := div_le_div₀ (by norm_num) hnumerator (by norm_num) hdenominator
    have hup := (Int.ceil_lt_add_one (max (8 * (bytes : ℚ) + 16 - 4 * p.sf.toNat +
      (if p.sf ≤ 6 then 0 else 8) + 20) 0 /
      (4 * (p.sf.toNat - if p.lowDataRateOptimize = true then 2 else 0)))).le
    linarith
  generalize (⌈max (8 * (bytes : ℚ) + 16 - 4 * p.sf.toNat + (if p.sf ≤ 6 then 0 else 8) + 20) 0 /
      (4 * (p.sf.toNat - if p.lowDataRateOptimize = true then 2 else 0))⌉ : ℚ) = blocks at hceil ⊢
  have hcrCast : (cr : ℚ) ≤ 4 := by exact_mod_cast hcr
  have hcrPos : (0 : ℚ) ≤ cr := by exact_mod_cast Nat.zero_le cr
  have hpayload : max (8 + blocks * (4 + cr)) 8 ≤ 1408 := by
    apply max_le _ (by norm_num)
    have hmul : blocks * (4 + cr) ≤ 175 * (4 + cr) :=
      mul_le_mul_of_nonneg_right hceil (by linarith)
    linarith
  generalize max (8 + blocks * (4 + (cr : ℚ))) 8 = payload at hpayload ⊢
  have htotal : (preamble * tSym + payload * tSym) * 1000 ≤ 900000 := by
    have hfactor : (preamble + payload) * tSym ≤ (39 + 1408) * tSym :=
      mul_le_mul_of_nonneg_right (by linarith) hsymPos
    linarith
  have hup : ⌈(preamble * tSym + payload * tSym) * 1000⌉ ≤ 900000 := Int.ceil_le.mpr htotal
  rw [UInt32.toNat_ofNat']
  exact (Nat.mod_le _ _).trans (by omega)

/-! ## On an idle radio -/

/-- The radio is up, tuned, free and willing. -/
structure RadioView.Idle (radio : RadioView) : Prop where
  free : radio.txBusy = false
  up : radio.ready = true
  tuned : radio.hasFrequency = true
  quiet : radio.channelBusy = false
  willing : radio.sendOk = true

/-- The budget has room for a packet of this airtime when nothing is on the
account. -/
def Affordable (percent : ℚ) (airtimeMs : UInt32) : Prop :=
  100 ≤ percent ∨ (airtimeMs.toNat : ℚ) ≤ 36000 * percent

namespace Dispatcher

variable {H σ : Type} {call : Handler H σ} {radio : RadioView} {d : Dispatcher H σ} {q : Queued H}

/-- Some packet equal to this one was handed to the radio, which took it. -/
def Transmitted (d : Dispatcher H σ) (p : Packet) : Prop :=
  ∃ q time others, .handed q time others true ∈ d.trace ∧ q.packet = p

/-- Handed to a dispatcher that has nothing to do, a packet is on the air once
its delay is over. -/
def SentWhenDue (lib : Crypto.Library) (call : Handler H σ) (radio : RadioView) (percent : ℚ)
    (client : σ) (p : Packet) (priority : UInt8) (delayMs : UInt32) : Prop :=
  ∀ limit time,
    Transmitted
      (run (step lib call) (new percent limit client time)
        [.send p priority delayMs none radio, .tick delayMs.toNat, .pumpTimer radio]) p

theorem waitMs_unused {percent : ℚ} (hpercent : 0 < percent) (now : Nat) (airtimeMs : UInt32) :
    (DutyCycle.waitMs now airtimeMs { percent }).1 = 0 ↔ Affordable percent airtimeMs := by
  rw [DutyCycle.waitMs, Affordable]
  have hbudget : (DutyCycle.prune now { percent }).budget = 36000 * percent := by
    rw [DutyCycle.budget]
    show 3600000 * percent / 100 = 36000 * percent
    ring
  have hnothing : DutyCycle.airtime (DutyCycle.prune now { percent }).entries = 0 := rfl
  dsimp only
  rw [hnothing, hbudget, Nat.zero_add]
  by_cases hfull : 100 ≤ percent
  · rw [if_pos (.inr hfull)]
    exact ⟨fun _ => .inl hfull, fun _ => rfl⟩
  · rw [if_neg (not_or.mpr ⟨not_le.mpr hpercent, hfull⟩)]
    split
    next hfits => exact ⟨fun _ => .inr hfits, fun _ => rfl⟩
    next hfits =>
      rw [if_pos (not_le.mp hfits)]
      have hheld : DutyCycle.kWindowMs ≠ 0 := by decide
      refine ⟨fun hzero => absurd hzero hheld, ?_⟩
      rintro (h | h)
      · exact absurd h hfull
      · exact absurd h hfits

/-- The pump on a single packet that has expired. -/
theorem pump_single_expired (call : Handler H σ) (hidle : radio.Idle) (hqueue : d.queue = [q])
    (hnone : q.onResult = none) (hexpired : q.expired d.nowMs = true) :
    (pump call radio d).queue = [] ∧
      (pump call radio d).trace = .dropped q d.time .expired :: d.trace := by
  rw [pump, hqueue]
  simp [pumpWithin, hqueue, hidle.free, dropExpired, hexpired, pumpSelected, discard, notify,
    hnone]

/-- The pump on a single packet whose delay is not over. -/
theorem pump_single_early (call : Handler H σ) (hidle : radio.Idle) (hqueue : d.queue = [q])
    (halive : q.expired d.nowMs = false) (hearly : q.due d.nowMs = false) :
    pump call radio d = d.schedulePump (backoffMs d.nowMs [q]) := by
  have hsame : { d with queue := [q] } = d := by rw [← hqueue]
  rw [pump, hqueue]
  simp [pumpWithin, hqueue, hidle.free, dropExpired, halive, hsame, pumpSelected, hidle.up,
    hidle.tuned, hearly]

/-- The pump on a single packet whose delay is over, and that the budget has no
room for. -/
theorem pump_single_held (call : Handler H σ) (hidle : radio.Idle) (hqueue : d.queue = [q])
    (halive : q.expired d.nowMs = false) (hdue : q.due d.nowMs = true)
    (hwait : (d.duty.waitMs d.time (radio.airtimeMs q.packet.encode.length)).1 ≠ 0) :
    (pump call radio d).queue = [q] ∧ (pump call radio d).trace = d.trace ∧
      (pump call radio d).duty =
        (d.duty.waitMs d.time (radio.airtimeMs q.packet.encode.length)).2 ∧
      (pump call radio d).pumpTimer = true := by
  have hsame : { d with queue := [q] } = d := by rw [← hqueue]
  have hpos : 0 < (d.duty.waitMs d.time (radio.airtimeMs q.packet.encode.length)).1 := by
    rw [UInt32.lt_iff_toNat_lt]
    have hne : (d.duty.waitMs d.time (radio.airtimeMs q.packet.encode.length)).1.toNat ≠ 0 :=
      fun hzero => hwait (UInt32.toNat_inj.mp hzero)
    show 0 < _
    omega
  rw [pump, hqueue]
  simp [pumpWithin, hqueue, hidle.free, dropExpired, halive, hsame, pumpSelected, hidle.up,
    hidle.tuned, hdue, hpos, schedulePump_armed]

/-- The pump on a single packet whose delay is over, with budget for it. -/
theorem pump_single_sent (call : Handler H σ) (hidle : radio.Idle) (hqueue : d.queue = [q])
    (hvalid : q.packet.valid = true) (hnone : q.onResult = none)
    (halive : q.expired d.nowMs = false) (hdue : q.due d.nowMs = true)
    (hwait : (d.duty.waitMs d.time (radio.airtimeMs q.packet.encode.length)).1 = 0) :
    (pump call radio d).trace = .handed q d.time [] true :: d.trace ∧
      (pump call radio d).pumpTimer = d.pumpTimer := by
  have hsame : { d with queue := [q] } = d := by rw [← hqueue]
  have hsize : ¬ kMaxPacketSize < q.packet.encode.length :=
    Nat.not_lt.mpr (Packet.length_encode_le_of_valid hvalid)
  rw [pump, hqueue]
  simp [pumpWithin, hqueue, hidle.free, dropExpired, halive, hsame, pumpSelected, hidle.up,
    hidle.tuned, hdue, hwait, listen, hidle.quiet, hsize, transmit, hidle.willing, notify, hnone]

theorem waitMs_unused_snd (percent : ℚ) (now : Nat) (airtimeMs : UInt32) :
    (DutyCycle.waitMs now airtimeMs { percent }).2 = { percent } := by
  rcases waitMs_snd now airtimeMs { percent } with hsame | hpruned
  · exact hsame
  · rw [hpruned]
    rfl

theorem due_iff {q : Queued H} {now : Nat} (hdelay : q.delayMs.toNat < 2 ^ 31)
    (hpast : q.queuedAt ≤ now) (hnear : now ≤ q.queuedAt + 2 ^ 31) :
    q.due (reading now) = true ↔ q.queuedAt + q.delayMs.toNat ≤ now := by
  rw [Queued.due, Queued.notBeforeMs, reading_add_word, decide_eq_true_eq]
  exact signed_sub_nonpos_iff (by omega) (by omega)

/-- The dispatcher with one packet taken on, before the pump. -/
structure Holding (percent : ℚ) (q : Queued H) (d : Dispatcher H σ) : Prop where
  queue : d.queue = [q]
  trace : d.trace = [.queued q]
  duty : d.duty = { percent }

/-- What the pump makes of a packet whose delay is over. -/
theorem transmitted_pump_iff {percent : ℚ} (hpercent : 0 < percent) (hidle : radio.Idle)
    (hholding : Holding percent q d) (hvalid : q.packet.valid = true) (hnone : q.onResult = none)
    (hdue : q.due d.nowMs = true) :
    Transmitted (pump call radio d) q.packet ↔
      q.expired d.nowMs = false ∧
        Affordable percent (radio.airtimeMs q.packet.encode.length) := by
  have hunsent : ∀ {d' : Dispatcher H σ}, d'.trace = [.queued q] → ¬ Transmitted d' q.packet := by
    rintro d' htrace ⟨other, time, others, hin, -⟩
    rw [htrace] at hin
    simp at hin
  rw [← waitMs_unused hpercent d.time]
  cases hexpired : q.expired d.nowMs with
  | true =>
      obtain ⟨-, htrace⟩ := pump_single_expired call hidle hholding.queue hnone hexpired
      refine ⟨?_, fun h => absurd h.1 (by simp)⟩
      rintro ⟨other, time, others, hin, -⟩
      rw [htrace, hholding.trace] at hin
      simp at hin
  | false =>
      by_cases hwait : (DutyCycle.waitMs d.time (radio.airtimeMs q.packet.encode.length)
          { percent }).1 = 0
      · rw [← hholding.duty] at hwait
        obtain ⟨htrace, -⟩ := pump_single_sent call hidle hholding.queue hvalid hnone
          hexpired hdue hwait
        rw [hholding.duty] at hwait
        refine ⟨fun _ => ⟨rfl, hwait⟩, fun _ => ⟨q, d.time, [], ?_, rfl⟩⟩
        rw [htrace]
        exact List.mem_cons_self
      · rw [← hholding.duty] at hwait
        obtain ⟨-, htrace, -, -⟩ := pump_single_held call hidle hholding.queue hexpired
          hdue hwait
        rw [hholding.duty] at hwait
        refine ⟨fun hsent => absurd hsent (hunsent ?_), fun h => absurd h.2 hwait⟩
        rw [htrace, hholding.trace]

/-- What `send` hands to the pump of a dispatcher with nothing to do. -/
theorem exists_holding (lib : Crypto.Library) (call : Handler H σ) (radio : RadioView) (percent : ℚ)
    (limit : Nat)
    (client : σ) (time : Nat) {p : Packet} (hvalid : p.valid = true) (priority : UInt8)
    (delayMs : UInt32) :
    ∃ d : Dispatcher H σ,
      step lib call (new percent limit client time) (.send p priority delayMs none radio) =
        pump call radio d ∧
      Holding percent
        ((new percent limit client time : Dispatcher H σ).entry p priority delayMs none) d ∧
      d.time = time ∧ d.pumpTimer = false := by
  have hroom : ¬ max limit 1 < 1 := by omega
  refine ⟨_, by rw [step, send, hvalid]; rfl, ?_⟩
  refine ⟨⟨?_, ?_, ?_⟩, ?_, ?_⟩ <;>
    simp [enqueue, checkAndMarkSeen, new, entry, insertAtUpperBound, upperBound, upperBoundFrom,
      hroom]

/-- The pump at the moment the delay is over. -/
theorem transmitted_lastPump_iff {percent : ℚ} (hpercent : 0 < percent) (hidle : radio.Idle)
    (hholding : Holding percent q d) (hvalid : q.packet.valid = true) (hnone : q.onResult = none)
    (hdelay : q.delayMs.toNat < 2 ^ 31) (htime : d.time = q.queuedAt + q.delayMs.toNat) :
    Transmitted (pump call radio d) q.packet ↔
      q.delayMs.toNat < 10000 * q.priority.toNat ∧
        Affordable percent (radio.airtimeMs q.packet.encode.length) := by
  have hdue : q.due d.nowMs = true := by
    rw [nowMs, due_iff hdelay (by omega) (by omega), htime]
  have hexpired : q.expired d.nowMs = false ↔ q.delayMs.toNat < 10000 * q.priority.toNat := by
    rw [Bool.eq_false_iff, nowMs, Ne,
      Queued.expired_iff (by omega) (by rw [Queued.expiresAt]; omega), Queued.expiresAt]
    omega
  rw [transmitted_pump_iff hpercent hidle hholding hvalid hnone hdue, hexpired]

/-- The timer's firing, after the delay, on a dispatcher that still holds the
packet. -/
theorem transmitted_timer_iff {percent : ℚ} (hpercent : 0 < percent) (hidle : radio.Idle)
    (lib : Crypto.Library) (hholding : Holding percent q d) (hvalid : q.packet.valid = true)
    (hnone : q.onResult = none) (hdelay : q.delayMs.toNat < 2 ^ 31) (htime : d.time = q.queuedAt)
    (htimer : d.pumpTimer = true) :
    Transmitted (step lib call (step lib call d (.tick q.delayMs.toNat)) (.pumpTimer radio))
        q.packet ↔
      q.delayMs.toNat < 10000 * q.priority.toNat ∧
        Affordable percent (radio.airtimeMs q.packet.encode.length) := by
  rw [step, step, onPumpTimer, if_pos htimer]
  refine transmitted_lastPump_iff hpercent hidle
    ⟨hholding.queue, hholding.trace, hholding.duty⟩ hvalid hnone hdelay ?_
  rw [← htime]

/-- **Sent when due.** On an idle radio a packet goes out when its delay is over
just when its lifetime is longer than that and the budget has room for it. -/
theorem sentWhenDue_iff (lib : Crypto.Library) {percent : ℚ} (hpercent : 0 < percent)
    (hidle : radio.Idle) (client : σ) {p : Packet} (hvalid : p.valid = true) {priority : UInt8}
    (hpriority : 0 < priority.toNat) {delayMs : UInt32} (hdelay : delayMs.toNat < 2 ^ 31) :
    SentWhenDue lib call radio percent client p priority delayMs ↔
      delayMs.toNat < 10000 * priority.toNat ∧
        Affordable percent (radio.airtimeMs p.encode.length) := by
  have hone : ∀ limit time,
      Transmitted (run (step lib call) (new percent limit client time)
        [.send p priority delayMs none radio, .tick delayMs.toNat, .pumpTimer radio]) p ↔
      delayMs.toNat < 10000 * priority.toNat ∧
        Affordable percent (radio.airtimeMs p.encode.length) := by
    intro limit time
    obtain ⟨d, hsend, hholding, htime, htimer⟩ :=
      exists_holding lib call radio percent limit client time hvalid priority delayMs
    generalize hentry : (new percent limit client time : Dispatcher H σ).entry p priority delayMs
      none = q at hholding
    obtain rfl : q.packet = p := by rw [← hentry]; rfl
    obtain rfl : q.priority = priority := by rw [← hentry]; rfl
    obtain rfl : q.delayMs = delayMs := by rw [← hentry]; rfl
    have hnone : q.onResult = none := by rw [← hentry]; rfl
    have hqueuedAt : d.time = q.queuedAt := by rw [htime, ← hentry]; rfl
    have hpriorityTop := q.priority.toNat_lt
    have halive : q.expired d.nowMs = false := by
      rw [Bool.eq_false_iff, nowMs, hqueuedAt, Ne,
        Queued.expired_iff (Nat.le_refl _) (by rw [Queued.expiresAt]; omega), Queued.expiresAt]
      omega
    rw [run_cons, run_cons, run_cons, run_nil, hsend]
    by_cases hdue : q.due d.nowMs = true
    · -- There is no delay: the packet goes out at once, or waits for the budget.
      have hnow : q.delayMs.toNat = 0 := by
        rw [nowMs, due_iff hdelay (by omega) (by omega)] at hdue
        omega
      by_cases hwait : (d.duty.waitMs d.time (radio.airtimeMs q.packet.encode.length)).1 = 0
      · obtain ⟨htrace, htimer'⟩ := pump_single_sent call hidle hholding.queue hvalid
          hnone halive hdue hwait
        rw [hholding.duty, waitMs_unused hpercent] at hwait
        refine ⟨fun _ => ⟨by omega, hwait⟩, fun _ => ⟨q, d.time, [], ?_, rfl⟩⟩
        rw [step, step, onPumpTimer, if_neg (by simp [htimer', htimer])]
        show _ ∈ (pump call radio d).trace
        rw [htrace]
        exact List.mem_cons_self
      · obtain ⟨hqueue', htrace', hduty', htimer'⟩ := pump_single_held call hidle
          hholding.queue halive hdue hwait
        rw [hholding.duty, waitMs_unused_snd] at hduty'
        refine transmitted_timer_iff hpercent hidle lib ⟨hqueue', ?_, hduty'⟩ hvalid hnone hdelay ?_
          htimer'
        · rw [htrace', hholding.trace]
        · rw [pump_time, hqueuedAt]
    · -- The pump only arms its timer.
      have hwait := pump_single_early call hidle hholding.queue halive
        (Bool.eq_false_iff.mpr hdue)
      rw [hwait]
      refine transmitted_timer_iff hpercent hidle lib ⟨?_, ?_, ?_⟩ hvalid hnone hdelay ?_ ?_
      · rw [schedulePump_queue, hholding.queue]
      · rw [schedulePump_trace, hholding.trace]
      · rw [schedulePump_duty, hholding.duty]
      · rw [schedulePump_time, hqueuedAt]
      · exact schedulePump_armed _ _
  exact ⟨fun h => (hone 0 0).mp (h 0 0), fun h limit time => (hone limit time).mpr h⟩

end Dispatcher

end Coreletd.Mesh
