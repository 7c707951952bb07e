/-
# The regulatory budget over runs

The check is made before a transmission and the charge after it, so the
invariant carries the packet on the air: what the last hour recorded, together
with the airtime the radio was given a packet for, stays within the budget. The
radio's part is its contract: it refuses a packet while another is on the air,
and reports each accepted one done with no more than the airtime it was asked
about.
-/

import Coreletd.Mesh.TransmitResult

namespace Coreletd.Mesh.Dispatcher

open Coreletd.Crypto
open Coreletd.Library
open Coreletd.Radio
open Coreletd.Radio.DutyCycle

universe u v

variable {H : Type u} {σ : Type v} {call : Handler H σ}

/-- The transmissions the trace shows as reported done, oldest first. -/
def recorded : List (TxEvent H) → List DutyEntry
  | [] => []
  | .txDone time airtimeMs :: earlier => recorded earlier ++ [{ recordedAt := time, airtimeMs }]
  | _ :: earlier => recorded earlier

/-- A constant budget, and a radio that reports the packet on the air done, once,
with an airtime no longer than it was let through for. -/
def WithinContract (percent : ℚ) (d : Dispatcher H σ) : Event H → Prop
  | .txDone airtimeMs _ => ∃ candidate, d.inFlight = some candidate ∧ airtimeMs ≤ candidate
  | .reconfigure percent' _ => percent' = percent
  | _ => True

/-- The account agrees with the trace on the last hour, and there is room in it
for the packet on the air. -/
structure Charged (percent : ℚ) (d : Dispatcher H σ) : Prop where
  percent : d.duty.percent = percent
  chronological : Chronological d.time d.duty.entries
  past : ∀ e ∈ recorded d.trace, e.recordedAt ≤ d.time
  agrees : (recorded d.trace).filter (InWindow d.time ·) =
    d.duty.entries.filter (InWindow d.time ·)
  room : ((windowAirtime d.time d.duty.entries + (d.inFlight.getD 0).toNat : Nat) : ℚ) ≤
    d.duty.budget

variable {d : Dispatcher H σ} {percent : ℚ}

/-- What left the hour before is not in it later. -/
theorem filter_inWindow_later {now later : Nat} (hle : now ≤ later) (entries : List DutyEntry) :
    entries.filter (InWindow later ·) =
      (entries.filter (InWindow now ·)).filter (InWindow later ·) := by
  rw [List.filter_filter]
  apply List.filter_congr
  intro e _
  by_cases hlater : InWindow later e
  · have hnow : InWindow now e := by
      rw [InWindow] at hlater ⊢
      omega
    simp [hlater, hnow]
  · simp [hlater]

/-- Pruning for an answer changes nothing that counts. -/
theorem Charged.quietly (hd : Charged percent d) {d' : Dispatcher H σ} (hquiet : Quietly d d') :
    Charged percent d' := by
  have hduty : d'.duty.percent = d.duty.percent ∧
      Chronological d.time d'.duty.entries ∧
      d'.duty.entries.filter (InWindow d.time ·) = d.duty.entries.filter (InWindow d.time ·) := by
    rcases hquiet.duty with hsame | hpruned
    · rw [hsame]
      exact ⟨rfl, hd.chronological, rfl⟩
    · rw [hpruned]
      exact ⟨rfl, hd.chronological.sublist List.filter_sublist,
        filter_inWindow_prune d.duty hd.chronological.past⟩
  obtain ⟨hpercent, hchronological, hwindow⟩ := hduty
  refine ⟨hpercent.trans hd.percent, ?_, ?_, ?_, ?_⟩
  · rw [hquiet.time]
    exact hchronological
  · rw [hquiet.time, hquiet.trace]
    exact hd.past
  · rw [hquiet.time, hquiet.trace, hwindow]
    exact hd.agrees
  · rw [hquiet.time, hquiet.inFlight, windowAirtime, hwindow, budget, hpercent]
    exact hd.room

/-- Moves that leave clock, account and the air alone, and report nothing done,
keep the account charged. -/
theorem Charged.frame (hd : Charged percent d) {d' : Dispatcher H σ} (htime : d'.time = d.time)
    (hduty : d'.duty = d.duty) (hair : d'.inFlight = d.inFlight)
    (hrecorded : recorded d'.trace = recorded d.trace) : Charged percent d' := by
  refine ⟨?_, ?_, ?_, ?_, ?_⟩
  · rw [hduty]
    exact hd.percent
  · rw [htime, hduty]
    exact hd.chronological
  · rw [htime, hrecorded]
    exact hd.past
  · rw [htime, hrecorded, hduty]
    exact hd.agrees
  · rw [htime, hduty, hair]
    exact hd.room

theorem recorded_reported (q : Queued H) (transmitted : Bool) (trace : List (TxEvent H)) :
    recorded ((q.onResult.toList.map fun handler => .called q.seq handler transmitted) ++ trace) =
      recorded trace := by
  cases q.onResult <;> rfl

/-- A packet let through fits beside what the hour recorded. -/
theorem Charged.transmit {radio : RadioView} (hd : Charged percent d) (hlow : 0 < percent)
    (hhigh : percent < 100) {d' : Dispatcher H σ} {ahead behind : List (Queued H)} {q : Queued H}
    (hquiet : Quietly d d') (hselected : Selected radio d ahead q behind) :
    Charged percent (transmit call radio { d' with queue := ahead ++ behind } q) := by
  have hd' := hd.quietly hquiet
  cases hok : radio.sendOk with
  | false =>
      rw [transmit_refused _ _ _ hok]
      apply hd'.frame <;> simp [recorded]
  | true =>
      rw [transmit_accepted _ _ _ hok]
      have hfits := fits_of_waitMs_zero hd.chronological (hd.percent ▸ hlow) (hd.percent ▸ hhigh)
        hselected.fits
      -- The window is the one the check was made on.
      have hwindow : windowAirtime d'.time d'.duty.entries =
          windowAirtime d.time d.duty.entries := by
        rw [windowAirtime, windowAirtime, ← hd'.agrees, ← hd.agrees, hquiet.trace, hquiet.time]
      refine ⟨?_, ?_, ?_, ?_, ?_⟩
      · rw [notify_duty]
        exact hd'.percent
      · rw [notify_time, notify_duty]
        exact hd'.chronological
      · rw [notify_time, notify_trace, recorded_reported]
        exact hd'.past
      · rw [notify_time, notify_trace, notify_duty, recorded_reported]
        exact hd'.agrees
      · rw [notify_time, notify_duty, notify_inFlight]
        show ((windowAirtime d'.time d'.duty.entries +
          (radio.airtimeMs q.packet.encode.length).toNat : Nat) : ℚ) ≤ d'.duty.budget
        rw [hwindow, budget, hd'.percent, ← hd.percent]
        exact hfits

/-- Time passing only takes airtime out of the hour. -/
theorem Charged.tick (hd : Charged percent d) (ms : Nat) :
    Charged percent { d with time := d.time + ms } := by
  have hle : d.time ≤ d.time + ms := Nat.le_add_right _ _
  refine ⟨hd.percent, hd.chronological.later hle, ?_, ?_, ?_⟩
  · exact fun e he => Nat.le_trans (hd.past e he) hle
  · show (recorded d.trace).filter (InWindow (d.time + ms) ·) = _
    rw [filter_inWindow_later hle, hd.agrees, ← filter_inWindow_later hle]
  · have hless := windowAirtime_antitone hle d.duty.entries
    refine le_trans ?_ hd.room
    exact_mod_cast Nat.add_le_add_right hless _

/-- Charging the packet on the air stays within the room kept for it. -/
theorem Charged.txDone (hd : Charged percent d) {airtimeMs candidate : UInt32}
    (hair : d.inFlight = some candidate) (hle : airtimeMs ≤ candidate) (random : UInt8) :
    Charged percent (d.onRadioTxDone airtimeMs random) := by
  have hpruned := filter_inWindow_prune d.duty hd.chronological.past
  have hentry : InWindow d.time { recordedAt := d.time, airtimeMs } := by
    show d.time < d.time + 3600000
    omega
  have hwindow : windowAirtime d.time (d.duty.record d.time airtimeMs).entries =
      windowAirtime d.time d.duty.entries + airtimeMs.toNat := by
    rw [windowAirtime, record, List.filter_append, hpruned, airtime_append, windowAirtime]
    simp [hentry]
  refine ⟨?_, ?_, ?_, ?_, ?_⟩
  · rw [onRadioTxDone, schedulePump_duty]
    exact hd.percent
  · rw [onRadioTxDone, schedulePump_time, schedulePump_duty]
    refine ⟨?_, ?_⟩
    · rw [record, List.pairwise_append]
      refine ⟨hd.chronological.ordered.sublist List.filter_sublist, by simp, ?_⟩
      intro older holder newest hnewest
      rw [List.mem_singleton.mp hnewest]
      exact hd.chronological.past older (List.mem_filter.mp holder).1
    · intro e he
      rw [record] at he
      rcases List.mem_append.mp he with hold | hnew
      · exact hd.chronological.past e (List.mem_filter.mp hold).1
      · rw [List.mem_singleton.mp hnew]
  · rw [onRadioTxDone, schedulePump_time, schedulePump_trace, recorded]
    intro e he
    rcases List.mem_append.mp he with hold | hnew
    · exact hd.past e hold
    · rw [List.mem_singleton.mp hnew]
  · rw [onRadioTxDone, schedulePump_time, schedulePump_trace, schedulePump_duty, recorded, record,
      List.filter_append, List.filter_append, hd.agrees, hpruned]
  · rw [onRadioTxDone, schedulePump_time, schedulePump_inFlight, schedulePump_duty]
    show ((windowAirtime d.time (d.duty.record d.time airtimeMs).entries + 0 : Nat) : ℚ) ≤
      d.duty.budget
    have hroom := hd.room
    rw [hair] at hroom
    rw [hwindow]
    refine le_trans ?_ hroom
    have hnat : airtimeMs.toNat ≤ candidate.toNat := UInt32.le_iff_toNat_le.mp hle
    have hsum : windowAirtime d.time d.duty.entries + airtimeMs.toNat + 0 ≤
        windowAirtime d.time d.duty.entries + candidate.toNat := by omega
    exact_mod_cast hsum

/-- Every step within the contract keeps the account charged. -/
theorem charged_step (lib : Library) (hlow : 0 < percent) (hhigh : percent < 100)
    (haccounted : d.Accounted) (hd : Charged percent d) {event : Event H}
    (hcontract : WithinContract percent d event) :
    (step lib call d event).Accounted ∧ Charged percent (step lib call d event) := by
  refine ⟨accounted_step lib call haccounted event, ?_⟩
  -- Until the pump transmits, the air is as it was when the event came.
  have hrule : ∀ d₀ : Dispatcher H σ,
      (d₀.Accounted ∧ Charged percent d₀ ∧ d₀.inFlight = d.inFlight) →
      Charged percent (step lib call d₀ event) := by
    intro d₀ hd₀
    apply step_rule (P := fun d' : Dispatcher H σ => d'.Accounted ∧ Charged percent d' ∧
        d'.inFlight = d.inFlight) (Q := Charged percent) (fun d' hd' => hd'.2.1)
      (fun d' hd' => hd'.1.numbered)
    · intro d' d'' hquiet hd'
      exact ⟨hd'.1.quietly hquiet, hd'.2.1.quietly hquiet, hquiet.inFlight.trans hd'.2.2⟩
    · intro d' ahead q behind reason hsplit _ hd'
      refine ⟨hd'.1.discard hsplit reason, hd'.2.1.frame ?_ ?_ ?_ ?_, ?_⟩
      · rw [discard_time]
      · rw [discard_duty]
      · rw [discard_inFlight]
      · rw [discard_trace, recorded_reported]
        rfl
      · rw [discard_inFlight]
        exact hd'.2.2
    · intro radio _ d' d'' ahead q behind _ hquiet hselected hd'
      exact hd'.2.1.transmit hlow hhigh hquiet hselected
    · intro p priority delayMs onResult radio _ _ d' hd'
      exact ⟨hd'.1.inserted rfl, hd'.2.1.frame rfl rfl rfl rfl, hd'.2.2⟩
    · exact fun ms _ d' hd' => hd'.2.1.tick ms
    · intro airtimeMs random hevent d' hd'
      have hdone := hcontract
      rw [hevent] at hdone
      obtain ⟨candidate, hair, hle⟩ := hdone
      exact hd'.2.1.txDone (hd'.2.2.trans hair) hle random
    · intro percent' radio hevent d' hd'
      have hsame := hcontract
      rw [hevent] at hsame
      have hpercent : percent' = d'.duty.percent := hsame.trans hd'.2.1.percent.symm
      refine ⟨{ hd'.1 with numbered := ⟨hd'.1.numbered.distinct, hd'.1.numbered.below⟩ },
        hd'.2.1.frame rfl ?_ rfl rfl, hd'.2.2⟩
      rw [hpercent]
    · exact hd₀
  exact hrule d ⟨haccounted, hd, rfl⟩

/-- **The last hour never exceeds the budget.** In every run under a constant
percentage over a radio that keeps its contract, at every moment the airtime
recorded during the preceding hour is at most that percentage of it. -/
theorem airtime_within_budget (lib : Library) (call : Handler H σ) (hlow : 0 < percent)
    (hhigh : percent < 100) (limit : Nat) (client : σ) (time : Nat) (events : List (Event H))
    (hcontract : Along (step lib call) (WithinContract percent)
      (new percent limit client time) events) :
    let d := run (step lib call) (new percent limit client time) events
    (windowAirtime d.time (recorded d.trace) : ℚ) ≤ 3600000 * percent / 100 := by
  have hinit : (new percent limit client time : Dispatcher H σ).Accounted ∧
      Charged percent (new percent limit client time : Dispatcher H σ) := by
    refine ⟨accounted_new percent limit client time, rfl, ⟨List.Pairwise.nil, by simp [new]⟩,
      by simp [new, recorded], rfl, ?_⟩
    show ((0 : Nat) : ℚ) ≤ 3600000 * percent / 100
    have hnonneg : 0 ≤ 3600000 * percent / 100 :=
      div_nonneg (mul_nonneg (by norm_num) hlow.le) (by norm_num)
    simpa using hnonneg
  have hstep : ∀ (d : Dispatcher H σ) (event : Event H), d.Accounted ∧ Charged percent d →
      WithinContract percent d event →
      (step lib call d event).Accounted ∧ Charged percent (step lib call d event) :=
    fun d event hd hok => charged_step lib hlow hhigh hd.1 hd.2 hok
  have hrun := (Along.invariant hstep hinit hcontract).2
  intro d
  have hroom := hrun.room
  rw [budget, hrun.percent] at hroom
  refine le_trans ?_ hroom
  rw [windowAirtime, hrun.agrees, ← windowAirtime]
  exact_mod_cast Nat.le_add_right _ _

/-- One flooded packet, reported done, and half an hour's wait. -/
def oneTransmission : List (Event Unit) :=
  [.send { payload := [1] } kPriorityFlood 0 none (.idle 100), .txDone 90 0, .tick 1800000]

/-- Half an hour later the packet is still on the account, far from the budget. -/
theorem airtime_within_budget_one_transmission :
    let d := run (step Library.transparent (fun _ client _ _ => client))
      (new 10 128 () 0) oneTransmission
    windowAirtime d.time (recorded d.trace) = 90 ∧
      (windowAirtime d.time (recorded d.trace) : ℚ) ≤ 3600000 * 10 / 100 := by
  refine ⟨by decide +kernel, airtime_within_budget Library.transparent _ (by norm_num)
    (by norm_num) 128 () 0 oneTransmission ⟨trivial, ⟨100, ?_, by decide⟩, trivial, trivial⟩⟩
  decide +kernel

end Coreletd.Mesh.Dispatcher
