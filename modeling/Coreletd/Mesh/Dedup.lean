/-
# Deduplication is exact

The table holds one expiry for each hash, compared by the sign of a 32-bit
difference and swept out now and then. Against the whole history that comes to
one sentence: a packet is new when none with its hash was heard or queued in the
last minute. An entry that outlived its minute would be taken for a young one
half the clock's range later, so the sweeps must not be further apart than that.
-/

import Coreletd.Mesh.Echo

namespace Coreletd.Mesh

open Coreletd.Crypto
open Coreletd.Library
open Coreletd.Library.SerialClock
open Coreletd.Proto

universe u v

/-! ## Hashes and their keys -/

namespace Dispatcher

variable {H : Type u} {σ : Type v} {call : Handler H σ} {lib : Library} {d : Dispatcher H σ}

/-! ## Receiving, with the handlers -/

/-- A handler called for a reception. -/
inductive RxCall where
  | raw (packet : Packet) (data : Bytes)
  | rx (packet : Packet)
  deriving DecidableEq

/-- `on_radio_rx` with the handlers it calls, in order: the raw one for every packet
that decodes, the other for those that are new. -/
def onRadioRxCalls (lib : Library) (d : Dispatcher H σ) (raw : Bytes) (rssi snrQ4 : Int) :
    List RxCall × Dispatcher H σ :=
  let d := { d with stats := { d.stats with rxTotal := d.stats.rxTotal + 1 } }
  match Packet.decode raw with
  | none => ([], { d with stats := { d.stats with rxBad := d.stats.rxBad + 1 } })
  | some p =>
      let p := { p with rssi, snrQ4 }
      let d := { d with stats := { d.stats with
        rxFlood := d.stats.rxFlood + if p.isFlood then 1 else 0
        rxDirect := d.stats.rxDirect + if p.isFlood then 0 else 1 } }
      let (known, d) := d.checkAndMarkSeen lib p
      if known then
        ([.raw p raw], { d with stats := { d.stats with rxDup := d.stats.rxDup + 1 } })
      else ([.raw p raw, .rx p], d)

/-- The calls of one event. -/
def rxCalls (lib : Library) (d : Dispatcher H σ) : Event H → List RxCall
  | .rx raw rssi snrQ4 => (d.onRadioRxCalls lib raw rssi snrQ4).1
  | _ => []

def RxCall.isRaw : RxCall → Bool
  | .raw _ _ => true
  | .rx _ => false

/-! ## Sightings -/

def isSweep : Event H → Bool
  | .sweep => true
  | _ => false

/-- At no moment of the run is the last sweep, or the start, longer ago than that. -/
def SweptEvery (lib : Library) (call : Handler H σ) (window : Nat) :
    Nat → Dispatcher H σ → List (Event H) → Prop
  | last, d, [] => d.time ≤ last + window
  | last, d, event :: events =>
      d.time ≤ last + window ∧
        SweptEvery lib call window (if isSweep event then d.time else last)
          (step lib call d event) events

/-! ## The table against the history -/

/-- An entry of the table is the last mark of its key, and the last sweep found it young
or was before it. -/
def Tracks (d : Dispatcher H σ) (key : UInt32) (swept : Nat) (times : List Nat) : Prop :=
  ∀ expiry, d.seen key = some expiry →
    ∃ last ∈ times, last ≤ d.time ∧ swept ≤ last + 60000 ∧ expiry = reading (last + 60000)

theorem Tracks.step {key : UInt32} {swept : Nat} {times : List Nat} (hd : d.Tracks key swept times)
    (hswept : swept ≤ d.time) (hrecent : d.time ≤ swept + (2 ^ 31 - 60000)) (event : Event H) :
    (step lib call d event).Tracks key (if isSweep event then d.time else swept)
      (times ++ if marks lib key event then [d.time] else []) := by
  intro expiry hexpiry
  by_cases hevent : event = .sweep
  · subst hevent
    -- What a sweep leaves is ahead of the clock, and near enough for the sign to say so.
    have hkept : d.seen key = some expiry ∧ 0 < signed (expiry - d.nowMs) := by
      rw [Dispatcher.step, expireSeen] at hexpiry
      cases hentry : d.seen key with
      | none => simp [hentry] at hexpiry
      | some entry =>
          by_cases hover : signed (entry - d.nowMs) ≤ 0
          · simp [hentry, hover] at hexpiry
          · simp only [hentry, hover, if_false] at hexpiry
            rw [← Option.some.inj hexpiry]
            exact ⟨rfl, not_le.mp hover⟩
    obtain ⟨last, hlast, hpast, hsince, rfl⟩ := hd expiry hkept.1
    have hahead : d.time < last + 60000 := by
      by_contra hover
      have hsign : signed (reading (last + 60000) - reading d.time) ≤ 0 :=
        (signed_sub_nonpos_iff (by omega) (by omega)).mpr (by omega)
      exact absurd hkept.2 (not_lt.mpr hsign)
    exact ⟨last, List.mem_append_left _ hlast, hpast, hahead.le, rfl⟩
  · have hnot : isSweep event = false := by
      cases event <;> first | rfl | exact absurd rfl hevent
    rw [hnot, if_neg Bool.false_ne_true]
    rcases touched lib call d key hevent with ⟨hmarks, htime, hseen⟩ | ⟨hmarks, htime, hseen⟩
    · rw [hseen] at hexpiry
      refine ⟨d.time, ?_, htime.ge, by omega, (Option.some.inj hexpiry).symm⟩
      rw [if_pos hmarks]
      exact List.mem_append_right _ (List.mem_singleton_self _)
    · rw [hseen] at hexpiry
      obtain ⟨last, hlast, hpast, hsince, hentry⟩ := hd expiry hexpiry
      exact ⟨last, List.mem_append_left _ hlast, hpast.trans htime, hsince, hentry⟩

/-- Along a run that is swept often enough the table keeps track, and the last sweep is
not far. -/
theorem tracks_run {key : UInt32} (events rest : List (Event H)) :
    ∀ (d : Dispatcher H σ) (swept : Nat) (times : List Nat), d.Tracks key swept times →
      swept ≤ d.time → SweptEvery lib call (2 ^ 31 - 60000) swept d (events ++ rest) →
      ∃ swept', (run (step lib call) d events).Tracks key swept'
          (times ++ markTimes lib call key d events) ∧
        (run (step lib call) d events).time ≤ swept' + (2 ^ 31 - 60000) := by
  induction events with
  | nil =>
      intro d swept times hd hswept hevery
      refine ⟨swept, by simpa [markTimes] using hd, ?_⟩
      cases rest with
      | nil => exact hevery
      | cons event rest => exact hevery.1
  | cons event events ih =>
      intro d swept times hd hswept hevery
      have htime := (keyStep lib call d key event).time_le
      have hpast : (if isSweep event then d.time else swept) ≤ (step lib call d event).time := by
        split <;> omega
      obtain ⟨swept', htracks, hrecent⟩ :=
        ih _ _ _ (hd.step hswept hevery.1 event) hpast hevery.2
      rw [List.append_assoc] at htracks
      exact ⟨swept', htracks, hrecent⟩

/-! ## Deliveries -/

/-- The state with a reception that decodes counted, and the packet marked. -/
def received (lib : Library) (d : Dispatcher H σ) (p : Packet) : Dispatcher H σ :=
  ({ d with stats := { d.stats with
      rxTotal := d.stats.rxTotal + 1
      rxFlood := d.stats.rxFlood + if p.isFlood then 1 else 0
      rxDirect := d.stats.rxDirect + if p.isFlood then 0 else 1 } }.checkAndMarkSeen lib p).2

/-- The packets handed up by an event. -/
def delivered (lib : Library) (d : Dispatcher H σ) (event : Event H) : List RxCall :=
  (rxCalls lib d event).filter (!·.isRaw)

end Dispatcher

end Coreletd.Mesh
