/-
# Stale traffic

A packet's lifetime is ten seconds times its priority number. The pump looks for
lifetimes that have run out only at the front of the queue, and then takes the
first packet whose backoff is over from anywhere in it. So an outlived packet is
kept off the air exactly as long as it is not stranded: behind packets that are
alive but still backing off.
-/

import Coreletd.Mesh.PumpEntry

namespace Coreletd.Mesh

open Coreletd.Crypto
open Coreletd.Library
open Coreletd.Library.SerialClock
open Coreletd.Proto

universe u v

variable {H : Type u} {σ : Type v} {call : Dispatcher.Handler H σ} {radio : RadioView}

namespace Queued

/-- When the packet's lifetime runs out, in true time. -/
def expiresAt (q : Queued H) : Nat := q.queuedAt + 10000 * q.priority.toNat

theorem expiryMs_eq (q : Queued H) : q.expiryMs = reading q.expiresAt := by
  have hlifetime :
      (kExpiryPerPriorityMs * q.priority.toUInt32).toNat = 10000 * q.priority.toNat := by
    have hpriority := q.priority.toNat_lt
    rw [UInt32.toNat_mul, UInt8.toNat_toUInt32]
    exact Nat.mod_eq_of_lt (show 10000 * q.priority.toNat < 2 ^ 32 by omega)
  rw [expiryMs, reading_add_word, hlifetime, expiresAt]

/-- Up to 2^31 ms after the fact the pump's test is right. -/
theorem expired_iff {q : Queued H} {now : Nat} (hpast : q.queuedAt ≤ now)
    (hnear : now ≤ q.expiresAt + 2 ^ 31) : q.expired (reading now) = true ↔ q.expiresAt ≤ now := by
  have hpriority := q.priority.toNat_lt
  rw [expired, expiryMs_eq, decide_eq_true_eq]
  exact signed_sub_nonpos_iff hnear (by rw [expiresAt]; omega)

end Queued

namespace Dispatcher

/-- A packet is stranded: its lifetime has run out and its backoff is over, but
packets that are alive stand before it, all of them still backing off. -/
def Stranded (now : Nat) (queue : List (Queued H)) : Prop :=
  ∃ ahead q behind, queue = ahead ++ q :: behind ∧ q.expiresAt ≤ now ∧
    q.due (reading now) = true ∧ (∃ live ∈ ahead, now < live.expiresAt) ∧
    ∀ live ∈ ahead, now < live.expiresAt → live.due (reading now) = false

/-- The queue a pump is entered with holds no stranded packet and none that is
2^31 ms past its lifetime. -/
def NoneStranded (lib : Library) (call : Handler H σ) (d : Dispatcher H σ) (event : Event H) :
    Prop :=
  ∀ radio d', entering lib call d event = some (radio, d') →
    ¬ Stranded d'.time d'.queue ∧ ∀ q ∈ d'.queue, d'.time ≤ q.expiresAt + 2 ^ 31

/-- Whatever was handed to the radio was still alive. -/
def HandedFresh (trace : List (TxEvent H)) : Prop :=
  ∀ q time others accepted, .handed q time others accepted ∈ trace → time < q.expiresAt

variable {d : Dispatcher H σ}

/-- Without stranded packets the selected packet is alive. -/
theorem alive_of_selected (hd : d.Sane) (hnear : ∀ q ∈ d.queue, d.time ≤ q.expiresAt + 2 ^ 31)
    (hstranded : ¬ Stranded d.time d.queue) {ahead behind : List (Queued H)} {q : Queued H}
    (hselected : Selected radio (dropExpired call d.nowMs d.queue d) ahead q behind) :
    d.time < q.expiresAt := by
  have hnow : (dropExpired call d.nowMs d.queue d).nowMs = reading d.time := by
    rw [nowMs, (dropExpired_trace _ _ _ _).1]
  have hleft : d.queue.dropWhile (·.expired d.nowMs) = ahead ++ q :: behind := by
    rw [← dropExpired_queue, hselected.split]
  have hqueue : d.queue = d.queue.takeWhile (·.expired d.nowMs) ++ (ahead ++ q :: behind) := by
    rw [← hleft, List.takeWhile_append_dropWhile]
  have hexpired : ∀ other ∈ d.queue,
      other.expired (reading d.time) = true ↔ other.expiresAt ≤ d.time :=
    fun other hother => Queued.expired_iff (hd.past other hother) (hnear other hother)
  have hmem : ∀ other ∈ ahead ++ q :: behind, other ∈ d.queue := by
    intro other hother
    rw [hqueue]
    exact List.mem_append_right _ hother
  by_contra houtlived
  apply hstranded
  -- The first packet left by the expiry loop is alive, so it is not the selected one.
  have hfirst : ∀ first rest, ahead ++ q :: behind = first :: rest → d.time < first.expiresAt := by
    intro first rest hsplit
    have hhead := List.head?_dropWhile_not (·.expired d.nowMs) d.queue
    rw [hleft, hsplit] at hhead
    have halive : first.expired (reading d.time) = false := by simpa [nowMs] using hhead
    have hin := hmem first (by rw [hsplit]; exact List.mem_cons_self)
    by_contra hdead
    rw [(hexpired first hin).mpr (Nat.le_of_not_lt hdead)] at halive
    simp at halive
  refine ⟨d.queue.takeWhile (·.expired d.nowMs) ++ ahead, q, behind, ?_, Nat.le_of_not_lt houtlived,
    ?_, ?_, ?_⟩
  · rw [List.append_assoc]
    exact hqueue
  · rw [← hnow]
    exact hselected.due
  · cases ahead with
    | nil => exact absurd (hfirst q behind rfl) houtlived
    | cons first rest =>
        exact ⟨first, List.mem_append_right _ List.mem_cons_self, hfirst first _ rfl⟩
  · intro live hlive halive
    rcases List.mem_append.mp hlive with hdropped | hahead
    · have hgone : live.expired (reading d.time) = true := List.mem_takeWhile_imp hdropped
      have hin : live ∈ d.queue := (List.takeWhile_sublist _).subset hdropped
      have hover := (hexpired live hin).mp hgone
      omega
    · rw [← hnow]
      exact hselected.waiting live hahead

/-- A pump entered without stranded packets hands over only what is alive. -/
theorem handedFresh_pump (hd : d.Sane) (hnear : ∀ q ∈ d.queue, d.time ≤ q.expiresAt + 2 ^ 31)
    (hstranded : ¬ Stranded d.time d.queue) (hfresh : HandedFresh d.trace) :
    HandedFresh (pump call radio d).trace := by
  have hdropped : HandedFresh (dropExpired call d.nowMs d.queue d).trace :=
    fun q time others accepted hin =>
      hfresh q time others accepted ((dropExpired_trace _ _ _ _).2 q time others accepted hin)
  rcases pump_cases call radio hd with
    hsame | hheld | ⟨d', ahead, q, behind, hquiet, hselected, hsent⟩
  · rw [hsame]
    exact hfresh
  · rw [hheld.trace]
    exact hdropped
  · have halive := alive_of_selected hd hnear hstranded hselected
    have htime : d'.time = d.time := hquiet.time.trans (dropExpired_trace _ _ _ _).1
    rw [← hquiet.trace] at hdropped
    rw [hsent]
    intro other time others accepted hin
    rcases (handed_mem_transmit _ _ _).mp hin with ⟨rfl, rfl, -⟩ | hold
    · rw [htime]
      exact halive
    · exact hdropped other time others accepted hold

/-- Inserting and evicting hands nothing over. -/
theorem handedFresh_entering {lib : Library} {d' : Dispatcher H σ} {event : Event H}
    (hnumbered : d.Numbered) (hfresh : HandedFresh d.trace)
    (hentering : entering lib call d event = some (radio, d')) : HandedFresh d'.trace := by
  rcases entering_cases hnumbered hentering with
    ⟨-, -, htrace⟩ | ⟨p, priority, delayMs, onResult, marked, -, hquiet, hkept⟩
  · rw [htrace]
    exact hfresh
  · rw [← hquiet.trace] at hfresh
    rcases hkept with rfl | ⟨ahead, chosen, behind, -, rfl⟩
    · exact fun q time others accepted hin =>
        hfresh q time others accepted (by simpa [inserted] using hin)
    · rw [discard_trace]
      exact fun q time others accepted hin =>
        hfresh q time others accepted (by simpa [inserted] using hin)

/-- What holds along a run in which nothing is ever stranded. -/
structure Punctual (d : Dispatcher H σ) : Prop where
  accounted : d.Accounted
  sane : d.Sane
  fresh : HandedFresh d.trace

theorem Punctual.step (lib : Library) (hd : d.Punctual) {event : Event H}
    (hstranded : NoneStranded lib call d event) : (step lib call d event).Punctual := by
  refine ⟨accounted_step lib call hd.accounted event, sane_step lib call hd.accounted hd.sane event,
    ?_⟩
  cases hentering : entering lib call d event with
  | none =>
      rcases (step_of_not_entering hentering).2.2 with hsame | ⟨time, airtimeMs, hdone⟩
      · rw [hsame]
        exact hd.fresh
      · rw [hdone]
        exact fun q time others accepted hin =>
          hd.fresh q time others accepted (by simpa using hin)
  | some entered =>
      obtain ⟨radio, d'⟩ := entered
      obtain ⟨hnone, hnear⟩ := hstranded radio d' hentering
      rw [step_of_entering hentering]
      exact handedFresh_pump (sane_entering hd.accounted.numbered hd.sane hentering).1 hnear hnone
        (handedFresh_entering hd.accounted.numbered hd.fresh hentering)

end Dispatcher

end Coreletd.Mesh
