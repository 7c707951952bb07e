/-
# The pump as an event finds it

`send` pumps after it has inserted, the timer and a reconfiguration pump at once.
Results about what the pump transmits speak of the queue it is entered with.
Since `send` admits only packets that fit the wire, the pump never meets an
oversized one and does not call itself.
-/

import Coreletd.Mesh.TransmitResult

namespace Coreletd.Mesh.Dispatcher

open Coreletd.Crypto
open Coreletd.Library
open Coreletd.Library.SerialClock
open Coreletd.Proto

universe u v

variable {H : Type u} {σ : Type v} {call : Handler H σ} {radio : RadioView}

/-- The radio's answers and the state with which an event enters the pump. -/
def entering (lib : Library) (call : Handler H σ) (d : Dispatcher H σ) :
    Event H → Option (RadioView × Dispatcher H σ)
  | .send p priority delayMs onResult radio =>
      if p.valid then
        let d := (d.checkAndMarkSeen lib p).2
        some (radio, enqueue call d (d.entry p priority delayMs onResult))
      else none
  | .pumpTimer radio =>
      if d.pumpTimer then some (radio, { d with pumpTimer := false, pumpDueMs := 0 }) else none
  | .reconfigure percent radio => some (radio, { d with duty := { d.duty with percent } })
  | _ => none

theorem step_of_entering {lib : Library} {d d' : Dispatcher H σ} {event : Event H}
    (hentering : entering lib call d event = some (radio, d')) :
    step lib call d event = pump call radio d' := by
  cases event with
  | send p priority delayMs onResult radio' =>
      rw [entering] at hentering
      split at hentering
      · rename_i hvalid
        obtain ⟨rfl, rfl⟩ := Prod.mk.inj (Option.some.inj hentering)
        rw [step, send, hvalid]
        rfl
      · simp at hentering
  | pumpTimer radio' =>
      rw [entering] at hentering
      split at hentering
      · rename_i harmed
        obtain ⟨rfl, rfl⟩ := Prod.mk.inj (Option.some.inj hentering)
        rw [step, onPumpTimer, if_pos harmed]
      · simp at hentering
  | reconfigure percent radio' =>
      obtain ⟨rfl, rfl⟩ := Prod.mk.inj (Option.some.inj hentering)
      rfl
  | tick ms => simp [entering] at hentering
  | txDone airtimeMs random => simp [entering] at hentering
  | rx raw rssi snrQ4 => simp [entering] at hentering
  | sweep => simp [entering] at hentering

/-- An event that does not pump leaves the queue alone, and adds to the trace at
most that a transmission is over. -/
theorem step_of_not_entering {lib : Library} {d : Dispatcher H σ} {event : Event H}
    (hentering : entering lib call d event = none) :
    (step lib call d event).queue = d.queue ∧ d.time ≤ (step lib call d event).time ∧
      ((step lib call d event).trace = d.trace ∨
        ∃ time airtimeMs, (step lib call d event).trace = .txDone time airtimeMs :: d.trace) := by
  cases event with
  | send p priority delayMs onResult radio' =>
      rw [entering] at hentering
      split at hentering
      · simp at hentering
      · rename_i hvalid
        rw [step, send, if_pos (by simpa using hvalid)]
        exact ⟨rfl, Nat.le_refl _, .inl rfl⟩
  | pumpTimer radio' =>
      rw [entering] at hentering
      split at hentering
      · simp at hentering
      · rename_i harmed
        rw [step, onPumpTimer, if_neg harmed]
        exact ⟨rfl, Nat.le_refl _, .inl rfl⟩
  | reconfigure percent radio' => simp [entering] at hentering
  | tick ms => exact ⟨rfl, Nat.le_add_right _ _, .inl rfl⟩
  | txDone airtimeMs random =>
      rw [step, onRadioTxDone, schedulePump_queue, schedulePump_time, schedulePump_trace]
      exact ⟨rfl, Nat.le_refl _, .inr ⟨d.time, airtimeMs, rfl⟩⟩
  | rx raw rssi snrQ4 =>
      have hquiet := quietly_onRadioRx lib d raw rssi snrQ4
      exact ⟨hquiet.queue, Nat.le_of_eq hquiet.time.symm, .inl hquiet.trace⟩
  | sweep => exact ⟨rfl, Nat.le_refl _, .inl rfl⟩

/-! ## Packets fit, and clocks agree with numbers -/

/-- Every queued packet fits the wire and was queued in the past, in the order
of the sequence numbers. -/
structure Sane (d : Dispatcher H σ) : Prop where
  valid : ∀ q ∈ d.queue, q.packet.valid = true
  past : ∀ q ∈ d.queue, q.queuedAt ≤ d.time
  ordered : ∀ a ∈ d.queue, ∀ b ∈ d.queue, a.seq < b.seq → a.queuedAt ≤ b.queuedAt

variable {d : Dispatcher H σ}

/-- Sanity is about which packets are queued, not where. -/
theorem Sane.of_subset (hd : d.Sane) {d' : Dispatcher H σ} (htime : d.time ≤ d'.time)
    (hsub : ∀ q ∈ d'.queue, q ∈ d.queue) : d'.Sane where
  valid := fun q hq => hd.valid q (hsub q hq)
  past := fun q hq => Nat.le_trans (hd.past q (hsub q hq)) htime
  ordered := fun a ha b hb => hd.ordered a (hsub a ha) b (hsub b hb)

theorem Sane.quietly (hd : d.Sane) {d' : Dispatcher H σ} (hquiet : Quietly d d') : d'.Sane :=
  hd.of_subset (Nat.le_of_eq hquiet.time.symm) fun q hq => by
    rw [← hquiet.queue]
    exact hq

theorem Sane.inserted (hd : d.Sane) (hnumbered : d.Numbered) {p : Packet}
    (hvalid : p.valid = true) (priority : UInt8) (delayMs : UInt32) (onResult : Option H) :
    (d.inserted (d.entry p priority delayMs onResult)).Sane := by
  have hmem : ∀ q, q ∈ (d.inserted (d.entry p priority delayMs onResult)).queue ↔
      q = d.entry p priority delayMs onResult ∨ q ∈ d.queue := fun q => mem_insertAtUpperBound
  constructor
  · intro q hq
    rcases (hmem q).mp hq with rfl | hold
    · exact hvalid
    · exact hd.valid q hold
  · intro q hq
    rcases (hmem q).mp hq with rfl | hold
    · exact Nat.le_refl _
    · exact hd.past q hold
  · intro a ha b hb hlt
    rcases (hmem a).mp ha with rfl | haold
    · rcases (hmem b).mp hb with rfl | hbold
      · exact Nat.le_refl _
      · exact absurd (hnumbered.below b hbold) (Nat.not_lt.mpr (Nat.le_of_lt hlt))
    · rcases (hmem b).mp hb with rfl | hbold
      · exact hd.past a haold
      · exact hd.ordered a haold b hbold hlt

theorem Sane.transmit (hd : d.Sane) {d' : Dispatcher H σ} {ahead behind : List (Queued H)}
    {q : Queued H} (hquiet : Quietly d d') (hselected : Selected radio d ahead q behind) :
    (transmit call radio { d' with queue := ahead ++ behind } q).Sane := by
  refine hd.of_subset ?_ fun other hother => ?_
  · rw [transmit_time, hquiet.time]
  · rw [transmit_queue] at hother
    rw [hselected.split]
    split at hother
    · simp only [List.mem_append, List.mem_cons] at hother ⊢
      tauto
    · simp only [List.mem_append, List.mem_cons] at hother ⊢
      tauto

theorem sane_step (lib : Library) (call : Handler H σ) (haccounted : d.Accounted) (hd : d.Sane)
    (event : Event H) : (step lib call d event).Sane := by
  apply step_rule (P := fun d : Dispatcher H σ => d.Accounted ∧ d.Sane)
    (fun d hd => hd.2) (fun d hd => hd.1.numbered)
  · intro d d' hquiet hd
    exact ⟨hd.1.quietly hquiet, hd.2.quietly hquiet⟩
  · intro d ahead q behind reason hsplit _ hd
    refine ⟨hd.1.discard hsplit reason, hd.2.of_subset ?_ fun other hother => ?_⟩
    · rw [discard_time]
    · rw [discard_queue] at hother
      rw [hsplit]
      simp only [List.mem_append, List.mem_cons] at hother ⊢
      tauto
  · exact fun radio _ d d' ahead q behind _ hquiet hselected hd => hd.2.transmit hquiet hselected
  · intro p priority delayMs onResult radio _ hvalid d hd
    exact ⟨hd.1.inserted rfl, hd.2.inserted hd.1.numbered hvalid priority delayMs onResult⟩
  · exact fun ms _ d hd => hd.2.of_subset (Nat.le_add_right _ _) fun _ hq => hq
  · intro airtimeMs random _ d hd
    refine hd.2.of_subset ?_ fun q hq => ?_
    · rw [onRadioTxDone, schedulePump_time]
    · rw [onRadioTxDone, schedulePump_queue] at hq
      exact hq
  · intro percent radio _ d hd
    exact ⟨{ hd.1 with numbered := ⟨hd.1.numbered.distinct, hd.1.numbered.below⟩ },
      hd.2.of_subset (Nat.le_refl _) fun _ hq => hq⟩
  · exact ⟨haccounted, hd⟩

/-- An event enters the pump with the queue it found, or `send` with a packet
more, from which one may have been evicted. -/
theorem entering_cases {lib : Library} {d' : Dispatcher H σ} {event : Event H}
    (hnumbered : d.Numbered) (hentering : entering lib call d event = some (radio, d')) :
    (d'.time = d.time ∧ d'.queue = d.queue ∧ d'.trace = d.trace) ∨
    ∃ p priority delayMs onResult marked, p.valid = true ∧ Quietly d marked ∧
      (d' = marked.inserted (marked.entry p priority delayMs onResult) ∨
        ∃ ahead chosen behind,
          (marked.inserted (marked.entry p priority delayMs onResult)).queue =
            ahead ++ chosen :: behind ∧
          d' = discard call
            { marked.inserted (marked.entry p priority delayMs onResult) with
              queue := ahead ++ behind } chosen .evicted) := by
  cases event with
  | send p priority delayMs onResult radio' =>
      rw [entering] at hentering
      split at hentering
      · rename_i hvalid
        obtain ⟨-, rfl⟩ := Prod.mk.inj (Option.some.inj hentering)
        have hmarked := quietly_checkAndMarkSeen lib d p
        refine .inr ⟨p, priority, delayMs, onResult, _, hvalid, hmarked, ?_⟩
        rcases enqueue_cases call (hnumbered.quietly hmarked)
            (show ((d.checkAndMarkSeen lib p).2.entry p priority delayMs onResult).seq = _
              from rfl) with
          ⟨-, hkept⟩ | ⟨-, ahead, chosen, behind, hsplit, hevicted⟩
        · exact .inl hkept
        · exact .inr ⟨ahead, chosen, behind, hsplit, hevicted⟩
      · simp at hentering
  | pumpTimer radio' =>
      rw [entering] at hentering
      split at hentering
      · obtain ⟨-, rfl⟩ := Prod.mk.inj (Option.some.inj hentering)
        exact .inl ⟨rfl, rfl, rfl⟩
      · simp at hentering
  | reconfigure percent radio' =>
      obtain ⟨-, rfl⟩ := Prod.mk.inj (Option.some.inj hentering)
      exact .inl ⟨rfl, rfl, rfl⟩
  | tick ms => simp [entering] at hentering
  | txDone airtimeMs random => simp [entering] at hentering
  | rx raw rssi snrQ4 => simp [entering] at hentering
  | sweep => simp [entering] at hentering

/-- What an event enters the pump with is as sane as what it found, and holds
nothing it did not find but what it queued itself. -/
theorem sane_entering {lib : Library} {d' : Dispatcher H σ} {event : Event H}
    (hnumbered : d.Numbered) (hd : d.Sane)
    (hentering : entering lib call d event = some (radio, d')) :
    d'.Sane ∧ d'.time = d.time ∧ ∀ q ∈ d'.queue, q ∈ d.queue ∨ q.queuedAt = d.time := by
  rcases entering_cases hnumbered hentering with
    ⟨htime, hqueue, -⟩ | ⟨p, priority, delayMs, onResult, marked, hvalid, hquiet, hkept⟩
  · refine ⟨hd.of_subset (Nat.le_of_eq htime.symm) fun q hq => ?_, htime, fun q hq => .inl ?_⟩
    · rw [← hqueue]
      exact hq
    · rw [← hqueue]
      exact hq
  · have hinserted := (hd.quietly hquiet).inserted (hnumbered.quietly hquiet) hvalid priority delayMs
      onResult
    have hmem : ∀ q ∈ (marked.inserted (marked.entry p priority delayMs onResult)).queue,
        q ∈ d.queue ∨ q.queuedAt = d.time := by
      intro q hq
      rcases mem_insertAtUpperBound.mp hq with rfl | hold
      · exact .inr hquiet.time
      · rw [hquiet.queue] at hold
        exact .inl hold
    rcases hkept with rfl | ⟨ahead, chosen, behind, hsplit, rfl⟩
    · exact ⟨hinserted, hquiet.time, hmem⟩
    · have hsub : ∀ q ∈ ahead ++ behind,
          q ∈ (marked.inserted (marked.entry p priority delayMs onResult)).queue := by
        intro q hq
        rw [hsplit]
        simp only [List.mem_append, List.mem_cons] at hq ⊢
        tauto
      refine ⟨hinserted.of_subset ?_ fun q hq => ?_, ?_, fun q hq => ?_⟩
      · rw [discard_time]
      · rw [discard_queue] at hq
        exact hsub q hq
      · rw [discard_time]
        exact hquiet.time
      · rw [discard_queue] at hq
        exact hmem q (hsub q hq)

/-! ## One turn of the pump -/

theorem dropExpired_queue (call : Handler H σ) (now : UInt32) (queue : List (Queued H))
    (d : Dispatcher H σ) :
    (dropExpired call now queue d).queue = queue.dropWhile (·.expired now) := by
  induction queue generalizing d with
  | nil => rfl
  | cons q rest ih =>
      rw [dropExpired, List.dropWhile_cons]
      split
      · exact ih _
      · rfl

/-- Dropping what expired adds only drops and their reports to the trace. -/
theorem dropExpired_trace (call : Handler H σ) (now : UInt32) (queue : List (Queued H))
    (d : Dispatcher H σ) :
    (dropExpired call now queue d).time = d.time ∧
      ∀ q time others accepted, .handed q time others accepted ∈
        (dropExpired call now queue d).trace → .handed q time others accepted ∈ d.trace := by
  induction queue generalizing d with
  | nil => exact ⟨rfl, fun _ _ _ _ hin => hin⟩
  | cons q rest ih =>
      rw [dropExpired]
      split
      · obtain ⟨htime, htrace⟩ := ih (discard call { d with queue := rest } q .expired)
        rw [discard_time] at htime
        refine ⟨htime, fun other time others accepted hin => ?_⟩
        have hdropped := htrace other time others accepted hin
        rw [discard_trace] at hdropped
        simpa using hdropped
      · exact ⟨rfl, fun _ _ _ _ hin => hin⟩

/-- On packets that fit, the pump drops what expired at the front and then holds
or hands over the packet it selects. -/
theorem pump_cases (call : Handler H σ) (radio : RadioView) (hvalid : d.Sane) :
    pump call radio d = d ∨
    Quietly (dropExpired call d.nowMs d.queue d) (pump call radio d) ∨
    ∃ d' ahead q behind, Quietly (dropExpired call d.nowMs d.queue d) d' ∧
      Selected radio (dropExpired call d.nowMs d.queue d) ahead q behind ∧
      pump call radio d = transmit call radio { d' with queue := ahead ++ behind } q := by
  rw [pump, pumpWithin]
  split
  · exact .inl rfl
  · split
    · exact .inl rfl
    · rcases pumpSelected_cases call radio (pumpWithin call radio d.queue.length)
          (dropExpired call d.nowMs d.queue d) with
        hheld | ⟨d', ahead, q, behind, hquiet, hselected, ⟨hoversize, -⟩ | ⟨-, hsent⟩⟩
      · exact .inr (.inl hheld)
      · have hmem : q ∈ d.queue := by
          have hkept : q ∈ (dropExpired call d.nowMs d.queue d).queue := by
            rw [hselected.split]
            simp
          rw [dropExpired_queue] at hkept
          exact (List.dropWhile_sublist _).subset hkept
        have hfits := Packet.length_encode_le_of_valid (hvalid.valid q hmem)
        omega
      · exact .inr (.inr ⟨d', ahead, q, behind, hquiet, hselected, hsent⟩)

end Coreletd.Mesh.Dispatcher
