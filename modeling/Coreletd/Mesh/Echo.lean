/-
# Own transmissions that come back

A packet is marked as seen when it is queued, for one minute, and again each time
a copy of it is heard. Transmitting it marks nothing. So an echo is recognised
within a minute of the last mark, not of the transmission: a packet that was
held, by its backoff, a busy channel, the budget or a radio that is down, can
come back as new while its transmission is less than a minute old.
-/

import Coreletd.Mesh.DispatcherSteps

namespace Coreletd.Mesh.Dispatcher

open Coreletd.Crypto
open Coreletd.Library
open Coreletd.Library.SerialClock
open Coreletd.Proto

universe u v

variable {H : Type u} {σ : Type v} {call : Handler H σ} {radio : RadioView} {lib : Library}
  {d : Dispatcher H σ}

/-! ## The table through a step -/

/-- What only receptions and marks change: the table and the counts of receptions. -/
def heard (d : Dispatcher H σ) : (UInt32 → Option UInt32) × Nat × Nat × Nat :=
  (d.seen, d.stats.rxTotal, d.stats.rxBad, d.stats.rxDup)

theorem seen_of_heard {d' : Dispatcher H σ} (hheard : d'.heard = d.heard) : d'.seen = d.seen :=
  congrArg Prod.fst hheard

@[simp]
theorem schedulePump_heard (d : Dispatcher H σ) (delayMs : UInt32) :
    (d.schedulePump delayMs).heard = d.heard := by
  rw [schedulePump]
  split <;> rfl

@[simp]
theorem notify_heard (d : Dispatcher H σ) (q : Queued H) (transmitted : Bool) :
    (notify call d q transmitted).heard = d.heard := by
  rw [notify]
  split <;> rfl

@[simp]
theorem discard_heard (d : Dispatcher H σ) (q : Queued H) (reason : DropReason) :
    (discard call d q reason).heard = d.heard :=
  notify_heard _ _ _

theorem dropExpired_heard (now : UInt32) (queue : List (Queued H)) (d : Dispatcher H σ) :
    (dropExpired call now queue d).heard = d.heard := by
  induction queue generalizing d with
  | nil => rfl
  | cons q rest ih =>
      rw [dropExpired]
      split
      · rw [ih, discard_heard]
        rfl
      · rfl

theorem listen_heard (d : Dispatcher H σ) : (d.listen radio).2.heard = d.heard := by
  rw [listen]
  split
  · have hsince : (if d.busySinceMs = 0 then { d with busySinceMs := d.nowMs } else d).heard =
        d.heard := by
      split <;> rfl
    generalize (if d.busySinceMs = 0 then { d with busySinceMs := d.nowMs } else d) = since
      at hsince ⊢
    dsimp only
    split
    · exact (schedulePump_heard _ _).trans hsince
    · exact hsince
  · rfl

theorem transmit_heard (d : Dispatcher H σ) (q : Queued H) :
    (transmit call radio d q).heard = d.heard := by
  cases hok : radio.sendOk with
  | true =>
      rw [transmit_accepted _ _ _ hok, notify_heard]
      rfl
  | false =>
      rw [transmit_refused _ _ _ hok, schedulePump_heard]
      rfl

theorem pumpSelected_heard {again : Dispatcher H σ → Dispatcher H σ}
    (hagain : ∀ d, (again d).heard = d.heard) (d : Dispatcher H σ) :
    (pumpSelected call again radio d).heard = d.heard := by
  rw [pumpSelected]
  split
  · rfl
  · split
    · exact schedulePump_heard _ _
    · split
      · exact schedulePump_heard _ _
      · dsimp only
        split
        · exact schedulePump_heard _ _
        · split
          · rw [listen_heard]
            rfl
          · split
            · rw [hagain, discard_heard]
              exact listen_heard _
            · rw [transmit_heard]
              exact listen_heard _

/-- The pump marks nothing, whatever it transmits. -/
@[simp]
theorem pump_heard (d : Dispatcher H σ) : (pump call radio d).heard = d.heard := by
  have hwithin : ∀ (fuel : Nat) (d : Dispatcher H σ),
      (pumpWithin call radio fuel d).heard = d.heard := by
    intro fuel
    induction fuel with
    | zero => exact fun _ => rfl
    | succ fuel ih =>
        intro d
        rw [pumpWithin]
        split
        · rfl
        · split
          · rfl
          · rw [pumpSelected_heard ih, dropExpired_heard]
  exact hwithin _ d

theorem enqueue_heard (d : Dispatcher H σ) (q : Queued H) : (enqueue call d q).heard = d.heard := by
  rw [enqueue]
  dsimp only
  split
  · split
    · rfl
    · exact discard_heard _ _ _
  · rfl

theorem enqueue_time (d : Dispatcher H σ) (q : Queued H) : (enqueue call d q).time = d.time := by
  rw [enqueue]
  dsimp only
  split
  · split
    · rfl
    · exact discard_time _ _ _ _
  · rfl

/-! ## Marks -/

/-- The key packets are told apart by. -/
def dedupKey (lib : Library) (p : Packet) : UInt32 := packHash (p.dedupHash lib)

/-- Events that mark a key: a packet of it is taken on for sending, or heard. -/
def marks (lib : Library) (key : UInt32) : Event H → Bool
  | .send p _ _ _ _ => p.valid && decide (dedupKey lib p = key)
  | .rx raw _ _ => (Packet.decode raw).any fun p => dedupKey lib p = key
  | _ => false

/-- When a key was marked in the course of a run. -/
def markTimes (lib : Library) (call : Handler H σ) (key : UInt32) :
    Dispatcher H σ → List (Event H) → List Nat
  | _, [] => []
  | d, event :: events =>
      (if marks lib key event then [d.time] else []) ++
        markTimes lib call key (step lib call d event) events

/-- A mark less than a minute old is in the table, or a younger one is. -/
def Remembers (d : Dispatcher H σ) (key : UInt32) (times : List Nat) : Prop :=
  ∀ time ∈ times, d.time < time + 60000 →
    ∃ last, time ≤ last ∧ last ≤ d.time ∧ d.seen key = some (reading (last + 60000))

/-- Nothing happened to the key, and time may have passed. -/
theorem Remembers.later {key : UInt32} {times : List Nat} (hd : d.Remembers key times)
    {d' : Dispatcher H σ} (htime : d.time ≤ d'.time) (hseen : d'.seen key = d.seen key) :
    d'.Remembers key times := by
  intro time hmem hyoung
  obtain ⟨last, hlast, hpast, hentry⟩ := hd time hmem (by omega)
  exact ⟨last, hlast, hpast.trans htime, hseen.trans hentry⟩

/-- A new mark stands for all older ones. -/
theorem remembers_of_marked {key : UInt32} {times : List Nat}
    (hpast : ∀ time ∈ times, time ≤ d.time)
    (hseen : d.seen key = some (reading (d.time + 60000))) : d.Remembers key times := by
  intro time hmem _
  exact ⟨d.time, hpast time hmem, le_rfl, hseen⟩

/-- A mark is put on the packet's own key. -/
theorem seen_checkAndMarkSeen (lib : Library) (d : Dispatcher H σ) (key : UInt32) (p : Packet) :
    (d.checkAndMarkSeen lib p).2.seen key =
      if dedupKey lib p = key then some (reading (d.time + 60000)) else d.seen key := by
  have hexpiry : d.nowMs + kSeenTtlMs = reading (d.time + 60000) := reading_add_word _ _
  simp only [checkAndMarkSeen, hexpiry, dedupKey, eq_comm]

/-- What an event does to a key: it marks it now, or leaves it alone, or sweeps it out
when its time is over. -/
inductive KeyStep (lib : Library) (d : Dispatcher H σ) (key : UInt32) (event : Event H)
    (d' : Dispatcher H σ) : Prop
  | marked (hmarks : marks lib key event = true) (htime : d'.time = d.time)
      (hseen : d'.seen key = some (reading (d.time + 60000)))
  | kept (hmarks : marks lib key event = false) (htime : d.time ≤ d'.time)
      (hseen : d'.seen key = d.seen key)
  | swept (hmarks : marks lib key event = false) (htime : d.time ≤ d'.time) (expiry : UInt32)
      (hseen : d.seen key = some expiry) (hover : signed (expiry - d.nowMs) ≤ 0)

theorem KeyStep.time_le {lib : Library} {d d' : Dispatcher H σ} {key : UInt32} {event : Event H}
    (hstep : KeyStep lib d key event d') : d.time ≤ d'.time := by
  cases hstep with
  | marked hmarks htime hseen => exact htime.ge
  | kept hmarks htime hseen => exact htime
  | swept hmarks htime expiry hseen hover => exact htime

/-- What any event but a sweep does to a key: it marks it, or leaves it alone. -/
theorem touched_of_marking {lib : Library} {d d' : Dispatcher H σ} {key : UInt32}
    {event : Event H} {p : Packet}
    (hmarks : marks lib key event = decide (dedupKey lib p = key)) (htime : d'.time = d.time)
    (hseen : d'.seen key = (d.checkAndMarkSeen lib p).2.seen key) :
    (marks lib key event = true ∧ d'.time = d.time ∧
        d'.seen key = some (reading (d.time + 60000))) ∨
      (marks lib key event = false ∧ d.time ≤ d'.time ∧ d'.seen key = d.seen key) := by
  rw [seen_checkAndMarkSeen] at hseen
  by_cases hkey : dedupKey lib p = key
  · rw [if_pos hkey] at hseen
    exact .inl ⟨by simpa [hkey] using hmarks, htime, hseen⟩
  · rw [if_neg hkey] at hseen
    exact .inr ⟨by simpa [hkey] using hmarks, htime.ge, hseen⟩

theorem touched (lib : Library) (call : Handler H σ) (d : Dispatcher H σ) (key : UInt32)
    {event : Event H} (hevent : event ≠ .sweep) :
    (marks lib key event = true ∧ (step lib call d event).time = d.time ∧
        (step lib call d event).seen key = some (reading (d.time + 60000))) ∨
      (marks lib key event = false ∧ d.time ≤ (step lib call d event).time ∧
        (step lib call d event).seen key = d.seen key) := by
  cases event with
  | tick ms => exact .inr ⟨rfl, Nat.le_add_right _ _, rfl⟩
  | send p priority delayMs onResult radio =>
      rw [step, send]
      split
      · next hinvalid =>
        simp only [Bool.not_eq_true'] at hinvalid
        exact .inr ⟨by simp [marks, hinvalid], le_rfl, rfl⟩
      · next hvalid =>
        simp only [Bool.not_eq_true', Bool.not_eq_false] at hvalid
        refine touched_of_marking (p := p) (by simp [marks, hvalid]) ?_ ?_
        · rw [pump_time, enqueue_time]
          rfl
        · rw [seen_of_heard (pump_heard _), seen_of_heard (enqueue_heard _ _)]
  | pumpTimer radio =>
      rw [step, onPumpTimer]
      split
      · exact .inr ⟨rfl, by rw [pump_time], by rw [seen_of_heard (pump_heard _)]⟩
      · exact .inr ⟨rfl, le_rfl, rfl⟩
  | txDone airtimeMs random =>
      rw [step, onRadioTxDone]
      exact .inr ⟨rfl, by rw [schedulePump_time], by rw [seen_of_heard (schedulePump_heard _ _)]⟩
  | reconfigure percent radio =>
      rw [step, reconfigure]
      exact .inr ⟨rfl, by rw [pump_time], by rw [seen_of_heard (pump_heard _)]⟩
  | rx raw rssi snrQ4 =>
      have htime : (step lib call d (.rx raw rssi snrQ4)).time = d.time :=
        (quietly_onRadioRx lib d raw rssi snrQ4).time
      cases hdecode : Packet.decode raw with
      | none =>
          refine .inr ⟨by simp [marks, hdecode], htime.ge, ?_⟩
          rw [step, onRadioRx, hdecode]
      | some p =>
          refine touched_of_marking (p := p) (by simp [marks, hdecode]) htime ?_
          rw [step, (onRadioRx_decoded lib hdecode d rssi snrQ4).2]
  | sweep => exact absurd rfl hevent

theorem keyStep (lib : Library) (call : Handler H σ) (d : Dispatcher H σ) (key : UInt32)
    (event : Event H) : KeyStep lib d key event (step lib call d event) := by
  by_cases hevent : event = .sweep
  · subst hevent
    rw [step, expireSeen]
    cases hentry : d.seen key with
    | none => exact .kept rfl le_rfl (by simp [hentry])
    | some expiry =>
        by_cases hover : signed (expiry - d.nowMs) ≤ 0
        · exact .swept rfl le_rfl expiry hentry hover
        · exact .kept rfl le_rfl (by simp [hentry, hover])
  · rcases touched lib call d key hevent with ⟨hmarks, htime, hseen⟩ | ⟨hmarks, htime, hseen⟩
    · exact .marked hmarks htime hseen
    · exact .kept hmarks htime hseen

theorem Remembers.step {key : UInt32} {times : List Nat} (hd : d.Remembers key times)
    (hpast : ∀ time ∈ times, time ≤ d.time) (event : Event H) :
    (step lib call d event).Remembers key
      (times ++ if marks lib key event then [d.time] else []) := by
  cases keyStep lib call d key event with
  | marked hmarks htime hseen =>
    apply remembers_of_marked
    · intro time hmem
      rw [htime]
      rcases List.mem_append.mp hmem with hold | hnew
      · exact hpast time hold
      · rw [if_pos hmarks] at hnew
        exact (List.mem_singleton.mp hnew).le
    · rw [hseen, htime]
  | kept hmarks htime hseen =>
    rw [if_neg (by simp [hmarks]), List.append_nil]
    exact hd.later htime hseen
  | swept hmarks htime expiry hentry hover =>
    rw [if_neg (by simp [hmarks]), List.append_nil]
    -- What a sweep takes out is a minute old, and so is every mark before it.
    intro time hmem hyoung
    obtain ⟨last, hlast, hpast', hentry'⟩ := hd time hmem (by omega)
    obtain rfl := Option.some.inj (hentry.symm.trans hentry')
    have hahead : 0 < signed (reading (last + 60000) - reading d.time) :=
      signed_sub_pos_of_ahead (by omega) (by omega)
    exact absurd hover (not_le.mpr hahead)

/-- What a run has marked less than a minute ago, its table still holds. -/
theorem remembers_run (lib : Library) (call : Handler H σ) (key : UInt32)
    (events : List (Event H)) : ∀ (d : Dispatcher H σ) (times : List Nat), d.Remembers key times →
      (∀ time ∈ times, time ≤ d.time) →
      (run (step lib call) d events).Remembers key (times ++ markTimes lib call key d events) := by
  induction events with
  | nil =>
      intro d times hd _
      rw [markTimes, List.append_nil]
      exact hd
  | cons event events ih =>
      intro d times hd hpast
      rw [run_cons, markTimes, ← List.append_assoc]
      refine ih _ _ (hd.step hpast event) fun time hmem => ?_
      have htime := (keyStep lib call d key event).time_le
      rcases List.mem_append.mp hmem with hold | hnew
      · exact (hpast time hold).trans htime
      · split at hnew
        · exact (List.mem_singleton.mp hnew).le.trans htime
        · simp at hnew

/-! ## Echoes -/

/-- After a run, a received packet is the echo of one the radio accepted less than a
minute ago. -/
structure EchoAfter (lib : Library) (call : Handler H σ) (start : Dispatcher H σ)
    (events : List (Event H)) (raw : Bytes) (p : Packet) : Prop where
  decoded : Packet.decode raw = some p
  sent : ∃ q time others,
    .handed q time others true ∈ (run (step lib call) start events).trace ∧
      p.dedupHash lib = q.packet.dedupHash lib ∧
      time < (run (step lib call) start events).time ∧
      (run (step lib call) start events).time < time + 60000

/-- A packet whose key was marked less than a minute ago is not handed up. -/
theorem onRadioRx_marked {start : Dispatcher H σ} {events : List (Event H)} {raw : Bytes}
    {p : Packet} (hdecode : Packet.decode raw = some p) {mark : Nat}
    (hmark : mark ∈ markTimes lib call (dedupKey lib p) start events)
    (hyoung : (run (step lib call) start events).time < mark + 60000) (rssi snrQ4 : Int) :
    ((run (step lib call) start events).onRadioRx lib raw rssi snrQ4).1 = none := by
  have hremembers := remembers_run lib call (dedupKey lib p) events start [] (by simp [Remembers])
    (by simp)
  obtain ⟨last, hlast, hpast, hentry⟩ := hremembers mark hmark hyoung
  rw [(onRadioRx_decoded lib hdecode _ rssi snrQ4).1, checkAndMarkSeen]
  have hahead : 0 < signed (reading (last + 60000) -
      reading (run (step lib call) start events).time) :=
    signed_sub_pos_of_ahead (by omega) (by omega)
  have hknown : decide (0 < signed (reading (last + 60000) -
      (run (step lib call) start events).nowMs)) = true := decide_eq_true hahead
  rw [dedupKey] at hentry
  simp only [hentry, hknown, if_true]

/-- **Own transmissions come back as known, within a minute of the last mark.** In
every run in which each echo of a transmission less than a minute old arrives
within a minute of the last time its packet was queued or heard, no such echo is
handed up. -/
theorem echoes_not_delivered (lib : Library) (call : Handler H σ) (percent : ℚ) (limit : Nat)
    (client : σ) (time : Nat) (events : List (Event H))
    (hprompt : ∀ before raw rssi snrQ4 after p, events = before ++ .rx raw rssi snrQ4 :: after →
      EchoAfter lib call (new percent limit client time) before raw p →
      ∃ mark ∈ markTimes lib call (dedupKey lib p) (new percent limit client time) before,
        (run (step lib call) (new percent limit client time) before).time < mark + 60000) :
    ∀ before raw rssi snrQ4 after p, events = before ++ .rx raw rssi snrQ4 :: after →
      EchoAfter lib call (new percent limit client time) before raw p →
      ((run (step lib call) (new percent limit client time) before).onRadioRx lib raw rssi
        snrQ4).1 = none := by
  intro before raw rssi snrQ4 after p hsplit hecho
  obtain ⟨mark, hmark, hyoung⟩ := hprompt before raw rssi snrQ4 after p hsplit hecho
  exact onRadioRx_marked hecho.decoded hmark hyoung rssi snrQ4

/-! ## Held for half a minute -/

def heldPacket : Packet := { type := .grpTxt, payload := [1, 2, 3, 4, 5] }

/-- A flood waits thirty seconds for a radio that is down, and its echo takes
another thirty-five. -/
def heldRun : List (Event Unit) :=
  [.send heldPacket kPriorityFlood 0 none .down, .tick 30000, .pumpTimer (.idle 100), .tick 35000]

/-- The radio accepted that packet at a given time. -/
def heldSentAt (time : Nat) : TxEvent Unit → Bool :=
  isHanded fun q sentAt accepted =>
    decide (q.packet = heldPacket) && decide (sentAt = time) && accepted

theorem exists_of_heldSentAt {time : Nat} {trace : List (TxEvent Unit)}
    (hany : trace.any (heldSentAt time) = true) :
    ∃ q others, .handed q time others true ∈ trace ∧ q.packet = heldPacket := by
  obtain ⟨q, sentAt, others, accepted, hin, hsent⟩ := exists_of_isHanded hany
  simp only [Bool.and_eq_true, decide_eq_true_eq] at hsent
  obtain ⟨⟨hpacket, rfl⟩, rfl⟩ := hsent
  exact ⟨q, others, hin, hpacket⟩

/-- The dispatcher hands the echo up as a new packet. -/
theorem echo_delivered_when_held :
    EchoAfter Library.transparent (fun _ client _ _ => client) (new 10 128 () 0) heldRun
        heldPacket.encode heldPacket ∧
      ((run (step Library.transparent fun _ client _ _ => client) (new 10 128 () 0)
        heldRun).onRadioRx Library.transparent heldPacket.encode 0 0).1 = some heldPacket := by
  have hsent : (run (step Library.transparent fun _ client _ _ => client) (new 10 128 () 0)
      heldRun).trace.any (heldSentAt 30000) = true := by decide +kernel
  obtain ⟨q, others, hin, hpacket⟩ := exists_of_heldSentAt hsent
  refine ⟨⟨by decide +kernel, q, 30000, others, hin, ?_, by decide +kernel, by decide +kernel⟩,
    by decide +kernel⟩
  rw [hpacket]

/-- The same flood sent at once: its echo is known. -/
theorem echoes_not_delivered_prompt :
    ((run (step Library.transparent fun _ client _ _ => client) (new 10 128 () 0)
      [.send heldPacket kPriorityFlood 0 (none : Option Unit) (.idle 100),
        .tick 35000]).onRadioRx Library.transparent heldPacket.encode 0 0).1 = none := by
  have hsplits : ∀ (before : List (Event Unit)) raw rssi snrQ4 after,
      [.send heldPacket kPriorityFlood 0 none (.idle 100), .tick 35000,
        .rx heldPacket.encode 0 0] = before ++ .rx raw rssi snrQ4 :: after →
      before = [.send heldPacket kPriorityFlood 0 none (.idle 100), .tick 35000] ∧
        raw = heldPacket.encode := by
    intro before raw rssi snrQ4 after hsplit
    rcases before with _ | ⟨first, _ | ⟨second, _ | ⟨third, rest⟩⟩⟩
    · simp at hsplit
    · simp at hsplit
    · simp only [List.cons_append, List.nil_append, List.cons.injEq, Event.rx.injEq] at hsplit
      obtain ⟨rfl, rfl, ⟨rfl, -⟩, -⟩ := hsplit
      exact ⟨rfl, rfl⟩
    · simp at hsplit
  refine echoes_not_delivered Library.transparent _ 10 128 () 0
    [.send heldPacket kPriorityFlood 0 none (.idle 100), .tick 35000, .rx heldPacket.encode 0 0]
    ?_ _ heldPacket.encode 0 0 [] heldPacket rfl ⟨by decide +kernel, ?_⟩
  · intro before raw rssi snrQ4 after p hsplit hecho
    obtain ⟨rfl, rfl⟩ := hsplits before raw rssi snrQ4 after hsplit
    obtain rfl : heldPacket = p := by
      have hdecode : Packet.decode heldPacket.encode = some heldPacket := by decide +kernel
      exact Option.some.inj (hdecode.symm.trans hecho.decoded)
    exact ⟨0, by decide +kernel, by decide +kernel⟩
  · have hsent : (run (step Library.transparent fun _ client _ _ => client) (new 10 128 () 0)
        [.send heldPacket kPriorityFlood 0 (none : Option Unit) (.idle 100),
          .tick 35000]).trace.any (heldSentAt 0) = true := by decide +kernel
    obtain ⟨q, others, hin, hpacket⟩ := exists_of_heldSentAt hsent
    refine ⟨q, 0, others, hin, ?_, by decide +kernel, by decide +kernel⟩
    rw [hpacket]

end Coreletd.Mesh.Dispatcher
