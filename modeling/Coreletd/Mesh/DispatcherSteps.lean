/-
# What one call of the dispatcher can do

Every operation is a sequence of a few moves: drop a packet that was in the
queue, hand one to the radio, insert one, or change only what no packet depends
on. The case lemmas say so once, and the rules derived from them reduce an
invariant to those moves.
-/

import Coreletd.Mesh.Dispatcher
import Mathlib.Data.List.Nodup

namespace Coreletd.Mesh.Dispatcher

open Coreletd.Crypto
open Coreletd.Library
open Coreletd.Proto
open Coreletd.Radio

universe u v

variable {H : Type u} {σ : Type v} {call : Handler H σ} {radio : RadioView}

/-! ## Handing over -/

/-- A packet was handed to the radio, and the handing over passes a test. -/
def isHanded (test : Queued H → Nat → Bool → Bool) : TxEvent H → Bool
  | .handed q time _ accepted => test q time accepted
  | _ => false

theorem exists_of_isHanded {test : Queued H → Nat → Bool → Bool} {trace : List (TxEvent H)}
    (hany : trace.any (isHanded test) = true) :
    ∃ q time others accepted, .handed q time others accepted ∈ trace ∧
      test q time accepted = true := by
  obtain ⟨event, hin, htest⟩ := List.any_eq_true.mp hany
  cases event with
  | handed q time others accepted => exact ⟨q, time, others, accepted, hin, htest⟩
  | _ => exact absurd htest Bool.false_ne_true

/-! ## Frames -/

section Frames

variable (call) (d : Dispatcher H σ) (q : Queued H)

@[simp]
theorem schedulePump_time (delayMs : UInt32) :
    (d.schedulePump delayMs).time = d.time := by
  rw [schedulePump]
  split <;> rfl

@[simp]
theorem schedulePump_queue (delayMs : UInt32) :
    (d.schedulePump delayMs).queue = d.queue := by
  rw [schedulePump]
  split <;> rfl

@[simp]
theorem schedulePump_queueLimit (delayMs : UInt32) :
    (d.schedulePump delayMs).queueLimit = d.queueLimit := by
  rw [schedulePump]
  split <;> rfl

@[simp]
theorem schedulePump_nextSeq (delayMs : UInt32) :
    (d.schedulePump delayMs).nextSeq = d.nextSeq := by
  rw [schedulePump]
  split <;> rfl

@[simp]
theorem schedulePump_client (delayMs : UInt32) :
    (d.schedulePump delayMs).client = d.client := by
  rw [schedulePump]
  split <;> rfl

@[simp]
theorem schedulePump_trace (delayMs : UInt32) :
    (d.schedulePump delayMs).trace = d.trace := by
  rw [schedulePump]
  split <;> rfl

@[simp]
theorem schedulePump_inFlight (delayMs : UInt32) :
    (d.schedulePump delayMs).inFlight = d.inFlight := by
  rw [schedulePump]
  split <;> rfl

@[simp]
theorem schedulePump_duty (delayMs : UInt32) :
    (d.schedulePump delayMs).duty = d.duty := by
  rw [schedulePump]
  split <;> rfl

@[simp]
theorem schedulePump_busySinceMs (delayMs : UInt32) :
    (d.schedulePump delayMs).busySinceMs = d.busySinceMs := by
  rw [schedulePump]
  split <;> rfl

@[simp]
theorem notify_busySinceMs (transmitted : Bool) :
    (notify call d q transmitted).busySinceMs = d.busySinceMs := by
  rw [notify]
  split <;> rfl

@[simp]
theorem notify_time (transmitted : Bool) :
    (notify call d q transmitted).time = d.time := by
  rw [notify]
  split <;> rfl

@[simp]
theorem notify_queue (transmitted : Bool) :
    (notify call d q transmitted).queue = d.queue := by
  rw [notify]
  split <;> rfl

@[simp]
theorem notify_queueLimit (transmitted : Bool) :
    (notify call d q transmitted).queueLimit = d.queueLimit := by
  rw [notify]
  split <;> rfl

@[simp]
theorem notify_nextSeq (transmitted : Bool) :
    (notify call d q transmitted).nextSeq = d.nextSeq := by
  rw [notify]
  split <;> rfl

@[simp]
theorem notify_inFlight (transmitted : Bool) :
    (notify call d q transmitted).inFlight = d.inFlight := by
  rw [notify]
  split <;> rfl

@[simp]
theorem notify_duty (transmitted : Bool) :
    (notify call d q transmitted).duty = d.duty := by
  rw [notify]
  split <;> rfl

@[simp]
theorem notify_trace (transmitted : Bool) :
    (notify call d q transmitted).trace =
      (q.onResult.toList.map fun handler => .called q.seq handler transmitted) ++ d.trace := by
  rw [notify]
  cases q.onResult <;> rfl

@[simp]
theorem discard_time (reason : DropReason) : (discard call d q reason).time = d.time :=
  notify_time _ _ _ _

@[simp]
theorem discard_queue (reason : DropReason) : (discard call d q reason).queue = d.queue :=
  notify_queue _ _ _ _

@[simp]
theorem discard_queueLimit (reason : DropReason) :
    (discard call d q reason).queueLimit = d.queueLimit :=
  notify_queueLimit _ _ _ _

@[simp]
theorem discard_nextSeq (reason : DropReason) : (discard call d q reason).nextSeq = d.nextSeq :=
  notify_nextSeq _ _ _ _

@[simp]
theorem discard_inFlight (reason : DropReason) : (discard call d q reason).inFlight = d.inFlight :=
  notify_inFlight _ _ _ _

@[simp]
theorem discard_duty (reason : DropReason) : (discard call d q reason).duty = d.duty :=
  notify_duty _ _ _ _

@[simp]
theorem discard_trace (reason : DropReason) :
    (discard call d q reason).trace =
      (q.onResult.toList.map fun handler => .called q.seq handler false) ++
        .dropped q d.time reason :: d.trace :=
  notify_trace _ _ _ _

/-- A refused packet is back at the front of the queue, and the pump will run
again shortly. -/
theorem transmit_refused (hrefused : radio.sendOk = false) :
    transmit call radio d q =
      schedulePump
        { d with
          queue := q :: d.queue
          trace := .handed q d.time d.queue false :: d.trace } 20 := by
  rw [transmit, hrefused]
  rfl

/-- An accepted packet is on the air, and its handler knows. -/
theorem transmit_accepted (haccepted : radio.sendOk = true) :
    transmit call radio d q =
      notify call
        { d with
          stats := { d.stats with
            txTotal := d.stats.txTotal + 1
            txFlood := d.stats.txFlood + if q.packet.isFlood then 1 else 0
            txDirect := d.stats.txDirect + if q.packet.isFlood then 0 else 1 }
          inFlight := some (radio.airtimeMs q.packet.encode.length)
          trace := .handed q d.time d.queue true :: d.trace } q true := by
  rw [transmit, haccepted]
  rfl

@[simp]
theorem transmit_time : (transmit call radio d q).time = d.time := by
  cases hok : radio.sendOk with
  | true => rw [transmit_accepted _ _ _ hok, notify_time]
  | false => rw [transmit_refused _ _ _ hok, schedulePump_time]

@[simp]
theorem transmit_duty : (transmit call radio d q).duty = d.duty := by
  cases hok : radio.sendOk with
  | true => rw [transmit_accepted _ _ _ hok, notify_duty]
  | false => rw [transmit_refused _ _ _ hok, schedulePump_duty]

@[simp]
theorem transmit_queueLimit : (transmit call radio d q).queueLimit = d.queueLimit := by
  cases hok : radio.sendOk with
  | true => rw [transmit_accepted _ _ _ hok, notify_queueLimit]
  | false => rw [transmit_refused _ _ _ hok, schedulePump_queueLimit]

theorem transmit_queue :
    (transmit call radio d q).queue = if radio.sendOk then d.queue else q :: d.queue := by
  cases hok : radio.sendOk with
  | true =>
      rw [transmit_accepted _ _ _ hok, notify_queue]
      rfl
  | false =>
      rw [transmit_refused _ _ _ hok, schedulePump_queue]
      rfl

/-- The radio's answer is on record, and a handler is told if it was yes. -/
theorem transmit_trace :
    (transmit call radio d q).trace =
      (if radio.sendOk then q.onResult.toList.map fun handler => .called q.seq handler true
        else []) ++ .handed q d.time d.queue radio.sendOk :: d.trace := by
  cases hok : radio.sendOk with
  | true =>
      rw [transmit_accepted _ _ _ hok, notify_trace]
      rfl
  | false =>
      rw [transmit_refused _ _ _ hok, schedulePump_trace]
      rfl

@[simp]
theorem queued_mem_transmit {other : Queued H} :
    .queued other ∈ (transmit call radio d q).trace ↔ .queued other ∈ d.trace := by
  rw [transmit_trace]
  split <;> simp

@[simp]
theorem dropped_mem_transmit {other : Queued H} {time : Nat} {reason : DropReason} :
    .dropped other time reason ∈ (transmit call radio d q).trace ↔
      .dropped other time reason ∈ d.trace := by
  rw [transmit_trace]
  split <;> simp

theorem handed_mem_transmit {other : Queued H} {time : Nat} {others : List (Queued H)}
    {accepted : Bool} :
    .handed other time others accepted ∈ (transmit call radio d q).trace ↔
      (other = q ∧ time = d.time ∧ others = d.queue ∧ accepted = radio.sendOk) ∨
        .handed other time others accepted ∈ d.trace := by
  rw [transmit_trace]
  split <;> simp

end Frames

/-- Two states that differ only in timers, statistics, the record of a busy
channel and what pruning removes from the account. -/
structure Quietly (d d' : Dispatcher H σ) : Prop where
  time : d'.time = d.time
  queue : d'.queue = d.queue
  queueLimit : d'.queueLimit = d.queueLimit
  nextSeq : d'.nextSeq = d.nextSeq
  client : d'.client = d.client
  trace : d'.trace = d.trace
  inFlight : d'.inFlight = d.inFlight
  duty : d'.duty = d.duty ∨ d'.duty = d.duty.prune d.time

namespace Quietly

theorem refl (d : Dispatcher H σ) : Quietly d d := ⟨rfl, rfl, rfl, rfl, rfl, rfl, rfl, .inl rfl⟩

variable {d d' : Dispatcher H σ}

/-- Arming the pump's timer is quiet. -/
theorem schedulePump (hquiet : Quietly d d') (delayMs : UInt32) :
    Quietly d (d'.schedulePump delayMs) := by
  constructor <;> simp only [schedulePump_time, schedulePump_queue, schedulePump_queueLimit,
    schedulePump_nextSeq, schedulePump_client, schedulePump_trace, schedulePump_inFlight,
    schedulePump_duty]
  exacts [hquiet.time, hquiet.queue, hquiet.queueLimit, hquiet.nextSeq, hquiet.client,
    hquiet.trace, hquiet.inFlight, hquiet.duty]

/-- Listening for a busy channel is quiet. -/
theorem listen (hquiet : Quietly d d') (radio : RadioView) : Quietly d (d'.listen radio).2 := by
  rw [Dispatcher.listen]
  split
  · have hsince : Quietly d
        (if d'.busySinceMs = 0 then { d' with busySinceMs := d'.nowMs } else d') := by
      split
      · exact ⟨hquiet.time, hquiet.queue, hquiet.queueLimit, hquiet.nextSeq, hquiet.client,
          hquiet.trace, hquiet.inFlight, hquiet.duty⟩
      · exact hquiet
    generalize (if d'.busySinceMs = 0 then { d' with busySinceMs := d'.nowMs } else d') = since
      at hsince ⊢
    dsimp only
    split
    · show Quietly d (Dispatcher.schedulePump _ _)
      apply schedulePump
      exact ⟨hsince.time, hsince.queue, hsince.queueLimit, hsince.nextSeq, hsince.client,
        hsince.trace, hsince.inFlight, hsince.duty⟩
    · exact ⟨hsince.time, hsince.queue, hsince.queueLimit, hsince.nextSeq, hsince.client,
        hsince.trace, hsince.inFlight, hsince.duty⟩
  · exact hquiet

end Quietly

/-- Asking the account how long to wait leaves it, or prunes it. -/
theorem waitMs_snd (now : Nat) (candidate : UInt32) (duty : DutyCycle) :
    (duty.waitMs now candidate).2 = duty ∨ (duty.waitMs now candidate).2 = duty.prune now := by
  rw [DutyCycle.waitMs]
  split
  · exact .inl rfl
  · right
    dsimp only
    split
    · rfl
    · split <;> rfl

/-- A packet the pump has selected in `d`: the first whose backoff is over, and
the radio is ready for it within the budget. -/
structure Selected (radio : RadioView) (d : Dispatcher H σ) (ahead : List (Queued H))
    (q : Queued H) (behind : List (Queued H)) : Prop where
  split : d.queue = ahead ++ q :: behind
  waiting : ∀ other ∈ ahead, other.due d.nowMs = false
  due : q.due d.nowMs = true
  ready : radio.ready = true
  hasFrequency : radio.hasFrequency = true
  fits : (d.duty.waitMs d.time (radio.airtimeMs q.packet.encode.length)).1 = 0

/-- Behind its first loop the pump holds, or takes the selected packet off the
queue and drops or transmits it. -/
theorem pumpSelected_cases (call : Handler H σ) (radio : RadioView)
    (again : Dispatcher H σ → Dispatcher H σ) (d : Dispatcher H σ) :
    Quietly d (pumpSelected call again radio d) ∨
    ∃ d' ahead q behind, Quietly d d' ∧ Selected radio d ahead q behind ∧
      (kMaxPacketSize < q.packet.encode.length ∧
          pumpSelected call again radio d =
            again (discard call { d' with queue := ahead ++ behind } q .oversize) ∨
        q.packet.encode.length ≤ kMaxPacketSize ∧
          pumpSelected call again radio d =
            transmit call radio { d' with queue := ahead ++ behind } q) := by
  rw [pumpSelected]
  split
  · exact .inl (.refl d)
  · split
    · exact .inl ((Quietly.refl d).schedulePump _)
    · rename_i hup
      have hready : radio.ready = true ∧ radio.hasFrequency = true := by simpa using hup
      split
      · exact .inl ((Quietly.refl d).schedulePump _)
      · rename_i q behind hselect
        have hduty := waitMs_snd d.time (radio.airtimeMs q.packet.encode.length) d.duty
        have hpruned : Quietly d { d with
            duty := (d.duty.waitMs d.time (radio.airtimeMs q.packet.encode.length)).2 } :=
          ⟨rfl, rfl, rfl, rfl, rfl, rfl, rfl, hduty⟩
        dsimp only
        split
        · exact .inl (hpruned.schedulePump _)
        · rename_i hwait
          have hlisten := hpruned.listen radio
          generalize Dispatcher.listen radio _ = listened at hlisten ⊢
          split
          · exact .inl hlisten
          · right
            have hsplit : d.queue.takeWhile (fun q => !q.due d.nowMs) ++ q :: behind = d.queue := by
              rw [← hselect, List.takeWhile_append_dropWhile]
            have hselected : Selected radio d (d.queue.takeWhile fun q => !q.due d.nowMs) q
                behind := by
              refine ⟨hsplit.symm, fun other hother => ?_, ?_, ?_, ?_, ?_⟩
              · have hnot := List.mem_takeWhile_imp hother
                simpa using hnot
              · have hhead := List.head?_dropWhile_not (fun q => !q.due d.nowMs) d.queue
                rw [hselect] at hhead
                simpa using hhead
              · exact hready.1
              · exact hready.2
              · simpa using hwait
            refine ⟨{ listened.2 with busySinceMs := 0 }, _, q, behind, ?_, hselected, ?_⟩
            · exact ⟨hlisten.time, hlisten.queue, hlisten.queueLimit, hlisten.nextSeq,
                hlisten.client, hlisten.trace, hlisten.inFlight, hlisten.duty⟩
            · split
              · rename_i hoversize
                exact .inl ⟨hoversize, rfl⟩
              · rename_i hsize
                exact .inr ⟨Nat.le_of_not_lt hsize, rfl⟩

/-! ## Rules for invariants -/

/-- What dropping each expired packet keeps, the first loop of the pump keeps. -/
theorem dropExpired_rule {P : Dispatcher H σ → Prop} {now : UInt32}
    (hdrop : ∀ d q rest, d.queue = q :: rest → q.expired now = true → P d →
      P (discard call { d with queue := rest } q .expired)) :
    ∀ (queue : List (Queued H)) (d : Dispatcher H σ), d.queue = queue → P d →
      P (dropExpired call now queue d) := by
  intro queue
  induction queue with
  | nil =>
      intro d hqueue hd
      rw [dropExpired, ← hqueue]
      exact hd
  | cons q rest ih =>
      intro d hqueue hd
      rw [dropExpired]
      split
      · rename_i hexpired
        exact ih _ (discard_queue _ _ _ _) (hdrop d q rest hqueue hexpired hd)
      · rw [← hqueue]
        exact hd

/-- What each move of the pump keeps, the pump keeps; its last move, a
transmission, may turn `P` into `Q`. -/
theorem pump_rule {P Q : Dispatcher H σ → Prop} (hdone : ∀ d, P d → Q d)
    (hquiet : ∀ d d', Quietly d d' → P d → P d')
    (hdiscard : ∀ d ahead q behind reason, d.queue = ahead ++ q :: behind →
      (reason = .oversize → kMaxPacketSize < q.packet.encode.length) → P d →
      P (discard call { d with queue := ahead ++ behind } q reason))
    (htransmit : ∀ d d' ahead q behind, radio.txBusy = false → Quietly d d' →
      Selected radio d ahead q behind → P d →
      Q (transmit call radio { d' with queue := ahead ++ behind } q))
    {d : Dispatcher H σ} (hd : P d) : Q (pump call radio d) := by
  have hwithin : ∀ (fuel : Nat) (d : Dispatcher H σ), P d → Q (pumpWithin call radio fuel d) := by
    intro fuel
    induction fuel with
    | zero => exact hdone
    | succ fuel ih =>
        intro d hd
        rw [pumpWithin]
        split
        · exact hdone d hd
        · split
          · exact hdone d hd
          · rename_i hidle
            have hdropped : P (dropExpired call d.nowMs d.queue d) :=
              dropExpired_rule
                (fun d q rest hqueue _ hd =>
                  hdiscard d [] q rest .expired hqueue (fun h => by simp at h) hd)
                d.queue d rfl hd
            rcases pumpSelected_cases call radio (pumpWithin call radio fuel)
                (dropExpired call d.nowMs d.queue d) with
              hheld | ⟨d', ahead, q, behind, hquiet', hselected, ⟨hlong, hagain⟩ | ⟨-, hsent⟩⟩
            · exact hdone _ (hquiet _ _ hheld hdropped)
            · rw [hagain]
              refine ih _ (hdiscard d' ahead q behind .oversize ?_ (fun _ => hlong)
                (hquiet _ _ hquiet' hdropped))
              rw [hquiet'.queue, hselected.split]
            · rw [hsent]
              exact htransmit _ d' ahead q behind (by simpa using hidle) hquiet' hselected hdropped
  exact hwithin _ d hd

@[simp]
theorem pump_time (d : Dispatcher H σ) : (pump call radio d).time = d.time := by
  refine pump_rule (P := fun d' => d'.time = d.time) (fun _ h => h) ?_ ?_ ?_ rfl
  · intro d' d'' hquiet hd'
    exact hquiet.time.trans hd'
  · intro d' ahead q behind reason _ _ hd'
    exact (discard_time _ _ _ _).trans hd'
  · intro d' d'' ahead q behind _ hquiet _ hd'
    exact (transmit_time _ _ q).trans (hquiet.time.trans hd')

/-! ## Inserting and evicting -/

/-- Every queued packet has its own sequence number, handed out before. -/
structure Numbered (d : Dispatcher H σ) : Prop where
  distinct : (d.queue.map (·.seq)).Nodup
  below : ∀ q ∈ d.queue, q.seq < d.nextSeq

theorem Numbered.quietly {d d' : Dispatcher H σ} (hd : d.Numbered) (hquiet : Quietly d d') :
    d'.Numbered := by
  constructor
  · rw [hquiet.queue]
    exact hd.distinct
  · rw [hquiet.queue, hquiet.nextSeq]
    exact hd.below

/-- The state of `send` between its insertion and its check of the limit. -/
def inserted (d : Dispatcher H σ) (q : Queued H) : Dispatcher H σ :=
  { d with
    queue := insertAtUpperBound q.before q d.queue
    nextSeq := d.nextSeq + 1
    trace := .queued q :: d.trace }

theorem victim_mem (first : Queued H) (rest : List (Queued H)) :
    victim first rest ∈ first :: rest := by
  induction rest generalizing first with
  | nil => exact List.mem_cons_self
  | cons q rest ih =>
      rw [victim]
      split
      · exact List.mem_cons_of_mem _ (ih q)
      · rcases List.mem_cons.mp (ih first) with hfirst | hrest
        · rw [hfirst]
          exact List.mem_cons_self
        · exact List.mem_cons_of_mem _ (List.mem_cons_of_mem _ hrest)

/-- Erasing the entry with a sequence number takes that entry out. -/
theorem eraseP_seq {queue : List (Queued H)} (hdistinct : (queue.map (·.seq)).Nodup)
    {chosen : Queued H} (hmem : chosen ∈ queue) :
    ∃ ahead behind, queue = ahead ++ chosen :: behind ∧
      queue.eraseP (·.seq = chosen.seq) = ahead ++ behind := by
  obtain ⟨found, ahead, behind, -, hseq, hsplit, herase⟩ :=
    List.exists_of_eraseP (p := fun q : Queued H => q.seq = chosen.seq) hmem (by simp)
  have hfound : found = chosen :=
    List.inj_on_of_nodup_map hdistinct (by rw [hsplit]; simp) hmem (by simpa using hseq)
  rw [hfound] at hsplit
  exact ⟨ahead, behind, hsplit, herase⟩

/-- `send` inserts, and with one packet too many also drops one. -/
theorem enqueue_cases (call : Handler H σ) {d : Dispatcher H σ} (hd : d.Numbered) {q : Queued H}
    (hseq : q.seq = d.nextSeq) :
    ((d.inserted q).queue.length ≤ d.queueLimit ∧ enqueue call d q = d.inserted q) ∨
    (d.queueLimit < (d.inserted q).queue.length ∧ ∃ ahead chosen behind,
      (d.inserted q).queue = ahead ++ chosen :: behind ∧
      enqueue call d q =
        discard call { d.inserted q with queue := ahead ++ behind } chosen .evicted) := by
  have hperm := insertAtUpperBound_perm q.before q d.queue
  have hdistinct : ((insertAtUpperBound q.before q d.queue).map (·.seq)).Nodup := by
    rw [(hperm.map _).nodup_iff, List.map_cons, List.nodup_cons]
    refine ⟨fun hmem => ?_, hd.distinct⟩
    obtain ⟨other, hother, hequal⟩ := List.mem_map.mp hmem
    have hlt := hd.below other hother
    omega
  rw [enqueue]
  dsimp only
  by_cases hfull : d.queueLimit < (insertAtUpperBound q.before q d.queue).length
  · right
    refine ⟨hfull, ?_⟩
    rw [if_pos hfull]
    cases hqueue : insertAtUpperBound q.before q d.queue with
    | nil =>
        rw [hqueue] at hfull
        simp at hfull
    | cons first rest =>
        rw [hqueue] at hdistinct
        obtain ⟨ahead, behind, hsplit, herase⟩ := eraseP_seq hdistinct (victim_mem first rest)
        refine ⟨ahead, victim first rest, behind, ?_, ?_⟩
        · rw [inserted, hqueue]
          exact hsplit
        · simp only [herase, inserted]
  · left
    rw [if_neg hfull]
    exact ⟨Nat.le_of_not_lt hfull, rfl⟩

/-! ## A rule for whole steps -/

/-- The radio's answers an event meets, if it pumps. -/
def Event.radio? : Event H → Option RadioView
  | .send _ _ _ _ radio => some radio
  | .pumpTimer radio => some radio
  | .reconfigure _ radio => some radio
  | _ => none

theorem quietly_checkAndMarkSeen (lib : Library) (d : Dispatcher H σ) (p : Packet) :
    Quietly d (d.checkAndMarkSeen lib p).2 := ⟨rfl, rfl, rfl, rfl, rfl, rfl, rfl, .inl rfl⟩

theorem quietly_onRadioRx (lib : Library) (d : Dispatcher H σ) (raw : Bytes) (rssi snrQ4 : Int) :
    Quietly d (d.onRadioRx lib raw rssi snrQ4).2 := by
  rw [onRadioRx]
  dsimp only
  split
  · exact ⟨rfl, rfl, rfl, rfl, rfl, rfl, rfl, .inl rfl⟩
  · split <;> split <;> exact ⟨rfl, rfl, rfl, rfl, rfl, rfl, rfl, .inl rfl⟩

/-- A packet that decodes is handed up unless its key is known, and marked either
way. -/
theorem onRadioRx_decoded (lib : Library) {raw : Bytes} {p : Packet}
    (hdecode : Packet.decode raw = some p)
    (d : Dispatcher H σ) (rssi snrQ4 : Int) :
    (d.onRadioRx lib raw rssi snrQ4).1 =
        (if (d.checkAndMarkSeen lib p).1 then none else some { p with rssi, snrQ4 }) ∧
      (d.onRadioRx lib raw rssi snrQ4).2.seen = (d.checkAndMarkSeen lib p).2.seen := by
  let seenOf : Option Packet × Dispatcher H σ → UInt32 →
    Option UInt32 := fun result => result.2.seen
  rw [onRadioRx, hdecode]
  cases hknown : (d.checkAndMarkSeen lib p).1 with
  | true =>
      refine ⟨(congrArg Prod.fst (if_pos hknown)).trans rfl, ?_⟩
      exact (congrArg seenOf (if_pos hknown)).trans rfl
  | false =>
      have hnew : ¬ (d.checkAndMarkSeen lib p).1 = true := by rw [hknown]; exact Bool.false_ne_true
      refine ⟨(congrArg Prod.fst (if_neg hnew)).trans rfl, ?_⟩
      exact (congrArg seenOf (if_neg hnew)).trans rfl

/-- What is handed up was decoded from the bytes, with the reception noted. -/
theorem heard_of_onRadioRx {lib : Library} {d : Dispatcher H σ} {raw : Bytes} {rssi snrQ4 : Int}
    {p : Packet} (hheard : (d.onRadioRx lib raw rssi snrQ4).1 = some p) :
    ∃ sent, Packet.decode raw = some sent ∧ p = { sent with rssi, snrQ4 } := by
  cases hdecode : Packet.decode raw with
  | none =>
      rw [onRadioRx, hdecode] at hheard
      exact absurd hheard (by simp)
  | some sent =>
      rw [(onRadioRx_decoded lib hdecode d rssi snrQ4).1] at hheard
      split at hheard
      · exact absurd hheard (by simp)
      · exact ⟨sent, rfl, (Option.some.inj hheard).symm⟩

/-- What each move keeps, every step keeps; a step ends in `Q` once time has
passed or a transmission has begun or ended. The moves that depend on the event
may use what is known of it. -/
theorem step_rule {P Q : Dispatcher H σ → Prop} {lib : Library} {event : Event H}
    (hdone : ∀ d, P d → Q d)
    (hnumbered : ∀ d, P d → d.Numbered)
    (hquiet : ∀ d d', Quietly d d' → P d → P d')
    (hdiscard : ∀ d ahead q behind reason, d.queue = ahead ++ q :: behind →
      (reason = .oversize → kMaxPacketSize < q.packet.encode.length) → P d →
      P (discard call { d with queue := ahead ++ behind } q reason))
    (htransmit : ∀ radio, event.radio? = some radio → ∀ d d' ahead q behind,
      radio.txBusy = false → Quietly d d' → Selected radio d ahead q behind → P d →
      Q (transmit call radio { d' with queue := ahead ++ behind } q))
    (hinsert : ∀ p priority delayMs onResult radio,
      event = .send p priority delayMs onResult radio → p.valid = true →
      ∀ d, P d → P (d.inserted (d.entry p priority delayMs onResult)))
    (htick : ∀ ms, event = .tick ms → ∀ d, P d → Q { d with time := d.time + ms })
    (htxDone : ∀ airtimeMs random, event = .txDone airtimeMs random →
      ∀ d, P d → Q (d.onRadioTxDone airtimeMs random))
    (hpercent : ∀ percent radio, event = .reconfigure percent radio →
      ∀ d, P d → P { d with duty := { d.duty with percent } })
    {d : Dispatcher H σ} (hd : P d) : Q (step lib call d event) := by
  have hpump : ∀ radio, event.radio? = some radio → ∀ d, P d → Q (pump call radio d) :=
    fun radio hradio d hd => pump_rule hdone hquiet hdiscard (htransmit radio hradio) hd
  cases event with
  | tick ms => exact htick ms rfl d hd
  | send p priority delayMs onResult radio =>
      rw [step, send]
      split
      · exact hdone _ (hquiet d _ ⟨rfl, rfl, rfl, rfl, rfl, rfl, rfl, .inl rfl⟩ hd)
      · rename_i hvalid
        apply hpump radio rfl
        have hseen := hquiet d _ (quietly_checkAndMarkSeen lib d p) hd
        generalize (d.checkAndMarkSeen lib p).2 = d' at hseen ⊢
        have hinserted := hinsert p priority delayMs onResult radio rfl (by simpa using hvalid)
          d' hseen
        rcases enqueue_cases call (hnumbered d' hseen)
            (show (d'.entry p priority delayMs onResult).seq = d'.nextSeq from rfl) with
          ⟨-, hkept⟩ | ⟨-, ahead, chosen, behind, hsplit, hevicted⟩
        · rw [hkept]
          exact hinserted
        · rw [hevicted]
          exact hdiscard _ ahead chosen behind .evicted hsplit (fun h => by simp at h) hinserted
  | pumpTimer radio =>
      rw [step, onPumpTimer]
      split
      · exact hpump radio rfl _ (hquiet d _ ⟨rfl, rfl, rfl, rfl, rfl, rfl, rfl, .inl rfl⟩ hd)
      · exact hdone d hd
  | txDone airtimeMs random => exact htxDone airtimeMs random rfl d hd
  | reconfigure percent radio =>
      exact hpump radio rfl _ (hpercent percent radio rfl d hd)
  | rx raw rssi snrQ4 => exact hdone _ (hquiet d _ (quietly_onRadioRx lib d raw rssi snrQ4) hd)
  | sweep => exact hdone _ (hquiet d _ ⟨rfl, rfl, rfl, rfl, rfl, rfl, rfl, .inl rfl⟩ hd)

end Coreletd.Mesh.Dispatcher
