/-
# The retry ladder over runs

Every waiting operation is driven by exactly one thing: a packet of its present
attempt in the transmit queue, whose result handler will be called, or an armed
timer. The result handler turns the first into the second, a retry the second
into the first, and nothing else touches either. The result can come while the
packet is being handed over, so the invariant is carried through the
dispatcher's own moves.
-/

import Coreletd.Mesh.SenderSteps
import Coreletd.Mesh.TransmitResult

namespace Coreletd.Mesh.Air

open Coreletd.Crypto
open Coreletd.Library
open Coreletd.Proto
open ReliableSender

variable {lib : Crypto.Library} {radio : RadioView} {limit : Nat}

/-- The queued packets whose result goes to one operation. -/
def waitingFor (d : Air) (id : Nat) : List (Queued Nat) := d.queue.filter (·.onResult = some id)

/-- What drives an operation: one queued packet of its present attempt and no
timer, or an armed timer and no packet. -/
def Driven (lib : Crypto.Library) (d : Air) (p : Pending) : Prop :=
  (∃ q, waitingFor d p.id = [q] ∧ Carries lib d.client.self p q.packet ∧ p.timer = none) ∨
    (waitingFor d p.id = [] ∧ p.timer.isSome = true)

/-- The invariant between calls. -/
structure Laddered (lib : Crypto.Library) (limit : Nat) (d : Air) : Prop where
  accounted : d.Accounted
  limited : d.client.pendingLimit = limit
  sound : Sound lib d.client
  below : ∀ q ∈ d.queue, ∀ id, q.onResult = some id → id < d.client.nextId
  driven : ∀ p ∈ d.client.pending, Driven lib d p

/-- The invariant while an attempt of one operation is about to be handed over:
nothing drives it yet. -/
structure Handing (lib : Crypto.Library) (limit : Nat) (p : Pending) (d : Air) : Prop where
  accounted : d.Accounted
  limited : d.client.pendingLimit = limit
  sound : Sound lib d.client
  below : ∀ q ∈ d.queue, ∀ id, q.onResult = some id → id < d.client.nextId
  member : p ∈ d.client.pending
  timer : p.timer = none
  undriven : waitingFor d p.id = []
  driven : ∀ other ∈ d.client.pending, other.id ≠ p.id → Driven lib d other

/-! ## The dispatcher's moves -/

theorem driven_congr {d d' : Air} (hqueue : d'.queue = d.queue)
    (hself : d'.client.self = d.client.self)
    (p : Pending) : Driven lib d' p ↔ Driven lib d p := by
  rw [Driven, Driven, waitingFor, waitingFor, hqueue, hself]

/-- The order of the queue does not matter to what drives an operation. -/
theorem Driven.perm {d d' : Air} {p : Pending} (hp : Driven lib d p)
    (hself : d'.client.self = d.client.self)
    (hperm : (waitingFor d' p.id).Perm (waitingFor d p.id)) : Driven lib d' p := by
  rcases hp with ⟨only, hsingle, hcarries, htimer⟩ | ⟨hnone, htimer⟩
  · rw [hsingle] at hperm
    refine .inl ⟨only, List.perm_singleton.mp hperm, ?_, htimer⟩
    rw [hself]
    exact hcarries
  · rw [hnone] at hperm
    exact .inr ⟨List.perm_nil.mp hperm, htimer⟩

/-- With the queue as it was, fewer entries are driven as they were. -/
theorem Laddered.shrink {d d' : Air} (hd : Laddered lib limit d) (haccounted : d'.Accounted)
    (hqueue : d'.queue = d.queue) (hsound : Sound lib d'.client)
    (hself : d'.client.self = d.client.self)
    (hlimit : d'.client.pendingLimit = d.client.pendingLimit)
    (hnext : d.client.nextId ≤ d'.client.nextId)
    (hsub : ∀ p ∈ d'.client.pending, p ∈ d.client.pending) : Laddered lib limit d' := by
  refine ⟨haccounted, hlimit.trans hd.limited, hsound, ?_, ?_⟩
  · intro q hq id hid
    rw [hqueue] at hq
    exact lt_of_lt_of_le (hd.below q hq id hid) hnext
  · intro p hp
    rw [driven_congr hqueue hself]
    exact hd.driven p (hsub p hp)

theorem Laddered.of_eq {d d' : Air} (hd : Laddered lib limit d) (haccounted : d'.Accounted)
    (hqueue : d'.queue = d.queue) (hclient : d'.client = d.client) : Laddered lib limit d' := by
  apply hd.shrink haccounted hqueue <;> rw [hclient]
  · exact hd.sound
  · exact fun p hp => hp

theorem Laddered.quietly {d d' : Air} (hd : Laddered lib limit d)
    (hquiet : Dispatcher.Quietly d d') :
    Laddered lib limit d' :=
  hd.of_eq (hd.accounted.quietly hquiet) hquiet.queue hquiet.client

/-- A packet leaving the queue leaves one fewer for its operation. -/
theorem filter_split (ahead behind : List (Queued Nat)) (q : Queued Nat) (id : Nat) :
    (ahead ++ q :: behind).filter (·.onResult = some id) =
      if q.onResult = some id then
        ahead.filter (·.onResult = some id) ++ q :: behind.filter (·.onResult = some id)
      else (ahead ++ behind).filter (·.onResult = some id) := by
  by_cases hown : q.onResult = some id <;> simp [hown]

/-- A packet leaves the queue and its operation, if it waits, has its timer set. -/
theorem Laddered.settle {d d' : Air} (hd : Laddered lib limit d) {ahead behind : List (Queued Nat)}
    {q : Queued Nat} (transmitted : Bool) (hsplit : d.queue = ahead ++ q :: behind)
    (haccounted : d'.Accounted) (hqueue : d'.queue = ahead ++ behind)
    (hclient : d'.client = match q.onResult with
      | none => d.client
      | some id => onTxResult d.time d.client id transmitted) : Laddered lib limit d' := by
  have hsub : ∀ other ∈ ahead ++ behind, other ∈ d.queue := by
    intro other hin
    rw [hsplit]
    simp only [List.mem_append, List.mem_cons] at hin ⊢
    tauto
  have hretimed : Retimed d.client d'.client := by
    rw [hclient]
    cases q.onResult with
    | none => exact Retimed.refl _
    | some id => exact retimed_onTxResult hd.sound.distinct _ _ _
  have hnext : d'.client.nextId = d.client.nextId ∧ d'.client.self = d.client.self ∧
      d'.client.pendingLimit = d.client.pendingLimit := by
    obtain ⟨timer, heq⟩ := hretimed
    rw [heq]
    exact ⟨rfl, rfl, rfl⟩
  -- The packets of any other operation are the same.
  have hothers : ∀ id, q.onResult ≠ some id → waitingFor d' id = waitingFor d id := by
    intro id hne
    rw [waitingFor, waitingFor, hqueue, hsplit, filter_split, if_neg hne]
  refine ⟨haccounted, hnext.2.2.trans hd.limited, hd.sound.retimed hretimed, ?_, ?_⟩
  · intro other hin id hid
    rw [hqueue] at hin
    rw [hnext.1]
    exact hd.below other (hsub other hin) id hid
  · intro p' hp'
    cases hown : q.onResult with
    | none =>
        rw [hown] at hclient
        rw [hclient] at hp'
        rw [Driven, hothers p'.id (by rw [hown]; simp), hnext.2.1]
        exact hd.driven p' hp'
    | some id =>
        rw [hown] at hclient
        rw [hclient.trans (onTxResult_eq hd.sound.distinct d.time id transmitted)] at hp'
        obtain ⟨p, hp, rfl⟩ := List.mem_map.mp hp'
        by_cases hid : p.id = id
        · -- It was driven by this very packet, and is driven by its timer now.
          right
          have hone : waitingFor d p.id =
              ahead.filter (·.onResult = some p.id) ++
                q :: behind.filter (·.onResult = some p.id) := by
            rw [waitingFor, hsplit, filter_split, if_pos (by rw [hown, hid])]
          refine ⟨?_, ?_⟩
          · show d'.queue.filter (·.onResult = some p.id) = []
            rw [hqueue, List.filter_append]
            rcases hd.driven p hp with ⟨only, hsingle, _, _⟩ | ⟨hnone, _⟩
            · have hlength := congrArg List.length (hone.symm.trans hsingle)
              simp only [List.length_append, List.length_cons, List.length_nil] at hlength
              rw [List.eq_nil_of_length_eq_zero (l := ahead.filter _) (by omega),
                List.eq_nil_of_length_eq_zero (l := behind.filter _) (by omega)]
              rfl
            · rw [hone] at hnone
              simp at hnone
          · show (timerAfter d.time id transmitted p).isSome = true
            rw [timerAfter, if_pos hid]
            rfl
        · have hkept : timerAfter d.time id transmitted p = p.timer := by
            rw [timerAfter, if_neg hid]
          rw [hkept]
          rw [Driven, hothers p.id (by rw [hown]; simpa using Ne.symm hid), hnext.2.1]
          exact hd.driven p hp

/-- The client after a result was passed on. -/
theorem notify_client (d : Air) (q : Queued Nat) (transmitted : Bool) :
    (Dispatcher.notify onTxResult d q transmitted).client = match q.onResult with
      | none => d.client
      | some id => onTxResult d.time d.client id transmitted := by
  rw [Dispatcher.notify]
  cases q.onResult <;> rfl

theorem Laddered.discard {d : Air} (hd : Laddered lib limit d) {ahead behind : List (Queued Nat)}
    {q : Queued Nat} (hsplit : d.queue = ahead ++ q :: behind) (reason : DropReason) :
    Laddered lib limit
      (Dispatcher.discard onTxResult { d with queue := ahead ++ behind } q reason) := by
  refine hd.settle false hsplit (hd.accounted.discard hsplit reason) ?_ (notify_client _ q false)
  rw [Dispatcher.discard_queue]

/-- Handing a packet to the radio settles it, or puts it back. -/
theorem Laddered.transmit {d : Air} (hd : Laddered lib limit d) {ahead behind : List (Queued Nat)}
    {q : Queued Nat} (hsplit : d.queue = ahead ++ q :: behind) :
    Laddered lib limit
      (Dispatcher.transmit onTxResult radio { d with queue := ahead ++ behind } q) := by
  have haccounted : (Dispatcher.transmit onTxResult radio
      { d with queue := ahead ++ behind } q).Accounted := hd.accounted.transmit hsplit
  cases hok : radio.sendOk with
  | true =>
      refine hd.settle true hsplit haccounted ?_ ?_
      · rw [Dispatcher.transmit_queue, if_pos hok]
      · rw [Dispatcher.transmit_accepted _ _ _ hok, notify_client]
  | false =>
      have hqueue : (Dispatcher.transmit onTxResult radio
          { d with queue := ahead ++ behind } q).queue = q :: (ahead ++ behind) := by
        rw [Dispatcher.transmit_queue, if_neg (by rw [hok]; decide)]
      have hclient : (Dispatcher.transmit onTxResult radio
          { d with queue := ahead ++ behind } q).client = d.client := by
        rw [Dispatcher.transmit_refused _ _ _ hok, Dispatcher.schedulePump_client]
      generalize Dispatcher.transmit onTxResult radio { d with queue := ahead ++ behind } q = d'
        at haccounted hqueue hclient ⊢
      have hperm : d'.queue.Perm d.queue := by
        rw [hqueue, hsplit]
        exact List.perm_middle.symm
      refine ⟨haccounted, ?_, ?_, ?_, ?_⟩
      · rw [hclient]
        exact hd.limited
      · rw [hclient]
        exact hd.sound
      · intro other hin id hid
        rw [hclient]
        exact hd.below other (hperm.mem_iff.mp hin) id hid
      · intro p hp
        rw [hclient] at hp
        exact (hd.driven p hp).perm (by rw [hclient]) (hperm.filter _)

/-- A packet taken on is one more for its operation. -/
theorem waitingFor_inserted (d : Air) (q : Queued Nat) (id : Nat) :
    (waitingFor (Dispatcher.inserted d q) id).Perm
      (if q.onResult = some id then q :: waitingFor d id else waitingFor d id) := by
  have hperm := (insertAtUpperBound_perm q.before q d.queue).filter (·.onResult = some id)
  by_cases hown : q.onResult = some id
  · rw [if_pos hown]
    simpa [waitingFor, Dispatcher.inserted, List.filter_cons, hown] using hperm
  · rw [if_neg hown]
    simpa [waitingFor, Dispatcher.inserted, List.filter_cons, hown] using hperm

/-- Taking on a packet that answers to nobody drives and disturbs nothing. -/
theorem Laddered.inserted {d : Air} (hd : Laddered lib limit d) {q : Queued Nat}
    (hseq : q.seq = d.nextSeq) (hnone : q.onResult = none) :
    Laddered lib limit (Dispatcher.inserted d q) := by
  refine ⟨hd.accounted.inserted hseq, hd.limited, hd.sound, ?_, ?_⟩
  · intro other hin id hid
    rcases mem_insertAtUpperBound.mp hin with rfl | hold
    · rw [hnone] at hid
      simp at hid
    · exact hd.below other hold id hid
  · intro p hp
    have hperm := waitingFor_inserted d q p.id
    rw [if_neg (by rw [hnone]; simp)] at hperm
    exact (hd.driven p hp).perm rfl hperm

/-- Taking on the packet of an operation drives it. -/
theorem Handing.inserted {d : Air} {p : Pending} (hd : Handing lib limit p d) {q : Queued Nat}
    (hseq : q.seq = d.nextSeq) (hown : q.onResult = some p.id)
    (hcarries : Carries lib d.client.self p q.packet) :
    Laddered lib limit (Dispatcher.inserted d q) := by
  refine ⟨hd.accounted.inserted hseq, hd.limited, hd.sound, ?_, ?_⟩
  · intro other hin id hid
    rcases mem_insertAtUpperBound.mp hin with rfl | hold
    · rw [hown] at hid
      rw [← Option.some.inj hid]
      exact (hd.sound.entries p hd.member).below
    · exact hd.below other hold id hid
  · intro other hother
    have hperm := waitingFor_inserted d q other.id
    by_cases hid : other.id = p.id
    · obtain rfl : other = p :=
        List.inj_on_of_nodup_map hd.sound.distinct hother hd.member hid
      rw [if_pos hown, hd.undriven] at hperm
      exact .inl ⟨q, List.perm_singleton.mp hperm, hcarries, hd.timer⟩
    · rw [if_neg (by rw [hown]; simpa using Ne.symm hid)] at hperm
      exact (hd.driven other hother hid).perm rfl hperm

theorem Handing.quietly {d d' : Air} {p : Pending} (hd : Handing lib limit p d)
    (hquiet : Dispatcher.Quietly d d') : Handing lib limit p d' := by
  refine ⟨hd.accounted.quietly hquiet, ?_, ?_, ?_, ?_, hd.timer, ?_, ?_⟩
  · rw [hquiet.client]
    exact hd.limited
  · rw [hquiet.client]
    exact hd.sound
  · rw [hquiet.queue, hquiet.client]
    exact hd.below
  · rw [hquiet.client]
    exact hd.member
  · rw [waitingFor, hquiet.queue]
    exact hd.undriven
  · intro other hother hne
    rw [driven_congr hquiet.queue (by rw [hquiet.client])]
    rw [hquiet.client] at hother
    exact hd.driven other hother hne

theorem Laddered.pump {d : Air} (hd : Laddered lib limit d) :
    Laddered lib limit (Dispatcher.pump onTxResult radio d) := by
  apply Dispatcher.pump_rule (fun d hd => hd)
  · exact fun d d' hquiet hd => hd.quietly hquiet
  · exact fun d ahead q behind reason hsplit _ hd => hd.discard hsplit reason
  · intro d d' ahead q behind _ hquiet hselected hd
    exact (hd.quietly hquiet).transmit (hquiet.queue.trans hselected.split)
  · exact hd

/-- Handing an operation's packet over ends with the operation driven, whatever
the dispatcher did with it at once. -/
theorem Handing.send {d : Air} {p : Pending} (hd : Handing lib limit p d) {packet : Packet}
    (hvalid : packet.valid = true) (hcarries : Carries lib d.client.self p packet)
    (priority : UInt8) (delayMs : UInt32) :
    Laddered lib limit
      (Dispatcher.send onTxResult lib radio d packet priority delayMs (some p.id)).2 := by
  rw [Dispatcher.send, hvalid]
  have hquiet := Dispatcher.quietly_checkAndMarkSeen lib d packet
  have hseen := hd.quietly hquiet
  rw [← hquiet.client] at hcarries
  show Laddered lib limit (Dispatcher.pump onTxResult radio (Dispatcher.enqueue onTxResult
    (Dispatcher.checkAndMarkSeen lib d packet).2 (Dispatcher.entry
      (Dispatcher.checkAndMarkSeen lib d packet).2 packet priority delayMs (some p.id))))
  generalize (Dispatcher.checkAndMarkSeen lib d packet).2 = d' at hseen hcarries ⊢
  apply Laddered.pump
  have hinserted : Laddered lib limit (Dispatcher.inserted d'
      (Dispatcher.entry d' packet priority delayMs (some p.id))) :=
    hseen.inserted rfl rfl hcarries
  rcases Dispatcher.enqueue_cases onTxResult hseen.accounted.numbered
      (show (Dispatcher.entry d' packet priority delayMs (some p.id)).seq = d'.nextSeq from rfl) with
    ⟨-, hkept⟩ | ⟨-, ahead, chosen, behind, hsplit, hevicted⟩
  · rw [hkept]
    exact hinserted
  · rw [hevicted]
    exact hinserted.discard hsplit .evicted

/-- Whatever else uses the dispatcher keeps the ladder. -/
theorem Laddered.other {d : Air} (hd : Laddered lib limit d) (event : Dispatcher.Event Nat) :
    Laddered lib limit (Dispatcher.step lib onTxResult d (Outgoing.unanswered event)) := by
  apply Dispatcher.step_rule (fun d hd => hd) (fun d hd => hd.accounted.numbered)
  · exact fun d d' hquiet hd => hd.quietly hquiet
  · exact fun d ahead q behind reason hsplit _ hd => hd.discard hsplit reason
  · intro radio _ d d' ahead q behind _ hquiet hselected hd
    exact (hd.quietly hquiet).transmit (hquiet.queue.trans hselected.split)
  · intro p priority delayMs onResult radio hevent _ d hd
    exact hd.inserted rfl (Outgoing.onResult_of_unanswered hevent)
  · intro ms _ d hd
    refine hd.of_eq ?_ rfl rfl
    exact { hd.accounted with
      numbered := ⟨hd.accounted.numbered.distinct, hd.accounted.numbered.below⟩ }
  · intro airtimeMs random _ d hd
    exact hd.of_eq (hd.accounted.onRadioTxDone airtimeMs random) (Dispatcher.schedulePump_queue _ _)
      (Dispatcher.schedulePump_client _ _)
  · intro percent radio _ d hd
    refine hd.of_eq ?_ rfl rfl
    exact { hd.accounted with
      numbered := ⟨hd.accounted.numbered.distinct, hd.accounted.numbered.below⟩ }
  · exact hd

/-! ## The sender's operations -/

/-- The accounts do not depend on the client or the statistics. -/
theorem accounted_client {d : Air} (hd : d.Accounted) (client : ReliableSender)
    (stats : DispatcherStats) : ({ d with client, stats } : Air).Accounted :=
  { hd with numbered := ⟨hd.numbered.distinct, hd.numbered.below⟩ }

/-- Putting an answer on record changes nothing else. -/
theorem Laddered.answer {d : Air} (hd : Laddered lib limit d) (id : Nat) (hash : Bytes) :
    Laddered lib limit (answer id hash d) := by
  refine hd.shrink (accounted_client hd.accounted _ d.stats) rfl ?_ rfl rfl le_rfl fun p hp => hp
  obtain ⟨distinct, bounded, entries, ladder, unused, counting, forced, once, gone⟩ := hd.sound
  refine ⟨distinct, bounded, fun p hp => ?_, ladder, unused, counting, forced, once, gone⟩
  obtain ⟨positive, below, rung, attempts, accepted, ackHash⟩ := entries p hp
  exact ⟨positive, below, rung, attempts, accepted, ackHash⟩

/-- A fresh operation, registered, is ready to be handed over. -/
theorem Laddered.registered {d : Air} (hd : Laddered lib limit d) {p : Pending}
    (hfresh : Fresh d.client p) :
    Handing lib limit (p.accept (p.onAirHash lib d.client.self))
      { d with client := d.client.registered lib p } where
  accounted := accounted_client hd.accounted _ d.stats
  limited := hd.limited
  sound := hd.sound.registered hfresh.room hfresh.id hfresh.attempt hfresh.accepted
  below q hq id hid := Nat.lt_succ_of_lt (hd.below q hq id hid)
  member := List.mem_append_right _ List.mem_cons_self
  timer := hfresh.timer
  undriven := by
    show d.queue.filter (·.onResult = some p.id) = []
    refine List.filter_eq_nil_iff.mpr fun q hq hown => ?_
    have hlt := hd.below q hq p.id (by simpa using hown)
    rw [hfresh.id] at hlt
    exact Nat.lt_irrefl _ hlt
  driven other hother hne := by
    rcases List.mem_append.mp hother with hold | hnew
    · exact hd.driven other hold
    · exact absurd (congrArg Pending.id (List.mem_singleton.mp hnew)) hne

/-- An operation whose timer fired, on its next rung, is ready to be handed over. -/
theorem Laddered.climbed {d : Air} (hd : Laddered lib limit d) {p : Pending}
    (hp : p ∈ d.client.pending) (htimer : p.timer.isSome = true)
    (hnext : p.attempt + 1 < kMaxAttempts) :
    Handing lib limit (climb lib d.client.self p)
      { d with client := d.client.climbed lib p (decide (p.attempt + 1 = 3)) } where
  accounted := accounted_client hd.accounted _ d.stats
  limited := hd.limited
  sound := hd.sound.climbed hp hnext
  below := hd.below
  member := List.mem_map.mpr ⟨p, hp, by rw [if_pos rfl]⟩
  timer := rfl
  undriven := by
    rcases hd.driven p hp with ⟨_, _, _, hstopped⟩ | ⟨hnone, _⟩
    · rw [hstopped] at htimer
      simp at htimer
    · exact hnone
  driven other hother hne := by
    obtain ⟨q, hq, rfl⟩ := List.mem_map.mp hother
    by_cases hid : q.id = p.id
    · rw [if_pos hid] at hne
      exact absurd hid hne
    · rw [if_neg hid]
      exact hd.driven q hq

theorem Laddered.send {d : Air} (hd : Laddered lib limit d) (dest : Contact) (text : Bytes)
    (txtType : UInt8) (timestamp : UInt32) :
    Laddered lib limit (Air.send lib radio d dest text txtType timestamp).2 := by
  have hsending : Sending lib radio d (Air.send lib radio d dest text txtType timestamp) :=
    sending_send hd.sound dest text txtType timestamp
  generalize Air.send lib radio d dest text txtType timestamp = result at hsending ⊢
  cases hsending with
  | refused hrefused =>
      obtain ⟨⟨stats, client, rfl⟩, hsound, hself, hlimit, hnext, hpending, _⟩ := hrefused
      refine hd.shrink (accounted_client hd.accounted client stats) rfl hsound hself hlimit hnext ?_
      exact fun p hp => hpending ▸ hp
  | coalesced hp => exact hd.answer _ _
  | cli hvalid =>
      apply Laddered.answer
      have hnoted : Laddered lib limit { d with client := { d.client with
          attempts := d.client.attempts ++ [{ id := 0, attempt := 0, forceFlood := false }] } } :=
        hd.shrink (accounted_client hd.accounted _ d.stats) rfl hd.sound.noteCli rfl rfl le_rfl
          fun p hp => hp
      exact hnoted.other (.send _ kPriorityDirect 0 none radio)
  | handed hfresh hvalid hcarries =>
      exact ((hd.registered hfresh).send hvalid ⟨hcarries.type, hcarries.payload⟩ _ _).answer _ _

theorem Laddered.onTimer {d : Air} (hd : Laddered lib limit d) (contacts : ContactStore)
    (id : Nat) : Laddered lib limit (Air.onTimer lib radio contacts d id) := by
  have hretrying : Retrying lib radio d id (Air.onTimer lib radio contacts d id) :=
    retrying_onTimer hd.sound contacts id
  generalize Air.onTimer lib radio contacts d id = d' at hretrying ⊢
  cases hretrying with
  | idle => exact hd
  | erased =>
      refine hd.shrink (accounted_client hd.accounted _ d.stats) rfl (hd.sound.erase id) rfl rfl
        le_rfl ?_
      exact fun p hp => (List.mem_filter.mp hp).1
  | tooLong stats hp hid hnext =>
      have hsound := (hd.sound.climbed hp hnext).erase id
      refine hd.shrink (accounted_client hd.accounted _ stats) rfl hsound rfl rfl le_rfl ?_
      intro p' hp'
      obtain ⟨hmapped, hother⟩ := List.mem_filter.mp hp'
      obtain ⟨q, hq, rfl⟩ := List.mem_map.mp hmapped
      split at hother
      · next hsame =>
        have hne : q.id ≠ id := of_decide_eq_true hother
        exact absurd (hsame.trans hid) hne
      · next hne =>
        rw [if_neg hne]
        exact hq
  | handed hp _ htimer hnext hvalid hcarries =>
      exact (hd.climbed hp htimer hnext).send hvalid hcarries _ _

theorem Laddered.complete {d : Air} (hd : Laddered lib limit d) (ackHash : Bytes) :
    Laddered lib limit { d with client := (d.client.complete ackHash).2 } := by
  have hsound := hd.sound.complete ackHash
  rcases complete_cases d.client ackHash with ⟨_, heq⟩ | ⟨ahead, p, behind, hsplit, _, _, heq⟩
  · rw [heq]
    exact hd
  · rw [heq] at hsound ⊢
    refine hd.shrink (accounted_client hd.accounted _ d.stats) rfl hsound rfl rfl le_rfl ?_
    intro p' hp'
    rw [hsplit]
    simp only [List.mem_append, List.mem_cons] at hp' ⊢
    tauto

/-- Every event keeps the ladder. -/
theorem laddered_step (o : Outgoing) (event : Outgoing.Event) (hd : Laddered lib limit o.air) :
    Laddered lib limit (o.step lib event).air := by
  cases event with
  | send dest text txtType timestamp radio => exact hd.send dest text txtType timestamp
  | timer id radio => exact hd.onTimer o.contacts id
  | complete ackHash => exact hd.complete ackHash
  | contacts store => exact hd
  | other event => exact hd.other event

theorem laddered_run (percent : ℚ) (queueLimit pendingLimit : Nat) (self : LocalIdentity)
    (contacts : ContactStore) (time : Nat) (events : List Outgoing.Event) :
    Laddered lib pendingLimit (run (Outgoing.step lib)
      (Outgoing.new percent queueLimit pendingLimit self contacts time) events).air := by
  have hstep : ∀ (o : Outgoing) (event : Outgoing.Event), Laddered lib pendingLimit o.air →
      Laddered lib pendingLimit (o.step lib event).air := fun o event => laddered_step o event
  refine run_invariant hstep ⟨?_, rfl, sound_new self pendingLimit, ?_, ?_⟩ events
  · exact Dispatcher.accounted_new percent queueLimit _ time
  · intro q hq
    simp [Outgoing.new, Dispatcher.new] at hq
  · intro p hp
    simp [Outgoing.new, Dispatcher.new] at hp

/-! ## The ladder -/

/-- A call on the trace is in its packet's ledger. -/
theorem mem_reported_of_called {trace : List (TxEvent Nat)} {seq handler : Nat} {transmitted : Bool}
    (hcalled : .called seq handler transmitted ∈ trace) :
    (handler, transmitted) ∈ (Dispatcher.ledger trace seq).reported := by
  induction trace with
  | nil => simp at hcalled
  | cons event trace ih =>
      rw [Dispatcher.ledger_cons]
      rcases List.mem_cons.mp hcalled with rfl | hold
      · simp [Dispatcher.post]
      · have hearlier := ih hold
        unfold Dispatcher.post
        split
        · split <;> exact hearlier
        · split <;> exact hearlier
        · split
          · exact List.mem_cons_of_mem _ hearlier
          · exact hearlier
        · exact hearlier

/-- What drives an operation, exactly one of two: a packet of its present
attempt waits in the queue, alone and with its result handler uncalled, or its
timer is armed. -/
def DrivenOnce (lib : Crypto.Library) (d : Air) (p : Pending) : Prop :=
  (∃ q, waitingFor d p.id = [q] ∧ Carries lib d.client.self p q.packet ∧
      (∀ handler transmitted, .called q.seq handler transmitted ∉ d.trace) ∧ p.timer = none) ∨
    (waitingFor d p.id = [] ∧ p.timer.isSome = true)

theorem Laddered.drivenOnce {d : Air} (hd : Laddered lib limit d) {p : Pending}
    (hp : p ∈ d.client.pending) : DrivenOnce lib d p := by
  rcases hd.driven p hp with ⟨q, hsingle, hcarries, htimer⟩ | hready
  · refine .inl ⟨q, hsingle, hcarries, fun handler transmitted hcalled => ?_, htimer⟩
    have hq : q ∈ waitingFor d p.id := by
      rw [hsingle]
      exact List.mem_cons_self
    have hreported := mem_reported_of_called hcalled
    rw [hd.accounted.waiting q (List.mem_filter.mp hq).1] at hreported
    simp [Dispatcher.Fate.ledger] at hreported
  · exact .inr hready

/-- A refused send leaves the table and the queue as they were. -/
theorem send_refused {d : Air} (hs : Sound lib d.client) {dest : Contact} {text : Bytes}
    {txtType : UInt8} {timestamp : UInt32} {err : SendError}
    (herr : (Air.send lib radio d dest text txtType timestamp).1 = .error err) :
    (Air.send lib radio d dest text txtType timestamp).2.client.pending = d.client.pending ∧
      (Air.send lib radio d dest text txtType timestamp).2.queue = d.queue := by
  have hsending : Sending lib radio d (Air.send lib radio d dest text txtType timestamp) :=
    sending_send hs dest text txtType timestamp
  generalize Air.send lib radio d dest text txtType timestamp = result at hsending herr ⊢
  cases hsending with
  | refused hrefused =>
      obtain ⟨⟨stats, client, rfl⟩, _, _, _, _, hpending, _⟩ := hrefused
      exact ⟨hpending, rfl⟩
  | coalesced hp => simp at herr
  | cli hvalid => simp at herr
  | handed hfresh hvalid hcarries => simp at herr

/-- **The retry ladder.** In every reachable state the waiting operations have
distinct numbers other than 0, are driven by exactly one thing each and are
within the limit; each operation has handed over the first few of the attempts
0, 1, 2, 3, in order, of which only the last is forced to flood; none was
completed twice; and a send that would be refused would change neither the table
nor the queue. -/
theorem retry_ladder (lib : Crypto.Library) (percent : ℚ) (queueLimit pendingLimit : Nat)
    (self : LocalIdentity) (contacts : ContactStore) (time : Nat) (events : List Outgoing.Event) :
    let d := (run (Outgoing.step lib)
      (Outgoing.new percent queueLimit pendingLimit self contacts time) events).air
    (d.client.pending.map (·.id)).Nodup ∧
    (∀ p ∈ d.client.pending, p.id ≠ 0 ∧ DrivenOnce lib d p) ∧
    (∀ id, id ≠ 0 → d.client.attemptsOf id <+: [0, 1, 2, 3]) ∧
    (∀ a ∈ d.client.attempts, a.forceFlood = decide (a.attempt = 3)) ∧
    d.client.completed.Nodup ∧
    d.client.pending.length ≤ pendingLimit ∧
    ∀ radio dest text txtType timestamp err,
      (Air.send lib radio d dest text txtType timestamp).1 = .error err →
      (Air.send lib radio d dest text txtType timestamp).2.client.pending = d.client.pending ∧
        (Air.send lib radio d dest text txtType timestamp).2.queue = d.queue := by
  intro d
  have hd : Laddered lib pendingLimit d :=
    laddered_run percent queueLimit pendingLimit self contacts time events
  refine ⟨hd.sound.distinct, ?_, ?_, hd.sound.forced, hd.sound.once, ?_, ?_⟩
  · exact fun p hp => ⟨(hd.sound.entries p hp).positive.ne', hd.drivenOnce hp⟩
  · exact fun id hid => hd.sound.ladder id (Nat.pos_of_ne_zero hid)
  · rw [← hd.limited]
    exact hd.sound.bounded
  · intro radio dest text txtType timestamp err herr
    exact send_refused hd.sound herr

end Coreletd.Mesh.Air
