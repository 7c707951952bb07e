/-
# What the sender does to its entries

The dispatcher can reach the sender only through the result handler, and that
only sets timers. Everything else about the entries is changed by the sender's
own operations, and is sound after each of them: numbers are distinct, the
attempts made are the first of 0, 1, 2, 3, and the hashes kept are theirs.
-/

import Coreletd.Mesh.Sender
import Mathlib.Data.List.Nodup

namespace Coreletd.Mesh

open Coreletd.Crypto
open Coreletd.Library
open Coreletd.Library.SerialClock
open Coreletd.Proto

/-- With distinct keys, the first match is every match. -/
theorem modifyFirst_eq_map {α : Type} {key : α → Nat} {l : List α} (hdistinct : (l.map key).Nodup)
    (k : Nat) (f : α → α) :
    modifyFirst (fun x => decide (key x = k)) f l = l.map fun x =>
      if key x = k then f x else x := by
  induction l with
  | nil => rfl
  | cons x l ih =>
      rw [List.map_cons, List.nodup_cons] at hdistinct
      by_cases hx : key x = k
      · have hrest : l.map (fun y => if key y = k then f y else y) = l := by
          conv_rhs => rw [← List.map_id l]
          apply List.map_congr_left
          intro y hy
          have hne : key y ≠ k := fun hk =>
            hdistinct.1 (List.mem_map.mpr ⟨y, hy, hk.trans hx.symm⟩)
          rw [if_neg hne]
          rfl
        simp [modifyFirst, hx, hrest]
      · simp [modifyFirst, hx, ih hdistinct.2]

theorem routed_type (dest : Contact) (forceFlood : Bool) (p : Packet) :
    (routed dest forceFlood p).type = p.type := by
  rw [routed]
  split <;> rfl

theorem routed_payload (dest : Contact) (forceFlood : Bool) (p : Packet) :
    (routed dest forceFlood p).payload = p.payload := by
  rw [routed]
  split <;> rfl

/-- Traffic that is not the sender's waits for no result. -/
theorem Outgoing.onResult_of_unanswered {event : Dispatcher.Event Nat} {p : Packet}
    {priority : UInt8} {delayMs : UInt32} {onResult : Option Nat} {radio : RadioView}
    (hevent : unanswered event = .send p priority delayMs onResult radio) : onResult = none := by
  cases event with
  | send p' priority' delayMs' onResult' radio' =>
      obtain ⟨-, -, -, hnone, -⟩ := Dispatcher.Event.send.inj hevent
      exact hnone.symm
  | tick _ => simp [unanswered] at hevent
  | pumpTimer _ => simp [unanswered] at hevent
  | txDone _ _ => simp [unanswered] at hevent
  | reconfigure _ _ => simp [unanswered] at hevent
  | rx _ _ _ => simp [unanswered] at hevent
  | sweep => simp [unanswered] at hevent

namespace ReliableSender

variable {lib : Crypto.Library} {s : ReliableSender}

/-- Each entry has a number of its own. -/
def Distinct (s : ReliableSender) : Prop := (s.pending.map (·.id)).Nodup

theorem modify_eq_map (hs : s.Distinct) (id : Nat) (f : Pending → Pending) :
    s.modify id f =
      { s with pending := s.pending.map fun p => if p.id = id then f p else p } := by
  rw [modify, modifyFirst_eq_map hs id f]

theorem find_eq_some (hs : s.Distinct) {id : Nat} {p : Pending} :
    s.find id = some p ↔ p ∈ s.pending ∧ p.id = id := by
  constructor
  · intro hfind
    exact ⟨List.mem_of_find?_eq_some hfind, by simpa using List.find?_some hfind⟩
  · rintro ⟨hmem, hid⟩
    cases hfind : s.find id with
    | none =>
        have hnone := List.find?_eq_none.mp hfind p hmem
        simp [hid] at hnone
    | some found =>
        have hfound : found.id = id := by simpa using List.find?_some hfind
        rw [List.inj_on_of_nodup_map hs (List.mem_of_find?_eq_some hfind) hmem
          (hfound.trans hid.symm)]

/-! ## Timers -/

/-- Nothing but timers was changed. -/
def Retimed (s s' : ReliableSender) : Prop :=
  ∃ timer : Pending → Option UInt32,
    s' = { s with pending := s.pending.map fun p => { p with timer := timer p } }

theorem Retimed.refl (s : ReliableSender) : Retimed s s := by
  refine ⟨(·.timer), ?_⟩
  rw [show (fun p : Pending => { p with timer := p.timer }) = id from rfl, List.map_id]

theorem Retimed.trans {s' s'' : ReliableSender} (hfirst : Retimed s s')
    (hsecond : Retimed s' s'') : Retimed s s'' := by
  obtain ⟨timer, rfl⟩ := hfirst
  obtain ⟨timer', rfl⟩ := hsecond
  refine ⟨fun p => timer' { p with timer := timer p }, ?_⟩
  simp [Function.comp_def]

theorem Retimed.distinct {s' : ReliableSender} (hretimed : Retimed s s') (hs : s.Distinct) :
    s'.Distinct := by
  obtain ⟨timer, rfl⟩ := hretimed
  simpa [Distinct, Function.comp_def] using hs

/-- How long after its result an attempt is followed up. -/
def followUpMs (p : Pending) (transmitted : Bool) : UInt32 :=
  if transmitted then kRetryDelayMs p.attempt else 1

/-- The timers after a result: the operation's own is set. -/
def timerAfter (now id : Nat) (transmitted : Bool) (p : Pending) : Option UInt32 :=
  if p.id = id then some (reading now + followUpMs p transmitted) else p.timer

/-- A result arms the timer of its operation, if that is still waiting. -/
theorem onTxResult_eq (hs : s.Distinct) (now id : Nat) (transmitted : Bool) :
    onTxResult now s id transmitted =
      { s with pending := s.pending.map fun p =>
          { p with timer := timerAfter now id transmitted p } } := by
  have harm :
      ∀ delayMs : UInt32, (∀ p ∈ s.pending, p.id = id → followUpMs p transmitted = delayMs) →
      s.arm now id delayMs = { s with pending := s.pending.map fun p =>
        { p with timer := timerAfter now id transmitted p } } := by
    intro delayMs hdelay
    rw [arm, modify_eq_map hs]
    congr 1
    apply List.map_congr_left
    intro p hp
    rw [timerAfter]
    split
    · next hid => rw [hdelay p hp hid]
    · rfl
  cases hfind : s.find id with
  | none =>
      have hnone : ∀ p ∈ s.pending, p.id ≠ id := by
        intro p hp hid
        have hsome := (find_eq_some hs).mpr ⟨hp, hid⟩
        rw [hfind] at hsome
        simp at hsome
      have hsame : s.pending.map (fun p => { p with timer := timerAfter now id transmitted p }) =
          s.pending := by
        conv_rhs => rw [← List.map_id s.pending]
        apply List.map_congr_left
        intro p hp
        rw [timerAfter, if_neg (hnone p hp)]
        rfl
      rw [onTxResult, hfind, hsame]
  | some p =>
      obtain ⟨hp, hid⟩ := (find_eq_some hs).mp hfind
      have hself : ∀ p' ∈ s.pending, p'.id = id → p' = p := fun p' hp' hid' =>
        List.inj_on_of_nodup_map hs hp' hp (hid'.trans hid.symm)
      rw [onTxResult, hfind]
      cases transmitted with
      | true =>
          show s.queueRetry now id = _
          rw [queueRetry, hfind]
          exact harm _ fun p' hp' hid' => by rw [hself p' hp' hid', followUpMs, if_pos rfl]
      | false => exact harm 1 fun p' _ _ => rfl

theorem retimed_onTxResult (hs : s.Distinct) (now id : Nat) (transmitted : Bool) :
    Retimed s (onTxResult now s id transmitted) :=
  ⟨_, onTxResult_eq hs now id transmitted⟩

/-! ## Sound senders -/

/-- The attempt numbers handed over for one operation, in order. -/
def attemptsOf (s : ReliableSender) (id : Nat) : List UInt8 :=
  (s.attempts.filter (·.id = id)).map (·.attempt)

/-- The attempts an entry has made. -/
def made (p : Pending) : List UInt8 := [0, 1, 2, 3].take (p.attempt.toNat + 1)

/-- The hash of one attempt of an entry. -/
def hashAt (lib : Crypto.Library) (self : LocalIdentity) (p : Pending) (attempt : UInt8) : Bytes :=
  Pending.onAirHash lib self { p with attempt }

/-- What holds of an entry: it is on one of four rungs, has made the attempts up
to it, and accepts their hashes, of which the first is its identity. -/
structure Entry (lib : Crypto.Library) (s : ReliableSender) (p : Pending) : Prop where
  positive : 0 < p.id
  below : p.id < s.nextId
  rung : p.attempt < kMaxAttempts
  attempts : s.attemptsOf p.id = made p
  accepted : p.acceptedAckHashes = (made p).map (hashAt lib s.self p)
  ackHash : p.ackHash = hashAt lib s.self p 0

/-- A sender whose entries and records are in order. -/
structure Sound (lib : Crypto.Library) (s : ReliableSender) : Prop where
  distinct : s.Distinct
  bounded : s.pending.length ≤ s.pendingLimit
  entries : ∀ p ∈ s.pending, Entry lib s p
  ladder : ∀ id, 0 < id → s.attemptsOf id <+: [0, 1, 2, 3]
  unused : ∀ id, s.nextId ≤ id → s.attemptsOf id = []
  counting : 0 < s.nextId
  forced : ∀ a ∈ s.attempts, a.forceFlood = decide (a.attempt = 3)
  once : s.completed.Nodup
  gone : ∀ id ∈ s.completed, id < s.nextId ∧ ∀ p ∈ s.pending, p.id ≠ id

theorem sound_new (self : LocalIdentity) (pendingLimit : Nat) :
    Sound lib { self, pendingLimit } where
  distinct := List.nodup_nil
  bounded := Nat.zero_le _
  entries := by simp
  ladder _ _ := List.nil_prefix
  unused _ _ := rfl
  counting := Nat.one_pos
  forced := by simp
  once := List.nodup_nil
  gone := by simp

theorem Sound.retimed {s' : ReliableSender} (hs : Sound lib s) (hretimed : Retimed s s') :
    Sound lib s' := by
  have hdistinct := hretimed.distinct hs.distinct
  obtain ⟨timer, rfl⟩ := hretimed
  refine ⟨hdistinct, by simpa using hs.bounded, ?_, hs.ladder, hs.unused, hs.counting, hs.forced,
    hs.once, ?_⟩
  · intro p hp
    obtain ⟨old, hold, rfl⟩ := List.mem_map.mp hp
    obtain ⟨positive, below, rung, attempts, accepted, ackHash⟩ := hs.entries old hold
    exact ⟨positive, below, rung, attempts, accepted, ackHash⟩
  · intro id hid
    refine ⟨(hs.gone id hid).1, fun p hp => ?_⟩
    obtain ⟨old, hold, rfl⟩ := List.mem_map.mp hp
    exact (hs.gone id hid).2 old hold

/-- Fewer entries are as sound. -/
theorem Sound.sublist (hs : Sound lib s) {pending : List Pending}
    (hsub : pending.Sublist s.pending) : Sound lib { s with pending } := by
  refine ⟨List.Nodup.sublist (hsub.map _) hs.distinct, le_trans hsub.length_le hs.bounded, ?_,
    hs.ladder, hs.unused, hs.counting, hs.forced, hs.once, ?_⟩
  · intro p hp
    obtain ⟨positive, below, rung, attempts, accepted, ackHash⟩ := hs.entries p (hsub.subset hp)
    exact ⟨positive, below, rung, attempts, accepted, ackHash⟩
  · exact fun id hid => ⟨(hs.gone id hid).1, fun p hp => (hs.gone id hid).2 p (hsub.subset hp)⟩

theorem Sound.erase (hs : Sound lib s) (id : Nat) : Sound lib (s.erase id) :=
  hs.sublist List.filter_sublist

/-- A number handed out and not used. -/
theorem Sound.skip (hs : Sound lib s) : Sound lib { s with nextId := s.nextId + 1 } := by
  refine ⟨hs.distinct, hs.bounded, ?_, hs.ladder, ?_, Nat.succ_pos _, hs.forced, hs.once, ?_⟩
  · intro p hp
    obtain ⟨positive, below, rung, attempts, accepted, ackHash⟩ := hs.entries p hp
    exact ⟨positive, Nat.lt_succ_of_lt below, rung, attempts, accepted, ackHash⟩
  · exact fun id hid => hs.unused id (Nat.le_of_succ_le hid)
  · exact fun id hid => ⟨Nat.lt_succ_of_lt (hs.gone id hid).1, (hs.gone id hid).2⟩

/-- An ack completes the first entry that accepts it, if there is one. -/
theorem complete_cases (s : ReliableSender) (ackHash : Bytes) :
    ((∀ p ∈ s.pending, ackHash ∉ p.acceptedAckHashes) ∧ s.complete ackHash = (none, s)) ∨
    ∃ ahead p behind, s.pending = ahead ++ p :: behind ∧ ackHash ∈ p.acceptedAckHashes ∧
      (∀ other ∈ ahead, ackHash ∉ other.acceptedAckHashes) ∧
      s.complete ackHash = (some { ackHash := p.ackHash, destPubkey := p.destPubkey },
        { s with pending := ahead ++ behind, completed := p.id :: s.completed }) := by
  have haccepts : ∀ p : Pending,
      p.acceptedAckHashes.any (· = ackHash) = true ↔ ackHash ∈ p.acceptedAckHashes := by
    intro p
    simp
  cases hfind : s.pending.find? (fun p : Pending => p.acceptedAckHashes.any (· = ackHash)) with
  | none =>
      refine .inl ⟨fun p hp hin => ?_, by simp only [complete, hfind]⟩
      exact List.find?_eq_none.mp hfind p hp ((haccepts p).mpr hin)
  | some p =>
      obtain ⟨hp, ahead, behind, hsplit, hahead⟩ := List.find?_eq_some_iff_append.mp hfind
      have hnot : ∀ other ∈ ahead,
          ¬ other.acceptedAckHashes.any (· = ackHash) = true := by
        intro other hother
        have hfalse := hahead other hother
        rw [Bool.not_eq_true'] at hfalse
        rw [hfalse]
        exact Bool.false_ne_true
      refine .inr ⟨ahead, p, behind, hsplit, (haccepts p).mp hp,
        fun other hother hin => hnot other hother ((haccepts other).mpr hin), ?_⟩
      simp only [complete, hfind]
      rw [hsplit, List.eraseP_append_right _ hnot,
        List.eraseP_cons_of_pos (p := fun q : Pending => q.acceptedAckHashes.any (· = ackHash)) hp]

/-- The entry an ack completes is gone, and its number was not completed before. -/
theorem Sound.complete (hs : Sound lib s) (ackHash : Bytes) : Sound lib (s.complete ackHash).2 := by
  rcases complete_cases s ackHash with ⟨_, heq⟩ | ⟨ahead, p, behind, hsplit, _, _, heq⟩
  · rw [heq]
    exact hs
  · have hmem : p ∈ s.pending := by
      rw [hsplit]
      simp
    have hsub : (ahead ++ behind).Sublist s.pending := by
      rw [hsplit]
      exact (List.sublist_cons_self p behind).append_left ahead
    have hless := hs.sublist hsub
    have hdistinct := hs.distinct
    rw [Distinct, hsplit, List.map_append, List.map_cons, List.nodup_middle, List.nodup_cons,
      ← List.map_append] at hdistinct
    rw [heq]
    refine ⟨hless.distinct, hless.bounded, ?_, hless.ladder, hless.unused, hless.counting,
      hless.forced, ?_, ?_⟩
    · intro p' hp'
      obtain ⟨positive, below, rung, attempts, accepted, hash⟩ := hless.entries p' hp'
      exact ⟨positive, below, rung, attempts, accepted, hash⟩
    · exact List.nodup_cons.mpr ⟨fun hdone => (hs.gone p.id hdone).2 p hmem rfl, hs.once⟩
    · intro id hid
      rcases List.mem_cons.mp hid with rfl | hold
      · refine ⟨(hs.entries p hmem).below, fun p' hp' hsame => ?_⟩
        exact hdistinct.1 (hsame ▸ List.mem_map_of_mem hp')
      · exact ⟨(hs.gone id hold).1, fun p' hp' => (hs.gone id hold).2 p' (hsub.subset hp')⟩

/-! ## Attempts -/

theorem attemptsOf_note (attempts : List Attempt) (a : Attempt) (id : Nat) :
    attemptsOf { s with attempts := attempts ++ [a] } id =
      attemptsOf { s with attempts } id ++ if a.id = id then [a.attempt] else [] := by
  simp only [attemptsOf, List.filter_append, List.map_append]
  by_cases hid : a.id = id <;> simp [hid]

/-- A send with no retry state leaves only its one attempt on record. -/
theorem Sound.noteCli (hs : Sound lib s) : Sound lib
    { s with attempts := s.attempts ++ [{ id := 0, attempt := 0, forceFlood := false }] } := by
  have hsame : ∀ id, 0 < id → attemptsOf
      { s with attempts := s.attempts ++ [{ id := 0, attempt := 0, forceFlood := false }] } id =
        s.attemptsOf id := by
    intro id hid
    rw [attemptsOf_note, if_neg hid.ne]
    exact List.append_nil _
  refine ⟨hs.distinct, hs.bounded, ?_, ?_, ?_, hs.counting, ?_, hs.once, hs.gone⟩
  · intro p hp
    obtain ⟨positive, below, rung, attempts, accepted, ackHash⟩ := hs.entries p hp
    exact ⟨positive, below, rung, (hsame p.id positive).trans attempts, accepted, ackHash⟩
  · intro id hid
    rw [hsame id hid]
    exact hs.ladder id hid
  · intro id hid
    rw [hsame id (lt_of_lt_of_le hs.counting hid)]
    exact hs.unused id hid
  · intro a ha
    rcases List.mem_append.mp ha with hold | hnew
    · exact hs.forced a hold
    · rw [List.mem_singleton.mp hnew]
      rfl

/-- The state of `send` when its first attempt is handed over. -/
def registered (lib : Crypto.Library) (s : ReliableSender) (p : Pending) : ReliableSender :=
  { s with
    nextId := s.nextId + 1
    pending := s.pending ++ [p.accept (p.onAirHash lib s.self)]
    attempts := s.attempts ++ [{ id := p.id, attempt := p.attempt, forceFlood := false }] }

/-- Registering a fresh operation within the limit is sound. -/
theorem Sound.registered (hs : Sound lib s) {p : Pending}
    (hroom : s.pending.length < s.pendingLimit)
    (hid : p.id = s.nextId) (hattempt : p.attempt = 0) (hnone : p.acceptedAckHashes = []) :
    Sound lib (s.registered lib p) := by
  have hfresh : ∀ p' ∈ s.pending, p'.id ≠ p.id := by
    intro p' hp'
    rw [hid]
    exact (hs.entries p' hp').below.ne
  have hold : ∀ id, id ≠ s.nextId → (s.registered lib p).attemptsOf id = s.attemptsOf id := by
    intro id hne
    show attemptsOf { s with attempts := s.attempts ++ [_] } id = _
    rw [attemptsOf_note, if_neg (by rw [hid]; exact hne.symm)]
    exact List.append_nil _
  have hnew : (s.registered lib p).attemptsOf s.nextId = [0] := by
    show attemptsOf { s with attempts := s.attempts ++ [_] } s.nextId = _
    rw [attemptsOf_note, if_pos hid, hattempt]
    show s.attemptsOf s.nextId ++ [0] = [0]
    rw [hs.unused _ le_rfl]
    rfl
  refine ⟨?_, ?_, ?_, ?_, ?_, Nat.succ_pos _, ?_, hs.once, ?_⟩
  · show ((s.pending ++ [p.accept _]).map (·.id)).Nodup
    rw [List.map_append, List.nodup_append]
    refine ⟨hs.distinct, List.nodup_singleton _, fun id hmem other hother => ?_⟩
    obtain ⟨p', hp', rfl⟩ := List.mem_map.mp hmem
    rw [List.mem_singleton.mp hother]
    exact hfresh p' hp'
  · show (s.pending ++ [_]).length ≤ s.pendingLimit
    rw [List.length_append]
    exact hroom
  · intro p' hp'
    rcases List.mem_append.mp hp' with hmem | hmem
    · obtain ⟨positive, below, rung, attempts, accepted, ackHash⟩ := hs.entries p' hmem
      exact ⟨positive, Nat.lt_succ_of_lt below, rung, (hold p'.id below.ne).trans attempts,
        accepted, ackHash⟩
    · rw [List.mem_singleton.mp hmem]
      refine ⟨?_, ?_, ?_, ?_, ?_, ?_⟩
      · show 0 < p.id
        rw [hid]
        exact hs.counting
      · show p.id < s.nextId + 1
        omega
      · show p.attempt < kMaxAttempts
        rw [hattempt]
        decide
      · show (s.registered lib p).attemptsOf p.id = [0, 1, 2, 3].take (p.attempt.toNat + 1)
        rw [hid, hnew, hattempt]
        rfl
      · show p.acceptedAckHashes ++ [p.onAirHash lib s.self] =
          ([0, 1, 2, 3].take (p.attempt.toNat + 1)).map _
        rw [hnone, hattempt]
        show [p.onAirHash lib s.self] = [hashAt lib s.self _ 0]
        rw [hashAt, ← hattempt]
        rfl
      · show (if p.attempt = 0 then p.onAirHash lib s.self else p.ackHash) = _
        rw [if_pos hattempt, hashAt, ← hattempt]
        rfl
  · intro id hpos
    by_cases hnext : id = s.nextId
    · rw [hnext, hnew]
      exact ⟨[1, 2, 3], rfl⟩
    · rw [hold id hnext]
      exact hs.ladder id hpos
  · intro id hle
    have hlater : s.nextId + 1 ≤ id := hle
    rw [hold id (by omega)]
    exact hs.unused id (by omega)
  · intro a ha
    rcases List.mem_append.mp ha with hmem | hmem
    · exact hs.forced a hmem
    · rw [List.mem_singleton.mp hmem, hattempt]
      rfl
  · intro id hdone
    obtain ⟨hlt, hgone⟩ := hs.gone id hdone
    refine ⟨Nat.lt_succ_of_lt hlt, fun p' hp' => ?_⟩
    rcases List.mem_append.mp hp' with hmem | hmem
    · exact hgone p' hmem
    · rw [List.mem_singleton.mp hmem]
      show p.id ≠ id
      omega

/-- An entry on its next rung, with that attempt's hash accepted. -/
def climb (lib : Crypto.Library) (self : LocalIdentity) (p : Pending) : Pending :=
  p.stop.advance.accept (p.stop.advance.onAirHash lib self)

/-- The state of a retry when its attempt is handed over. -/
def climbed (lib : Crypto.Library) (s : ReliableSender) (p : Pending) (forceFlood : Bool) :
    ReliableSender :=
  { s with
    pending := s.pending.map fun q => if q.id = p.id then climb lib s.self q else q
    attempts := s.attempts ++ [{ id := p.id, attempt := p.attempt + 1, forceFlood }] }

/-- Below the last rung there are three. -/
theorem rung_cases {attempt : UInt8} (hnext : attempt + 1 < kMaxAttempts)
    (hrung : attempt < kMaxAttempts) : attempt = 0 ∨ attempt = 1 ∨ attempt = 2 := by
  have hlast : kMaxAttempts.toNat = 4 := rfl
  have hzero : (0 : UInt8).toNat = 0 := rfl
  have hone : (1 : UInt8).toNat = 1 := rfl
  have htwo : (2 : UInt8).toNat = 2 := rfl
  rw [UInt8.lt_iff_toNat_lt, UInt8.toNat_add, hlast, hone] at hnext
  rw [UInt8.lt_iff_toNat_lt, hlast] at hrung
  rw [← UInt8.toNat_inj, ← UInt8.toNat_inj, ← UInt8.toNat_inj, hzero, hone, htwo]
  omega

/-- The next rung adds one attempt to those made. -/
theorem made_climb {p : Pending} (hnext : p.attempt + 1 < kMaxAttempts)
    (hrung : p.attempt < kMaxAttempts) (self : LocalIdentity) :
    made (climb lib self p) = made p ++ [p.attempt + 1] := by
  show [0, 1, 2, 3].take ((p.attempt + 1).toNat + 1) = [0, 1, 2, 3].take (p.attempt.toNat + 1) ++ _
  rcases rung_cases hnext hrung with hzero | hone | htwo
  · rw [hzero]
    rfl
  · rw [hone]
    rfl
  · rw [htwo]
    rfl

theorem Sound.climbed (hs : Sound lib s) {p : Pending} (hp : p ∈ s.pending)
    (hnext : p.attempt + 1 < kMaxAttempts) :
    Sound lib (s.climbed lib p (decide (p.attempt + 1 = 3))) := by
  have hentry := hs.entries p hp
  have hself : ∀ q ∈ s.pending, q.id = p.id → q = p := fun q hq hid =>
    List.inj_on_of_nodup_map hs.distinct hq hp hid
  have hids : ∀ q : Pending, (if q.id = p.id then climb lib s.self q else q).id = q.id := by
    intro q
    split <;> rfl
  have hold : ∀ id, id ≠ p.id →
      (s.climbed lib p (decide (p.attempt + 1 = 3))).attemptsOf id = s.attemptsOf id := by
    intro id hne
    show attemptsOf { s with attempts := s.attempts ++ [_] } id = _
    rw [attemptsOf_note, if_neg hne.symm]
    exact List.append_nil _
  have hnew : (s.climbed lib p (decide (p.attempt + 1 = 3))).attemptsOf p.id =
      made p ++ [p.attempt + 1] := by
    show attemptsOf { s with attempts := s.attempts ++ [_] } p.id = _
    rw [attemptsOf_note, if_pos rfl]
    show s.attemptsOf p.id ++ _ = _
    rw [hentry.attempts]
  have hmade : made (climb lib s.self p) = made p ++ [p.attempt + 1] :=
    made_climb hnext hentry.rung s.self
  refine ⟨?_, ?_, ?_, ?_, ?_, hs.counting, ?_, hs.once, ?_⟩
  · show ((s.pending.map _).map Pending.id).Nodup
    rw [List.map_map, show (Pending.id ∘ fun q => if q.id = p.id then climb lib s.self q else q) =
      Pending.id from funext hids]
    exact hs.distinct
  · show (s.pending.map _).length ≤ s.pendingLimit
    rw [List.length_map]
    exact hs.bounded
  · intro p' hp'
    obtain ⟨q, hq, rfl⟩ := List.mem_map.mp hp'
    by_cases hid : q.id = p.id
    · rw [if_pos hid, hself q hq hid]
      refine ⟨hentry.positive, hentry.below, hnext, hnew.trans hmade.symm, ?_, ?_⟩
      · rw [hmade, List.map_append]
        show p.acceptedAckHashes ++ [_] = _
        rw [hentry.accepted]
        rfl
      · show (if p.attempt + 1 = 0 then _ else p.ackHash) = _
        rw [if_neg ?_, hentry.ackHash]
        · rfl
        · rcases rung_cases hnext hentry.rung with hzero | hone | htwo
          · rw [hzero]
            decide
          · rw [hone]
            decide
          · rw [htwo]
            decide
    · rw [if_neg hid]
      obtain ⟨positive, below, rung, attempts, accepted, ackHash⟩ := hs.entries q hq
      exact ⟨positive, below, rung, (hold q.id hid).trans attempts, accepted, ackHash⟩
  · intro id hpos
    by_cases hid : id = p.id
    · rw [hid, hnew, ← hmade]
      exact List.take_prefix _ _
    · rw [hold id hid]
      exact hs.ladder id hpos
  · intro id hle
    have hne : id ≠ p.id := (lt_of_lt_of_le hentry.below hle).ne'
    rw [hold id hne]
    exact hs.unused id hle
  · intro a ha
    rcases List.mem_append.mp ha with hmem | hmem
    · exact hs.forced a hmem
    · rw [List.mem_singleton.mp hmem]
  · intro id hdone
    obtain ⟨hlt, hgone⟩ := hs.gone id hdone
    refine ⟨hlt, fun p' hp' => ?_⟩
    obtain ⟨q, hq, rfl⟩ := List.mem_map.mp hp'
    rw [hids]
    exact hgone q hq

/-! ## The operations, up to the hand-over -/

theorem erase_modify (hs : s.Distinct) (id : Nat) {f : Pending → Pending}
    (hf : ∀ p, (f p).id = p.id) : (s.modify id f).erase id = s.erase id := by
  rw [modify_eq_map hs, erase, erase]
  congr 1
  rw [List.filter_map]
  have hids : ((fun p : Pending => decide (p.id ≠ id)) ∘ fun p => if p.id = id then f p else p) =
      fun p => decide (p.id ≠ id) := by
    funext p
    simp only [Function.comp_apply]
    split
    · rw [hf]
    · rfl
  rw [hids]
  conv_rhs => rw [← List.map_id (s.pending.filter _)]
  apply List.map_congr_left
  intro p hp
  have hne : p.id ≠ id := by simpa using (List.mem_filter.mp hp).2
  rw [if_neg hne]
  rfl

theorem Distinct.modify (hs : s.Distinct) (id : Nat) {f : Pending → Pending}
    (hf : ∀ p, (f p).id = p.id) : (s.modify id f).Distinct := by
  rw [modify_eq_map hs]
  show ((s.pending.map _).map Pending.id).Nodup
  rw [List.map_map, show (Pending.id ∘ fun p => if p.id = id then f p else p) = Pending.id from
    funext fun p => by
      simp only [Function.comp_apply]
      split
      · exact hf p
      · rfl]
  exact hs

/-- Registering an operation and noting its first attempt. -/
theorem noteAttempt_register (hs : s.Distinct) {p : Pending}
    (hfresh : ∀ q ∈ s.pending, q.id ≠ p.id) (hpos : p.id ≠ 0) :
    noteAttempt { s with nextId := s.nextId + 1, pending := s.pending ++ [p] } p
      (p.onAirHash lib s.self) false = s.registered lib p := by
  have hdistinct : Distinct { s with nextId := s.nextId + 1, pending := s.pending ++ [p] } := by
    show ((s.pending ++ [p]).map Pending.id).Nodup
    rw [List.map_append, List.nodup_append]
    refine ⟨hs, List.nodup_singleton _, fun id hmem other hother => ?_⟩
    obtain ⟨q, hq, rfl⟩ := List.mem_map.mp hmem
    rw [List.mem_singleton.mp hother]
    exact hfresh q hq
  have hothers : s.pending.map (fun q => if q.id = p.id then q.accept (p.onAirHash lib s.self)
      else q) = s.pending := by
    conv_rhs => rw [← List.map_id s.pending]
    apply List.map_congr_left
    intro q hq
    rw [if_neg (hfresh q hq)]
    rfl
  simp only [noteAttempt, if_neg hpos]
  rw [modify_eq_map hdistinct]
  simp only [List.map_append, hothers, List.map_cons, List.map_nil, if_true, registered]

/-- A retry's changes to its entry, noted. -/
theorem noteAttempt_climb (hs : s.Distinct) {p : Pending} (hp : p ∈ s.pending) (hpos : p.id ≠ 0)
    (forceFlood : Bool) :
    noteAttempt ((s.modify p.id Pending.stop).modify p.id Pending.advance) p.stop.advance
        (p.stop.advance.onAirHash lib s.self) forceFlood =
      s.climbed lib p forceFlood := by
  have hstopped := hs.modify p.id (f := Pending.stop) fun _ => rfl
  have hraised := hstopped.modify p.id (f := Pending.advance) fun _ => rfl
  simp only [noteAttempt]
  rw [if_neg (show p.stop.advance.id ≠ 0 from hpos)]
  rw [modify_eq_map hraised, modify_eq_map hstopped, modify_eq_map hs]
  simp only [List.map_map, climbed]
  congr 1
  apply List.map_congr_left
  intro q hq
  simp only [Function.comp_apply]
  by_cases hid : q.id = p.id
  · obtain rfl : q = p := List.inj_on_of_nodup_map hs hq hp hid
    simp only [Pending.stop_id, Pending.advance_id, if_true]
    rfl
  · simp only [Pending.stop_id, Pending.advance_id, if_neg hid]

end ReliableSender

namespace Air

open ReliableSender

variable (lib : Crypto.Library) (radio : RadioView)

/-- The handler an attempt's packet carries. -/
def resultOf (p : Pending) : Option Nat := if p.id = 0 then none else some p.id

/-- A packet made of the present attempt of `p`. -/
structure Carries (identity : LocalIdentity) (p : Pending) (packet : Packet) : Prop where
  type : packet.type = .txtMsg
  payload : packet.payload = p.payload lib identity

/-- An attempt has no key to seal with, or does not fit a packet, or is handed
to the dispatcher. -/
theorem sendAttempt_cases (d : Air) (p : Pending) {dest : Contact} (forceFlood : Bool)
    (hdest : dest.pubkey = p.destPubkey) {noted : ReliableSender}
    (hnoted : d.client.noteAttempt p (p.onAirHash lib d.client.self) forceFlood = noted) :
    sendAttempt lib radio d p dest forceFlood = (.error .noSharedSecret, d) ∨
    (∃ stats, sendAttempt lib radio d p dest forceFlood =
      (.error .tooLong, { d with client := noted, stats })) ∨
    ∃ packet : Packet, packet.valid = true ∧ Carries lib d.client.self p packet ∧
      sendAttempt lib radio d p dest forceFlood = (.ok (p.onAirHash lib d.client.self),
        (Dispatcher.send onTxResult lib radio { d with client := noted } packet kPriorityDirect 0
          (resultOf p)).2) := by
  subst hnoted
  rw [sendAttempt]
  dsimp only
  split
  · exact .inl rfl
  · right
    rw [routeTo]
    rw [hdest]
    generalize hpacket : routed dest (forceFlood || !dest.pathKnown) _ = packet
    have hcarries : Carries lib d.client.self p packet := by
      rw [← hpacket, routed]
      split
      · refine ⟨rfl, ?_⟩
        simp only [Pending.payload, Contact.sharedSecret, Contact.id, hdest]
      · refine ⟨rfl, ?_⟩
        simp only [Pending.payload, Contact.sharedSecret, Contact.id, hdest]
    cases hvalid : packet.valid with
    | false =>
        left
        refine ⟨{ d.stats with txDropped := d.stats.txDropped + 1 }, ?_⟩
        simp only [Dispatcher.send, hvalid, Bool.not_false, if_true]
        rfl
    | true =>
        right
        refine ⟨packet, hvalid, hcarries, ?_⟩
        simp only [Dispatcher.send, hvalid, Bool.not_true, Bool.false_eq_true, if_false]
        rfl

/-- A send that is refused: only statistics, the counter and the record of
attempts may have moved. -/
structure Refused (d d' : Air) : Prop where
  eq : ∃ stats client, d' = { d with stats, client }
  sound : Sound lib d'.client
  identity : d'.client.self = d.client.self
  limit : d'.client.pendingLimit = d.client.pendingLimit
  nextId : d.client.nextId ≤ d'.client.nextId
  pending : d'.client.pending = d.client.pending
  answered : d'.client.answered = d.client.answered

/-- A new operation: its number is fresh and it has made no attempt. -/
structure Fresh (s : ReliableSender) (p : Pending) : Prop where
  id : p.id = s.nextId
  attempt : p.attempt = 0
  accepted : p.acceptedAckHashes = []
  timer : p.timer = none
  room : s.pending.length < s.pendingLimit

theorem filter_fresh {pending : List Pending} {p : Pending}
    (hfresh : ∀ q ∈ pending, q.id ≠ p.id) :
    (pending ++ [p]).filter (fun q => decide (q.id ≠ p.id)) = pending := by
  rw [List.filter_append, List.filter_eq_self.mpr fun q hq => by simpa using hfresh q hq]
  simp

variable {lib radio}

/-- What `sendFresh` makes of a text with retry state. -/
theorem sendFresh_cases {d : Air} (hs : Sound lib d.client) (dest : Contact) (text : Bytes)
    (txtType : UInt8) (timestamp : UInt32)
    (hroom : d.client.pending.length < d.client.pendingLimit) :
    (∃ err d', sendFresh lib radio d true dest text txtType timestamp = (.error err, d') ∧
      Refused lib d d') ∨
    ∃ p packet, fresh d.client true dest text txtType timestamp = p ∧ Fresh d.client p ∧
      packet.valid = true ∧ Carries lib d.client.self p packet ∧
      sendFresh lib radio d true dest text txtType timestamp = (.ok (p.onAirHash lib d.client.self),
        answer p.id (p.onAirHash lib d.client.self) (Dispatcher.send onTxResult lib radio
          { d with client := d.client.registered lib p } packet kPriorityDirect 0
          (some p.id)).2) := by
  have hisFresh : Fresh d.client (fresh d.client true dest text txtType timestamp) :=
    ⟨rfl, rfl, rfl, rfl, hroom⟩
  have hdest : dest.pubkey = (fresh d.client true dest text txtType timestamp).destPubkey := rfl
  rw [sendFresh]
  generalize hasked : fresh d.client true dest text txtType timestamp = p at hisFresh hdest ⊢
  have hfresh : ∀ q ∈ d.client.pending, q.id ≠ p.id := by
    intro q hq
    rw [hisFresh.id]
    exact (hs.entries q hq).below.ne
  have hpos : p.id ≠ 0 := by
    rw [hisFresh.id]
    exact hs.counting.ne'
  have hsound := hs.registered hroom hisFresh.id hisFresh.attempt hisFresh.accepted
  have hnoted : (register d p).client.noteAttempt p
      (p.onAirHash lib (register d p).client.self) false = d.client.registered lib p :=
    noteAttempt_register hs.distinct hfresh hpos
  rw [if_pos rfl]
  rcases sendAttempt_cases lib radio (register d p) p false hdest hnoted with
    hnokey | ⟨stats, hlong⟩ | ⟨packet, hvalid, hcarries, hsent⟩
  · left
    rw [hnokey]
    refine ⟨_, _, rfl, ⟨_, _, rfl⟩, ?_, rfl, rfl, Nat.le_succ _, filter_fresh hfresh, rfl⟩
    have herased : (register d p).client.erase p.id =
        { d.client with nextId := d.client.nextId + 1 } := by
      rw [register, ReliableSender.erase]
      simp only [filter_fresh hfresh]
    show Sound lib ((register d p).client.erase p.id)
    rw [herased]
    exact hs.skip
  · left
    rw [hlong]
    have hleft := filter_fresh (p := p.accept (p.onAirHash lib d.client.self)) hfresh
    exact ⟨_, _, rfl, ⟨stats, _, rfl⟩, hsound.erase p.id, rfl, rfl, Nat.le_succ _, hleft, rfl⟩
  · right
    rw [resultOf, if_neg hpos] at hsent
    rw [hsent]
    exact ⟨p, packet, rfl, hisFresh, hvalid, hcarries, rfl⟩

/-- What `sendFresh` makes of CLI data, which has none. -/
theorem sendFresh_cli_cases {d : Air} (hs : Sound lib d.client) (dest : Contact) (text : Bytes)
    (txtType : UInt8) (timestamp : UInt32) :
    (∃ err d', sendFresh lib radio d false dest text txtType timestamp = (.error err, d') ∧
      Refused lib d d') ∨
    ∃ packet hash, packet.valid = true ∧
      Carries lib d.client.self (fresh d.client false dest text txtType timestamp) packet ∧
      sendFresh lib radio d false dest text txtType timestamp = (.ok hash,
        answer 0 hash (Dispatcher.send onTxResult lib radio
          { d with client := { d.client with
            attempts := d.client.attempts ++ [{ id := 0, attempt := 0, forceFlood := false }] } }
          packet kPriorityDirect 0 none).2) := by
  rw [sendFresh]
  dsimp only
  rw [if_neg Bool.false_ne_true]
  rcases sendAttempt_cases lib radio d (fresh d.client false dest text txtType timestamp) false
      (show dest.pubkey = (fresh d.client false dest text txtType timestamp).destPubkey from rfl)
      rfl with
    hnokey | ⟨stats, hlong⟩ | ⟨packet, hvalid, hcarries, hsent⟩
  · left
    rw [hnokey]
    exact ⟨_, _, rfl, ⟨d.stats, d.client, rfl⟩, hs, rfl, rfl, le_rfl, rfl, rfl⟩
  · left
    rw [hlong]
    exact ⟨_, _, rfl, ⟨stats, _, rfl⟩, hs.noteCli, rfl, rfl, le_rfl, rfl, rfl⟩
  · right
    rw [hsent]
    exact ⟨packet, _, hvalid, hcarries, rfl⟩

/-- A send is refused, coalesced with one that waits already, or handed over,
with or without retry state. -/
inductive Sending (lib : Crypto.Library) (radio : RadioView) (d : Air) :
    Except SendError Bytes × Air → Prop where
  | refused {err : SendError} {d' : Air} (hrefused : Refused lib d d') :
      Sending lib radio d (.error err, d')
  | coalesced {p : Pending} (hp : p ∈ d.client.pending) :
      Sending lib radio d (.ok p.ackHash, answer p.id p.ackHash d)
  | cli {packet : Packet} {hash : Bytes} (hvalid : packet.valid = true) :
      Sending lib radio d (.ok hash,
        answer 0 hash (Dispatcher.send onTxResult lib radio
          { d with client := { d.client with
            attempts := d.client.attempts ++ [{ id := 0, attempt := 0, forceFlood := false }] } }
          packet kPriorityDirect 0 none).2)
  | handed {p : Pending} {packet : Packet} (hfresh : Fresh d.client p)
      (hvalid : packet.valid = true) (hcarries : Carries lib d.client.self p packet) :
      Sending lib radio d (.ok (p.onAirHash lib d.client.self),
        answer p.id (p.onAirHash lib d.client.self) (Dispatcher.send onTxResult lib radio
          { d with client := d.client.registered lib p } packet kPriorityDirect 0
          (some p.id)).2)

theorem sending_send {d : Air} (hs : Sound lib d.client) (dest : Contact) (text : Bytes)
    (txtType : UInt8) (timestamp : UInt32) :
    Sending lib radio d (send lib radio d dest text txtType timestamp) := by
  rw [send]
  split
  · rcases sendFresh_cli_cases hs dest text txtType timestamp with
      ⟨err, d', heq, hrefused⟩ | ⟨packet, hash, hvalid, -, heq⟩
    · rw [heq]
      exact .refused hrefused
    · rw [heq]
      exact .cli hvalid
  · split
    · next duplicate hfind => exact .coalesced (List.mem_of_find?_eq_some hfind)
    · split
      · exact .refused ⟨⟨d.stats, d.client, rfl⟩, hs, rfl, rfl, le_rfl, rfl, rfl⟩
      · next hroom =>
        rcases sendFresh_cases hs dest text txtType timestamp (Nat.lt_of_not_le hroom) with
          ⟨err, d', heq, hrefused⟩ | ⟨p, packet, -, hfresh, hvalid, hcarries, heq⟩
        · rw [heq]
          exact .refused hrefused
        · rw [heq]
          exact .handed hfresh hvalid hcarries

/-- A timer does nothing, ends its operation, or hands the next attempt over. -/
inductive Retrying (lib : Crypto.Library) (radio : RadioView) (d : Air) (id : Nat) : Air → Prop where
  | idle : Retrying lib radio d id d
  | erased : Retrying lib radio d id { d with client := d.client.erase id }
  | tooLong {p : Pending} (stats : DispatcherStats) (hp : p ∈ d.client.pending) (hid : p.id = id)
      (hnext : p.attempt + 1 < kMaxAttempts) :
      Retrying lib radio d id { d with
        client := (d.client.climbed lib p (decide (p.attempt + 1 = 3))).erase id, stats }
  | handed {p : Pending} {packet : Packet} (hp : p ∈ d.client.pending) (hid : p.id = id)
      (htimer : p.timer.isSome = true) (hnext : p.attempt + 1 < kMaxAttempts)
      (hvalid : packet.valid = true)
      (hcarries : Carries lib d.client.self (climb lib d.client.self p) packet) :
      Retrying lib radio d id (Dispatcher.send onTxResult lib radio
        { d with client := d.client.climbed lib p (decide (p.attempt + 1 = 3)) } packet
        kPriorityDirect 0 (some p.id)).2

/-- Erasing an entry undoes what a retry wrote into it. -/
theorem erase_advanced {s : ReliableSender} (hs : s.Distinct) (id : Nat) :
    ((s.modify id Pending.stop).modify id Pending.advance).erase id = s.erase id := by
  have hstopped := hs.modify id (f := Pending.stop) fun _ => rfl
  rw [erase_modify hstopped id (f := Pending.advance) fun _ => rfl,
    erase_modify hs id (f := Pending.stop) fun _ => rfl]

theorem retrying_onRetry {d : Air} (hs : Sound lib d.client) (contacts : ContactStore)
    {p : Pending} (hp : p ∈ d.client.pending) (htimer : p.timer.isSome = true) :
    Retrying lib radio d p.id (onRetry lib radio contacts
      { d with client := d.client.modify p.id Pending.stop } p.id) := by
  have hpos : p.id ≠ 0 := (hs.entries p hp).positive.ne'
  have hstopped := hs.distinct.modify p.id (f := Pending.stop) fun _ => rfl
  have hfind : (d.client.modify p.id Pending.stop).find p.id = some p.stop := by
    refine (find_eq_some hstopped).mpr ⟨?_, rfl⟩
    rw [modify_eq_map hs.distinct]
    exact List.mem_map.mpr ⟨p, hp, by rw [if_pos rfl]⟩
  have herased := erase_advanced hs.distinct p.id
  simp only [onRetry, hfind]
  split
  · rw [herased]
    exact .erased
  · next hmore =>
    have hnext : p.attempt + 1 < kMaxAttempts := UInt8.not_le.mp hmore
    cases hcontact : contacts.find p.destPubkey with
    | none =>
        have hgone : contacts.find p.stop.advance.destPubkey = none := hcontact
        rw [hgone]
        dsimp only
        rw [herased]
        exact .erased
    | some dest =>
        have hfound : contacts.find p.stop.advance.destPubkey = some dest := hcontact
        have hdest : dest.pubkey = p.destPubkey := by simpa using List.find?_some hcontact
        rw [hfound]
        show Retrying lib radio d p.id (eraseUnlessSent p.id (sendAttempt lib radio
          { d with client := (d.client.modify p.id Pending.stop).modify p.id Pending.advance }
          p.stop.advance dest (decide (p.attempt + 1 = 3))))
        rcases sendAttempt_cases lib radio
            { d with client := (d.client.modify p.id Pending.stop).modify p.id Pending.advance }
            p.stop.advance (decide (p.attempt + 1 = 3)) hdest
            (noteAttempt_climb hs.distinct hp hpos _) with
          hnokey | ⟨stats, hlong⟩ | ⟨packet, hvalid, hcarries, hsent⟩
        · rw [hnokey, eraseUnlessSent, herased]
          exact .erased
        · rw [hlong]
          exact .tooLong stats hp rfl hnext
        · rw [hsent, resultOf, if_neg (show p.stop.advance.id ≠ 0 from hpos)]
          exact .handed hp rfl htimer hnext hvalid ⟨hcarries.type, hcarries.payload⟩

theorem retrying_onTimer {d : Air} (hs : Sound lib d.client) (contacts : ContactStore) (id : Nat) :
    Retrying lib radio d id (onTimer lib radio contacts d id) := by
  rw [onTimer]
  split
  · exact .idle
  · next p hfind =>
    obtain ⟨hp, rfl⟩ := (find_eq_some hs.distinct).mp hfind
    split
    · exact .idle
    · next dueMs htimer =>
      split
      · exact .idle
      · exact retrying_onRetry hs contacts hp (by rw [htimer]; rfl)

end Air

end Coreletd.Mesh
