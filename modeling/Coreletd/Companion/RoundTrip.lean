/-
# Round-trip times

The session keeps one time, that of the last text it answered, while any number
of texts can be waiting. A report is of the text's own round trip just when no
other answer came in between, or all within one reading of the clock.
-/

import Coreletd.Companion.SendText
import Coreletd.Mesh.AckReports
import Coreletd.Mesh.Delivery

namespace Coreletd.Companion

open Coreletd.Library
open Coreletd.Library.SerialClock
open Coreletd.Mesh
open Coreletd.Proto

/-- The first answer given for an operation with its hash. -/
def Confirmation.first (c : Confirmation) : Option Answer :=
  c.answers.reverse.find? fun a => a.id = c.id ∧ a.ackHash = c.ackHash

/-- What a report says, without the answers before it. -/
def Confirmation.said (c : Confirmation) : Nat × Bytes × Option Answer × Bytes :=
  (c.time, c.ackHash, c.first, c.frame)

/-- The report says how long ago the operation was first answered for. -/
def Confirmation.Exact (c : Confirmation) (first : Answer) : Prop :=
  c.frame = [kPushSendConfirmed] ++ c.ackHash ++ putU32 (reading (c.time - first.time))

/-- What holds of every report. -/
structure Confirmation.Backed (c : Confirmation) : Prop where
  asked : ∃ a ∈ c.answers, a.id = c.id ∧ a.ackHash = c.ackHash
  past : ∀ a ∈ c.answers, a.time ≤ c.time
  frame : ∀ last, c.answers.head? = some last →
    c.frame = [kPushSendConfirmed] ++ c.ackHash ++ putU32 (reading c.time - reading last.time)

theorem reading_sub {earlier later : Nat} (hle : earlier ≤ later) :
    reading (later - earlier) = reading later - reading earlier := by
  apply UInt32.toNat_inj.mp
  rw [toNat_reading_sub hle, toNat_reading]

/-- A report is exact just when the last answer has the reading of the first. -/
theorem Confirmation.Backed.exact_iff {c : Confirmation} (hc : c.Backed) :
    ∃ first last, c.first = some first ∧ c.answers.head? = some last ∧ first.time ≤ c.time ∧
      (c.Exact first ↔ reading last.time = reading first.time) := by
  obtain ⟨a, ha, hmatches⟩ := hc.asked
  obtain ⟨first, hfirst⟩ : ∃ first, c.first = some first := by
    rw [← Option.isSome_iff_exists, Confirmation.first, List.find?_isSome]
    exact ⟨a, List.mem_reverse.mpr ha, by simpa using hmatches⟩
  obtain ⟨last, hlast⟩ : ∃ last, c.answers.head? = some last := by
    rw [← Option.isSome_iff_exists, List.isSome_head?]
    simpa using List.ne_nil_of_mem ha
  have hpast : first.time ≤ c.time :=
    hc.past first (List.mem_reverse.mp (List.mem_of_find?_eq_some hfirst))
  refine ⟨first, last, hfirst, hlast, hpast, ?_⟩
  rw [Confirmation.Exact, hc.frame last hlast, reading_sub hpast]
  refine ⟨fun hequal => ?_, fun hequal => by rw [hequal]⟩
  exact (UInt32.sub_right_inj _).mp (putU32_injective (List.append_cancel_left hequal))

namespace TextSession

variable {lib : Crypto.Library}

/-- What the session knows of its answers, and how it has reported. -/
structure Keeps (limit : Nat) (lib : Crypto.Library) (s : TextSession) : Prop where
  recorded : Air.Recorded lib limit s.node.air
  answers : s.answers.map (fun a => (a.id, a.ackHash)) = s.node.air.client.answered
  last : s.lastSendMs = s.answers.head?.map fun a => reading a.time
  past : ∀ a ∈ s.answers, a.time ≤ s.node.air.time
  backed : ∀ c ∈ s.confirmed, c.Backed

variable {limit : Nat} {s : TextSession}

/-- Reporting what was completed since `before`. -/
theorem Keeps.onAcks (hs : s.Keeps limit lib) {before : Node} (hreports : before.Reports s.node) :
    (onAcks before s).Keeps limit lib := by
  obtain ⟨hanswered, done, hdone, hcompleted, htold⟩ := hreports
  refine ⟨hs.recorded, hs.answers, hs.last, hs.past, fun c hc => ?_⟩
  rw [TextSession.onAcks, hcompleted, htold, gained_append, gained_append] at hc
  rcases List.mem_append.mp hc with hnew | hold
  · obtain ⟨⟨id, ackHash⟩, hpair, rfl⟩ := List.mem_map.mp hnew
    have hin : (id, ackHash) ∈ s.answers.map fun a => (a.id, a.ackHash) := by
      rw [hs.answers, hanswered]
      apply hdone
      rwa [List.zip_map', List.map_id'' fun d : Nat × Bytes => rfl] at hpair
    obtain ⟨a, ha, hequal⟩ := List.mem_map.mp hin
    obtain ⟨hid, hhash⟩ := Prod.mk.inj hequal
    refine ⟨⟨a, ha, hid, hhash⟩, hs.past, fun last hlast => ?_⟩
    have helapsed : s.elapsedMs = reading s.node.air.time - reading last.time := by
      have hlast' : s.answers.head? = some last := hlast
      rw [elapsedMs, hs.last, hlast']
      rfl
    show s.ackPush ackHash = _
    rw [ackPush, helapsed]
  · exact hs.backed c hold

/-- What a command does to the session: it is refused, or answered for an
operation. -/
theorem cmdSendTxtMsg_cases (hs : Air.Recorded lib limit s.node.air) (radio : RadioView)
    (args : Bytes) :
    (∃ reply air, s.cmdSendTxtMsg lib radio args = (reply, { s with node := { s.node with air } }) ∧
      air.client.answered = s.node.air.client.answered) ∨
    ∃ target ack air id, air.client.answered = (id, ack) :: s.node.air.client.answered ∧
      s.cmdSendTxtMsg lib radio args =
        (sentReply target ack, { s with node := { s.node with air } }.noteSent id ack) := by
  rw [cmdSendTxtMsg]
  split
  · exact .inl ⟨_, s.node.air, rfl, rfl⟩
  · next request _ =>
    split
    · exact .inl ⟨_, s.node.air, rfl, rfl⟩
    · next target _ =>
      rcases Air.answered_send hs radio target request.text request.txtType request.timestamp with
        ⟨err, air, hsend, hsame⟩ | ⟨ack, air, id, hsend, hcons⟩
      · rw [hsend]
        exact .inl ⟨_, air, rfl, hsame⟩
      · rw [hsend]
        refine .inr ⟨target, ack, air, id, hcons, ?_⟩
        have hid : lastId { s.node with air } = id := by
          rw [lastId, hcons]
          rfl
        dsimp only
        rw [hid]

/-- A command is nothing or a send to the node. -/
theorem node_cmdSendTxtMsg (lib : Crypto.Library) (s : TextSession) (radio : RadioView)
    (args : Bytes) :
    (s.cmdSendTxtMsg lib radio args).2.node = s.node ∨
    ∃ target text txtType timestamp, (s.cmdSendTxtMsg lib radio args).2.node =
      s.node.step lib (.sendText target text txtType timestamp radio) := by
  rw [cmdSendTxtMsg]
  split
  · exact .inl rfl
  · next request _ =>
    split
    · exact .inl rfl
    · next target _ =>
      refine .inr ⟨target, request.text, request.txtType, request.timestamp, ?_⟩
      rw [Node.step]
      generalize s.node.air.send lib radio target request.text request.txtType request.timestamp =
        result
      obtain ⟨_ | _, _⟩ := result <;> rfl

theorem Keeps.cmdSendTxtMsg (hs : s.Keeps limit lib) (radio : RadioView) (args : Bytes) :
    (s.cmdSendTxtMsg lib radio args).2.Keeps limit lib := by
  have hnode := node_cmdSendTxtMsg lib s radio args
  have hrecorded : Air.Recorded lib limit (s.cmdSendTxtMsg lib radio args).2.node.air := by
    rcases hnode with hsame | ⟨target, text, txtType, timestamp, hsent⟩
    · rw [hsame]
      exact hs.recorded
    · rw [hsent]
      exact Node.recorded_follows (Node.follows_step s.node _) hs.recorded
  have htime : (s.cmdSendTxtMsg lib radio args).2.node.air.time = s.node.air.time := by
    rcases hnode with hsame | ⟨target, text, txtType, timestamp, hsent⟩
    · rw [hsame]
    · rw [hsent]
      exact Air.send_time s.node.air target text txtType timestamp
  rcases cmdSendTxtMsg_cases hs.recorded radio args with
    ⟨reply, air, heq, hanswered⟩ | ⟨target, ack, air, id, hanswered, heq⟩
  · rw [heq] at hrecorded htime ⊢
    refine ⟨hrecorded, hs.answers.trans hanswered.symm, hs.last, fun a ha => ?_, hs.backed⟩
    exact (hs.past a ha).trans htime.ge
  · rw [heq] at hrecorded htime ⊢
    refine ⟨hrecorded, ?_, rfl, fun a ha => ?_, hs.backed⟩
    · show (id, ack) :: s.answers.map _ = air.client.answered
      rw [hs.answers, hanswered]
    · rcases List.mem_cons.mp ha with rfl | ha
      · exact le_rfl
      · exact (hs.past a ha).trans htime.ge

/-- Every event keeps the books. -/
theorem Keeps.step (hs : s.Keeps limit lib) (event : Event) :
    (s.step lib event).Keeps limit lib := by
  cases event with
  | sendTxtMsg args radio => exact hs.cmdSendTxtMsg radio args
  | node event =>
      have hother : (∀ dest text txtType timestamp radio,
          event ≠ .sendText dest text txtType timestamp radio) →
          (TextSession.onAcks s.node { s with node := s.node.step lib event }).Keeps limit lib := by
        intro hquiet
        have hfollows : Node.Follows lib s.node.toOutgoing (s.node.step lib event).toOutgoing :=
          Node.follows_step s.node event
        have hmoved : { s with node := s.node.step lib event }.Keeps limit lib := by
          refine ⟨Node.recorded_follows hfollows hs.recorded, ?_, hs.last, fun a ha => ?_, hs.backed⟩
          · exact hs.answers.trans (Node.reports_step hs.recorded event hquiet).answered.symm
          · exact (hs.past a ha).trans hfollows.time_le
        exact hmoved.onAcks (Node.reports_step hs.recorded event hquiet)
      cases event with
      | sendText dest text txtType timestamp radio => exact hs
      | received raw rssi snrQ4 m => exact hother (by simp)
      | retry id radio => exact hother (by simp)
      | contacts store => exact hother (by simp)
      | channel index ch => exact hother (by simp)
      | setRelay relay => exact hother (by simp)
      | popMessage => exact hother (by simp)
      | sweepDelivered => exact hother (by simp)
      | dispatcher event => exact hother (by simp)

/-- **Round-trip times.** In every run every report of an ack was first answered
for, and it says how long ago that was just when the last answer before it was
given at the same reading of the clock. -/
theorem round_trip_iff (lib : Crypto.Library) (percent : ℚ) (queueLimit pendingLimit : Nat)
    (self : Crypto.LocalIdentity) (contacts : ContactStore) (time : Nat) (cfg : NodeConfig)
    (channels : ChannelStore)
    (inbox : MessageInbox) (files : FileSystem) (events : List Event) :
    ∀ c ∈ (run (step lib) (ofNode (Node.new percent queueLimit pendingLimit self contacts time cfg
        channels inbox files)) events).confirmed,
      ∃ first last, c.first = some first ∧ c.answers.head? = some last ∧ first.time ≤ c.time ∧
        (c.Exact first ↔ reading last.time = reading first.time) := by
  have hstart : (ofNode (Node.new percent queueLimit pendingLimit self contacts time cfg channels
      inbox files)).Keeps pendingLimit lib := by
    refine ⟨Air.recorded_run percent queueLimit pendingLimit self contacts time [], rfl, rfl, ?_, ?_⟩
    · simp [ofNode]
    · simp [ofNode]
  intro c hc
  have hstep : ∀ (s : TextSession) (event : Event), s.Keeps pendingLimit lib →
      (s.step lib event).Keeps pendingLimit lib := fun s event hs => hs.step event
  exact ((run_invariant hstep hstart events).backed c hc).exact_iff

/-! ## Two texts waiting -/

/-- A node that knows Bob and Carol. -/
def twoPeers : Node :=
  Node.new 10 16 8 Node.aliceKeys
    { contacts := [{ pubkey := Node.bobKeys.pub }, { pubkey := List.replicate 32 3 }] } 0 {} {} {}
    fun _ => none

/-- The hash Alice is answered with when she says "hi". -/
def hiHash : Bytes := messageAckHash Crypto.Library.transparent [1, 0, 0, 0, 0, 104, 105]
  Node.aliceKeys.pub

/-- "hi" to Bob, and his ack after a second. -/
def oneSend : List Event :=
  [.sendTxtMsg ([0, 0, 1, 0, 0, 0] ++ List.replicate 6 2 ++ [104, 105]) .down,
    .node (.dispatcher (.tick 1000)),
    .node (.received ({ type := .ack, payload := hiHash ++ [0, 0] } : Packet).encode 0 0
      { radio := .down })]

/-- "hi" to Bob, "ho" to Carol five seconds later, and Bob's ack after another. -/
def crossedSends : List Event :=
  [.sendTxtMsg ([0, 0, 1, 0, 0, 0] ++ List.replicate 6 2 ++ [104, 105]) .down,
    .node (.dispatcher (.tick 5000)),
    .sendTxtMsg ([0, 0, 1, 0, 0, 0] ++ List.replicate 6 3 ++ [104, 111]) .down,
    .node (.dispatcher (.tick 1000)),
    .node (.received ({ type := .ack, payload := hiHash ++ [0, 0] } : Packet).encode 0 0
      { radio := .down })]

def afterOneSend : TextSession := run (step Crypto.Library.transparent) (ofNode twoPeers) oneSend

def afterCrossedSends : TextSession :=
  run (step Crypto.Library.transparent) (ofNode twoPeers) crossedSends

def hiAnswer : Answer := { time := 0, id := 1, ackHash := hiHash }

theorem exists_of_said {confirmed : List Confirmation} {said : Nat × Bytes × Option Answer × Bytes}
    (honly : confirmed.map Confirmation.said = [said]) : ∃ c ∈ confirmed, c.said = said := by
  obtain ⟨c, rfl, hsaid⟩ := List.map_eq_singleton_iff.mp honly
  exact ⟨c, List.mem_singleton_self c, hsaid⟩

/-- Bob's ack is reported with the time since Carol's text. -/
theorem round_trip_of_another :
    ∃ c ∈ afterCrossedSends.confirmed, c.time = 6000 ∧ c.first = some hiAnswer ∧
      c.frame = [kPushSendConfirmed] ++ hiHash ++ putU32 1000 ∧ ¬ c.Exact hiAnswer := by
  have honly : afterCrossedSends.confirmed.map Confirmation.said =
      [(6000, hiHash, some hiAnswer, [kPushSendConfirmed] ++ hiHash ++ putU32 1000)] := by
    decide +kernel
  obtain ⟨c, hc, hsaid⟩ := exists_of_said honly
  simp only [Confirmation.said, Prod.mk.injEq] at hsaid
  obtain ⟨htime, hhash, hfirst, hframe⟩ := hsaid
  refine ⟨c, hc, htime, hfirst, hframe, fun hexact => ?_⟩
  rw [Confirmation.Exact, hframe, hhash, htime] at hexact
  exact absurd (putU32_injective (List.append_cancel_left hexact)) (by decide)

/-- With nothing else sent, the report is of the text's own round trip. -/
theorem round_trip_of_one :
    ∃ c ∈ afterOneSend.confirmed, c.time = 1000 ∧ c.Exact hiAnswer := by
  have honly : afterOneSend.confirmed.map Confirmation.said =
      [(1000, hiHash, some hiAnswer, [kPushSendConfirmed] ++ hiHash ++ putU32 1000)] := by
    decide +kernel
  have hanswers : afterOneSend.confirmed.map (·.answers) = [[hiAnswer]] := by decide +kernel
  obtain ⟨c, hc, hsaid⟩ := exists_of_said honly
  simp only [Confirmation.said, Prod.mk.injEq] at hsaid
  obtain ⟨first, last, hfirst, hlast, -, hexact⟩ :=
    round_trip_iff Crypto.Library.transparent 10 16 8 Node.aliceKeys _ 0 {} {} {} _
      oneSend c hc
  obtain rfl : hiAnswer = first := Option.some.inj (hsaid.2.2.1.symm.trans hfirst)
  have hone : c.answers = [hiAnswer] := by
    have hin := List.mem_map_of_mem (f := (·.answers)) hc
    rw [hanswers] at hin
    exact List.mem_singleton.mp hin
  rw [hone] at hlast
  obtain rfl : hiAnswer = last := Option.some.inj hlast
  exact ⟨c, hc, hsaid.1, hexact.mpr rfl⟩

end TextSession

end Coreletd.Companion
