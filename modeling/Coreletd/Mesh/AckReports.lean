/-
# Acks reported

Whatever a node does but send a text, it reports just the operations it
completes, and each under the hash that `send` returned for it.
-/

import Coreletd.Mesh.AckAgreement
import Coreletd.Mesh.Reception

namespace Coreletd.Mesh

open Coreletd.Crypto
open Coreletd.Proto
open ReliableSender

variable {lib : Crypto.Library}

namespace Node

variable {m : Moment} {n n' n'' : Node} {p : Packet} {limit : Nat}

/-- Between `n` and `n'` some operations were completed, one report was made for
each, and no text was sent. -/
structure Reports (n n' : Node) : Prop where
  answered : n'.air.client.answered = n.air.client.answered
  completions : ∃ done : List (Nat × Bytes), (∀ d ∈ done, d ∈ n.air.client.answered) ∧
    n'.air.client.completed = done.map (·.1) ++ n.air.client.completed ∧
    acksOf n'.notices = done.map (·.2) ++ acksOf n.notices

theorem Reports.none (hanswered : n'.air.client.answered = n.air.client.answered)
    (hcompleted : n'.air.client.completed = n.air.client.completed)
    (htold : acksOf n'.notices = acksOf n.notices) : Reports n n' :=
  ⟨hanswered, [], by simp, hcompleted, htold⟩

theorem Reports.refl (n : Node) : Reports n n := .none rfl rfl rfl

theorem Reports.trans (hfirst : Reports n n') (hsecond : Reports n' n'') : Reports n n'' := by
  obtain ⟨hanswered, first, hfirstIn, hfirstDone, hfirstTold⟩ := hfirst
  obtain ⟨hanswered', second, hsecondIn, hsecondDone, hsecondTold⟩ := hsecond
  refine ⟨hanswered'.trans hanswered, second ++ first, fun d hd => ?_, ?_, ?_⟩
  · rcases List.mem_append.mp hd with hd | hd
    · exact hanswered ▸ hsecondIn d hd
    · exact hfirstIn d hd
  · rw [hsecondDone, hfirstDone, List.map_append, List.append_assoc]
  · rw [hsecondTold, hfirstTold, List.map_append, List.append_assoc]

/-- Setting timers reports nothing. -/
theorem Reports.retimed (hretimed : Retimed n.air.client n'.air.client)
    (htold : acksOf n'.notices = acksOf n.notices) : Reports n n' := by
  obtain ⟨timer, heq⟩ := hretimed
  refine .none ?_ ?_ htold
  · rw [heq]
  · rw [heq]

/-- An event of the dispatcher reports nothing. -/
theorem reports_dispatcher (hn : Air.Recorded lib limit n.air) (event : Dispatcher.Event Nat) :
    Reports n { n with air := Dispatcher.step lib onTxResult n.air event } :=
  .retimed (Air.framed_step hn.laddered.accounted hn.laddered.sound.distinct event).retimed rfl

/-! ## A reception -/

theorem reports_applyAdvert (adv : Advert) : Reports n (n.applyAdvert m p adv) := by
  have hcase : ApplyCase m n p adv (n.applyAdvert m p adv) := applyAdvert_case n p adv
  generalize n.applyAdvert m p adv = n' at hcase ⊢
  cases hcase with
  | ignored => exact .refl n
  | noted => exact .none rfl rfl rfl

theorem reports_deliver (sender : Contact) (msg : TextMessage) :
    Reports n (n.deliver lib m p sender msg) := by
  have hcase : DeliverCase m n (n.deliver lib m p sender msg) := deliver_case n p sender msg
  generalize n.deliver lib m p sender msg = n' at hcase ⊢
  cases hcase with
  | known => exact .none rfl rfl rfl
  | stored => exact .none rfl rfl rfl

/-- An ack that matches completes one operation and reports it under its first
hash. -/
theorem reports_completeAck (hn : Air.Recorded lib limit n.air) (hash : Bytes) (direct : Bool) :
    Reports n (n.completeAck m hash direct).2.2 := by
  rw [completeAck]
  rcases complete_cases n.air.client hash with ⟨_, heq⟩ | ⟨ahead, q, behind, hsplit, _, _, heq⟩
  · rw [heq]
    exact .none rfl rfl rfl
  · rw [heq]
    have hq : q ∈ n.air.client.pending := by
      rw [hsplit]
      simp
    have htold : (q.id, q.ackHash) ∈ n.air.client.answered := (hn.answered.told q hq _).mpr rfl
    dsimp only
    split
    · exact ⟨rfl, [(q.id, q.ackHash)], by simpa using htold, rfl, rfl⟩
    · exact ⟨rfl, [(q.id, q.ackHash)], by simpa using htold, rfl, rfl⟩

theorem reports_learnPath (sender : Contact) (ret : PathReturn) :
    Reports n (n.learnPath m sender ret) := by
  rw [learnPath]
  split
  · exact .none rfl rfl rfl
  · exact .refl n

theorem reports_act {mail : Prop} (hn : Air.Recorded lib limit n.air)
    (hact : Act lib m p mail n n') : Reports n n' := by
  cases hact with
  | transmit out priority delayMs =>
      exact reports_dispatcher hn (.send out priority delayMs none m.radio)
  | applyAdvert adv => exact reports_applyAdvert adv
  | completeAck hash direct => exact reports_completeAck hn hash direct
  | learnPath sender ret => exact reports_learnPath sender ret
  | hear => exact .none rfl rfl rfl
  | deliver sender msg => exact reports_deliver sender msg
  | storeMessage msg => exact .none rfl rfl rfl

theorem reports_acts {mail : Prop} (hn : Air.Recorded lib limit n.air)
    (hacts : Acts lib m p mail n n') : Reports n n' := by
  induction hacts with
  | refl => exact .refl n
  | tail hbefore hact ih =>
      exact ih.trans (reports_act (recorded_follows (follows_acts hbefore) hn) hact)

theorem reports_receive (hn : Air.Recorded lib limit n.air) (raw : Bytes) (rssi snrQ4 : Int) :
    Reports n (n.receive lib raw rssi snrQ4 m) := by
  have hheard : Reports n (n.hearing lib raw rssi snrQ4) :=
    reports_dispatcher hn (.rx raw rssi snrQ4)
  have hrecorded : Air.Recorded lib limit (n.hearing lib raw rssi snrQ4).air :=
    recorded_follows (.one n.toOutgoing (.other (.rx raw rssi snrQ4))) hn
  rw [receive_eq]
  generalize (Dispatcher.onRadioRx lib n.air raw rssi snrQ4).1 = heard
  cases heard with
  | none => exact hheard
  | some p => exact hheard.trans (reports_acts hrecorded (acts_onPacket _ p fun _ _ => trivial))

/-- A retry sends no text anew. -/
theorem reports_retry (hn : Air.Recorded lib limit n.air) (id : Nat) (radio : RadioView) :
    Reports n { n with air := n.air.onTimer lib radio n.contacts id } := by
  have hretrying : Air.Retrying lib radio n.air id (n.air.onTimer lib radio n.contacts id) :=
    Air.retrying_onTimer hn.laddered.sound n.contacts id
  generalize n.air.onTimer lib radio n.contacts id = air at hretrying ⊢
  cases hretrying with
  | idle => exact .none rfl rfl rfl
  | erased => exact .none rfl rfl rfl
  | tooLong stats hp hid hnext => exact .none rfl rfl rfl
  | @handed q packet hq hid htimer hnext hvalid hcarries =>
      have hhanding := hn.laddered.climbed hq htimer hnext
      have hclimbed : Reports n { n with air := { n.air with
          client := n.air.client.climbed lib q (decide (q.attempt + 1 = 3)) } } :=
        .none rfl rfl rfl
      exact hclimbed.trans (.retimed (Air.framed_send lib radio hhanding.accounted
        hhanding.sound.distinct packet kPriorityDirect 0 (some q.id)).retimed rfl)

/-- Every step but a send reports what it completes. -/
theorem reports_step (hn : Air.Recorded lib limit n.air) (event : Event)
    (hquiet : ∀ dest text txtType timestamp radio,
      event ≠ .sendText dest text txtType timestamp radio) :
    Reports n (n.step lib event) := by
  cases event with
  | received raw rssi snrQ4 m => exact reports_receive hn raw rssi snrQ4
  | sendText dest text txtType timestamp radio => exact absurd rfl (hquiet _ _ _ _ _)
  | retry id radio => exact reports_retry hn id radio
  | contacts store => exact .none rfl rfl rfl
  | channel index ch => exact .none rfl rfl rfl
  | setRelay relay => exact .none rfl rfl rfl
  | popMessage => exact .none rfl rfl rfl
  | sweepDelivered =>
      show Reports n n.expireDelivered
      exact .none rfl rfl rfl
  | dispatcher event => exact reports_dispatcher hn (Outgoing.unanswered event)

end Node

namespace Air

/-- A text that is sent is answered for under its hash, and one that is refused is
not. -/
theorem answered_send {limit : Nat} {d : Air} (hd : Recorded lib limit d) (radio : RadioView)
    (dest : Contact) (text : Bytes) (txtType : UInt8) (timestamp : UInt32) :
    (∃ err d', send lib radio d dest text txtType timestamp = (.error err, d') ∧
      d'.client.answered = d.client.answered) ∨
    ∃ ack d' id, send lib radio d dest text txtType timestamp = (.ok ack, d') ∧
      d'.client.answered = (id, ack) :: d.client.answered := by
  have hsending : Sending lib radio d (send lib radio d dest text txtType timestamp) :=
    sending_send hd.laddered.sound dest text txtType timestamp
  generalize send lib radio d dest text txtType timestamp = result at hsending ⊢
  cases hsending with
  | @refused err d' hrefused => exact .inl ⟨err, d', rfl, hrefused.answered⟩
  | @coalesced p hp => exact .inr ⟨_, _, p.id, rfl, rfl⟩
  | @cli packet hash hvalid =>
      have hframed := framed_send lib radio (accounted_client hd.laddered.accounted _ d.stats)
        hd.laddered.sound.noteCli.distinct packet kPriorityDirect 0 none
      have hsame := answered_of_retimed hframed.retimed
      exact .inr ⟨_, _, 0, rfl, congrArg (List.cons (0, hash)) hsame⟩
  | @handed p packet hfresh hvalid hcarries =>
      have hhanding := hd.laddered.registered hfresh
      have hframed := framed_send lib radio hhanding.accounted hhanding.sound.distinct packet
        kPriorityDirect 0 (some p.id)
      have hsame := answered_of_retimed hframed.retimed
      exact .inr ⟨_, _, p.id, rfl, congrArg (List.cons (p.id, _)) hsame⟩

end Air

end Coreletd.Mesh
