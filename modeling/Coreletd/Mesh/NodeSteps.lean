/-
# The node drives its sender

Whatever a node does, its sender and contacts see only their own events: a
packet sent without a handler, an ack, a change of the contact store. So every
run of a node is a run of `Outgoing` with the rest of the node around it, and
what holds of the sender in all of its runs holds in every node.
-/

import Coreletd.Mesh.NodeActs
import Coreletd.Mesh.SendRecord

namespace Coreletd.Mesh.Node

open Coreletd.Crypto
open Coreletd.Library
open Coreletd.Proto

variable {lib : Crypto.Library} {m : Moment} {n : Node} {p : Packet}

/-- `o'` is where some events of the sender lead from `o`. -/
def Follows (lib : Crypto.Library) (o o' : Outgoing) : Prop :=
  ∃ events, o' = run (Outgoing.step lib) o events

theorem Follows.refl (o : Outgoing) : Follows lib o o := ⟨[], rfl⟩

theorem Follows.trans {o o' o'' : Outgoing} (hfirst : Follows lib o o')
    (hsecond : Follows lib o' o'') : Follows lib o o'' := by
  obtain ⟨first, rfl⟩ := hfirst
  obtain ⟨second, rfl⟩ := hsecond
  exact ⟨first ++ second, (run_append _ _ _ _).symm⟩

theorem Follows.one (o : Outgoing) (event : Outgoing.Event) : Follows lib o (o.step lib event) :=
  ⟨[event], rfl⟩

theorem follows_contacts (n : Node) (contacts : ContactStore) :
    Follows lib n.toOutgoing { n with contacts }.toOutgoing :=
  .one _ (.contacts contacts)

/-! ## A reception -/

theorem follows_applyAdvert (adv : Advert) :
    Follows lib n.toOutgoing (n.applyAdvert m p adv).toOutgoing := by
  have hcase : ApplyCase m n p adv (n.applyAdvert m p adv) := applyAdvert_case n p adv
  generalize n.applyAdvert m p adv = n' at hcase ⊢
  cases hcase with
  | ignored => exact .refl _
  | noted => exact follows_contacts n _

theorem follows_completeAck (n : Node) (hash : Bytes) (direct : Bool) :
    Follows lib n.toOutgoing (n.completeAck m hash direct).2.2.toOutgoing := by
  have hcomplete : Follows lib n.toOutgoing
      { n.toOutgoing with air := { n.air with client := (n.air.client.complete hash).2 } } :=
    .one _ (.complete hash)
  have hcase : CompleteCase m n hash direct (n.completeAck m hash direct) := completeAck_case n _ _
  generalize n.completeAck m hash direct = result at hcase ⊢
  cases hcase with
  | unmatched hnone =>
      rw [hnone] at hcomplete
      exact hcomplete
  | @matched done client contacts hmatched =>
      rw [hmatched] at hcomplete
      exact hcomplete.trans (.one _ (.contacts contacts))

theorem follows_learnPath (sender : Contact) (ret : PathReturn) :
    Follows lib n.toOutgoing (n.learnPath m sender ret).toOutgoing := by
  rw [learnPath]
  split
  · exact follows_contacts n _
  · exact .refl _

theorem toOutgoing_deliver (sender : Contact) (msg : TextMessage) :
    (n.deliver lib m p sender msg).toOutgoing = n.toOutgoing := by
  have hcase : DeliverCase m n (n.deliver lib m p sender msg) := deliver_case n p sender msg
  generalize n.deliver lib m p sender msg = n' at hcase ⊢
  cases hcase with
  | known => rfl
  | stored => rfl

/-- Every act is some events of the sender. -/
theorem follows_act {mail : Prop} {n' : Node} (hact : Act lib m p mail n n') :
    Follows lib n.toOutgoing n'.toOutgoing := by
  cases hact with
  | transmit out priority delayMs => exact .one _ (.other (.send out priority delayMs none m.radio))
  | applyAdvert adv => exact follows_applyAdvert adv
  | completeAck hash direct => exact follows_completeAck n hash direct
  | learnPath sender ret => exact follows_learnPath sender ret
  | hear => exact follows_contacts n _
  | deliver sender msg =>
      rw [toOutgoing_deliver]
      exact .refl _
  | storeMessage => exact .refl _

theorem follows_acts {mail : Prop} {n' : Node} (hacts : Acts lib m p mail n n') :
    Follows lib n.toOutgoing n'.toOutgoing := by
  induction hacts with
  | refl => exact .refl _
  | tail _ hact ih => exact ih.trans (follows_act hact)

theorem follows_receive (n : Node) (raw : Bytes) (rssi snrQ4 : Int) :
    Follows lib n.toOutgoing (n.receive lib raw rssi snrQ4 m).toOutgoing := by
  have hheard : Follows lib n.toOutgoing
      { n.toOutgoing with air := (Dispatcher.onRadioRx lib n.air raw rssi snrQ4).2 } :=
    .one _ (.other (.rx raw rssi snrQ4))
  rw [receive]
  split
  · next air heq =>
    rw [heq] at hheard
    exact hheard
  · next p air heq =>
    rw [heq] at hheard
    exact hheard.trans (follows_acts (acts_onPacket _ p fun _ _ => trivial))

/-- Every step of a node is some steps of its sender. -/
theorem follows_step (n : Node) (event : Event) :
    Follows lib n.toOutgoing (n.step lib event).toOutgoing := by
  cases event with
  | received raw rssi snrQ4 m => exact follows_receive n raw rssi snrQ4
  | sendText dest text txtType timestamp radio =>
      exact .one _ (.send dest text txtType timestamp radio)
  | retry id radio => exact .one _ (.timer id radio)
  | contacts store => exact .one _ (.contacts store)
  | channel index ch => exact .refl _
  | setRelay relay => exact .refl _
  | popMessage => exact .refl _
  | sweepDelivered => exact .refl _
  | dispatcher event => exact .one _ (.other event)

/-! ## Reachable nodes -/

/-- A node as it is constructed, over the stores it was started with. -/
def new (percent : ℚ) (queueLimit pendingLimit : Nat) (self : LocalIdentity)
    (contacts : ContactStore) (time : Nat) (cfg : NodeConfig) (channels : ChannelStore)
    (inbox : MessageInbox) (files : FileSystem) : Node :=
  { toOutgoing := Outgoing.new percent queueLimit pendingLimit self contacts time
    cfg, channels, inbox, files }

/-- Some run of some node leads here. -/
def Reachable (lib : Crypto.Library) (n : Node) : Prop :=
  ∃ percent queueLimit pendingLimit self contacts time cfg channels inbox files events,
    n = run (step lib)
      (new percent queueLimit pendingLimit self contacts time cfg channels inbox files) events

/-- What the sender keeps in all its steps, it keeps in every node. -/
theorem recorded_follows {limit : Nat} {o o' : Outgoing} (hfollows : Follows lib o o')
    (ho : Air.Recorded lib limit o.air) : Air.Recorded lib limit o'.air := by
  obtain ⟨events, rfl⟩ := hfollows
  have hstep : ∀ (o : Outgoing) (event : Outgoing.Event), Air.Recorded lib limit o.air →
      Air.Recorded lib limit (o.step lib event).air := fun o event => Air.recorded_step o event
  exact run_invariant hstep ho events

theorem Reachable.recorded (hn : n.Reachable lib) : ∃ limit, Air.Recorded lib limit n.air := by
  obtain ⟨percent, queueLimit, pendingLimit, self, contacts, time, cfg, channels, inbox, files,
    events, rfl⟩ := hn
  have hstep : ∀ (n : Node) (event : Event), Air.Recorded lib pendingLimit n.air →
      Air.Recorded lib pendingLimit (n.step lib event).air :=
    fun n event hn => recorded_follows (follows_step n event) hn
  refine ⟨pendingLimit, run_invariant hstep ?_ events⟩
  exact Air.recorded_run percent queueLimit pendingLimit self contacts time []

end Coreletd.Mesh.Node
