/-
# What one reception can do

Three things can come of a received packet: the node keeps quiet, it answers, or
it sends the packet on. In each the dispatcher is handed one packet at most, and
whatever else happened before left the dispatcher as it was but for a send that
was completed. Every result about receptions starts from this case analysis.
-/

import Coreletd.Mesh.NodeSteps

namespace Coreletd.Mesh

open Coreletd.Crypto
open Coreletd.Library
open Coreletd.Proto

/-! ## The packets taken on -/

namespace TxEvent

/-- The packet an event took on. -/
def queued? {H : Type} : TxEvent H → Option (Queued H)
  | .queued q => some q
  | _ => none

end TxEvent

namespace Dispatcher

variable {H σ : Type} {call : Handler H σ} {radio : RadioView} {d : Dispatcher H σ}

/-- Everything `send` ever took on, newest first. -/
def takenOn (d : Dispatcher H σ) : List (Queued H) := d.trace.filterMap TxEvent.queued?

/-- What `send` took on between `d` and a later state. -/
def takenOnSince (d d' : Dispatcher H σ) : List (Queued H) :=
  d'.takenOn.take (d'.takenOn.length - d.takenOn.length)

theorem takenOnSince_of_append {d' : Dispatcher H σ} {fresh : List (Queued H)}
    (happend : d'.takenOn = fresh ++ d.takenOn) : takenOnSince d d' = fresh := by
  rw [takenOnSince, happend, List.length_append, Nat.add_sub_cancel]
  exact List.take_left

theorem takenOnSince_trans {d' d'' : Dispatcher H σ} (hfirst : d.takenOn <:+ d'.takenOn)
    (hsecond : d'.takenOn <:+ d''.takenOn) :
    takenOnSince d d'' = takenOnSince d' d'' ++ takenOnSince d d' := by
  obtain ⟨first, hfirst⟩ := hfirst
  obtain ⟨second, hsecond⟩ := hsecond
  rw [takenOnSince_of_append hfirst.symm, takenOnSince_of_append hsecond.symm]
  apply takenOnSince_of_append
  rw [← hsecond, ← hfirst, List.append_assoc]

@[simp]
theorem takenOn_notify (q : Queued H) (transmitted : Bool) :
    (notify call d q transmitted).takenOn = d.takenOn := by
  rw [takenOn, notify_trace, takenOn]
  cases q.onResult <;> rfl

@[simp]
theorem takenOn_discard (q : Queued H) (reason : DropReason) :
    (discard call d q reason).takenOn = d.takenOn :=
  takenOn_notify q false

@[simp]
theorem takenOn_transmit (q : Queued H) : (transmit call radio d q).takenOn = d.takenOn := by
  rw [takenOn, transmit_trace, List.filterMap_append]
  split
  · cases q.onResult <;> rfl
  · rfl

/-- The pump takes nothing on. -/
@[simp]
theorem takenOn_pump : (pump call radio d).takenOn = d.takenOn := by
  refine pump_rule (P := fun d' => d'.takenOn = d.takenOn) (fun _ h => h) ?_ ?_ ?_ rfl
  · intro d' d'' hquiet hd'
    rw [takenOn, hquiet.trace]
    exact hd'
  · intro d' ahead q behind reason _ _ hd'
    rw [takenOn_discard]
    exact hd'
  · intro d' d'' ahead q behind _ hquiet _ hd'
    rw [takenOn_transmit, takenOn, hquiet.trace]
    exact hd'

theorem takenOn_enqueue (q : Queued H) : (enqueue call d q).takenOn = q :: d.takenOn := by
  rw [enqueue]
  dsimp only
  split
  · split
    · rfl
    · rw [takenOn_discard]
      rfl
  · rfl

/-- `send` takes on a valid packet, and only that. -/
theorem takenOn_send (lib : Library) (p : Packet) (priority : UInt8) (delayMs : UInt32)
    (onResult : Option H) :
    (d.send call lib radio p priority delayMs onResult).2.takenOn =
      (if p.valid then [d.entry p priority delayMs onResult] else []) ++ d.takenOn := by
  rw [send]
  split
  · next hinvalid =>
    rw [if_neg (by simpa using hinvalid)]
    rfl
  · next hvalid =>
    rw [if_pos (by simpa using hvalid), takenOn_pump, takenOn_enqueue]
    rfl

end Dispatcher

/-! ## The three outcomes -/

namespace Node

variable {lib : Crypto.Library} {m : Moment} {n : Node} {p : Packet}

/-- Nothing of the dispatcher but its client has changed. -/
def AirKept (n n' : Node) : Prop := ∃ client, n'.air = { n.air with client }

theorem AirKept.refl (n : Node) : AirKept n n := ⟨n.air.client, rfl⟩

theorem AirKept.of_eq {n' : Node} (hair : n'.air = n.air) : AirKept n n' :=
  ⟨n.air.client, by rw [hair]⟩

theorem AirKept.trans {n' n'' : Node} (hfirst : AirKept n n') (hsecond : AirKept n' n'') :
    AirKept n n'' := by
  obtain ⟨client, hclient⟩ := hfirst
  obtain ⟨client', hclient'⟩ := hsecond
  exact ⟨client', by rw [hclient', hclient]⟩

theorem AirKept.takenOn {n' : Node} (hkept : AirKept n n') :
    n'.air.takenOn = n.air.takenOn := by
  obtain ⟨client, hclient⟩ := hkept
  rw [hclient]
  rfl

/-- Which packet the node may answer with which: a text with a returned path or
an ack, and a flooded ack or returned path with a route, direct. -/
inductive AnswerTo (p out : Packet) : Prop
  | pathReturn (htype : p.type = .txtMsg) (hflood : p.isFlood = true) (hout : out.type = .path)
      (hflooded : out.isFlood = true)
  | ack (htype : p.type = .txtMsg) (hdirect : p.isDirect = true) (hout : out.type = .ack)
  | offer (htype : p.type = .ack ∨ p.type = .path) (hflood : p.isFlood = true)
      (hout : out.type = .path) (hdirect : out.isDirect = true)

/-- What the code checks before it floods a packet on. -/
structure FloodsOn (lib : Crypto.Library) (m : Moment) (n : Node) (p out : Packet) : Prop where
  flood : p.isFlood = true
  asked : (n.handle lib m p).1 = true
  hops : p.hopCount < n.cfg.maxHops.toNat
  pushed : p.pushHop n.identity.pub = some out

/-- What the code checks before it passes a direct packet on. -/
structure PassesOn (lib : Crypto.Library) (m : Moment) (n : Node) (p out : Packet) : Prop where
  direct : p.isDirect = true
  notTrace : p.type ≠ .trace
  notZeroHop : ¬ (p.type = .control ∧ p.payload.headD 0 &&& 0x80 ≠ 0)
  inTransit : 0 < p.hopCount
  unmatched : p.type = .ack → (n.handleAck lib m p).1 = true
  named : p.firstHop ≠ [] ∧ p.firstHop = subview n.identity.pub 0 p.firstHop.length
  notMultipart : p.type ≠ .multipart
  popped : out = p.popHop

/-- What the code checks before it sends a trace on. -/
structure TracesOn (n : Node) (p out : Packet) : Prop where
  direct : p.isDirect = true
  trace : p.type = .trace
  hasRoute : kTraceHeader < p.payload.length
  readings : p.pathHashSize = 1 ∧ p.path.length < kMaxPathSize
  onRoute : tracePosition p + traceWidth p ≤ p.payload.length
  named : subview p.payload (tracePosition p) (traceWidth p) =
    subview n.identity.pub 0 (traceWidth p)
  heard : out = { p with path := p.path ++ [(clampSnr p).toUInt8] }

/-- The packet goes on as `out`. -/
def SendsOn (lib : Crypto.Library) (m : Moment) (n : Node) (p out : Packet) : Prop :=
  n.cfg.relay = true ∧ (FloodsOn lib m n p out ∨ PassesOn lib m n p out ∨ TracesOn n p out)

/-- Where a reception leads. -/
inductive Outcome (lib : Crypto.Library) (m : Moment) (n : Node) (p : Packet) : Node → Prop
  | quiet {n' : Node} (hkept : AirKept n n') : Outcome lib m n p n'
  | answered {before : Node} {out : Packet} {delayMs : UInt32} (hkept : AirKept n before)
      (hanswer : AnswerTo p out) :
      Outcome lib m n p (before.transmit lib m out kPriorityAck delayMs)
  | sentOn {before : Node} {out : Packet} {priority : UInt8} {delayMs : UInt32}
      (hair : before.air = n.air) (hcfg : before.cfg = n.cfg)
      (hon : SendsOn lib m n p out) :
      Outcome lib m n p (before.transmit lib m out priority delayMs)

/-! ## The handlers -/

/-- What a handler can come to. One that asks for the packet to be flooded on has
left the dispatcher alone. -/
inductive Handled (lib : Crypto.Library) (m : Moment) (n : Node) (p : Packet) : Bool × Node → Prop
  | onward {n' : Node} (hair : n'.air = n.air) (hcfg : n'.cfg = n.cfg) : Handled lib m n p (true, n')
  | quiet {n' : Node} (hkept : AirKept n n') : Handled lib m n p (false, n')
  | answered {before : Node} {out : Packet} {delayMs : UInt32} (hkept : AirKept n before)
      (hanswer : AnswerTo p out) :
      Handled lib m n p (false, before.transmit lib m out kPriorityAck delayMs)

/-- The node with an accepted text noted and delivered, before it answers. -/
def accepted (lib : Crypto.Library) (m : Moment) (n : Node) (p : Packet) (sender : Contact)
    (msg : TextMessage) : Node :=
  { n with contacts :=
      n.contacts.touchSignal sender.pubkey m.unixNow p.rssi p.snrQ4 }.deliver lib m p sender msg

theorem air_accepted (n : Node) (p : Packet) (sender : Contact) (msg : TextMessage) :
    (n.accepted lib m p sender msg).air = n.air := by
  rw [accepted, toOutgoing_deliver]

theorem acceptText_eq (n : Node) (p : Packet) (sender : Contact) (plaintext : Bytes)
    (msg : TextMessage) :
    n.acceptText lib m p sender plaintext msg =
      (n.accepted lib m p sender msg).replyTo lib m p sender
        (ackOf lib m n.identity sender plaintext msg) := by
  have hidentity : (n.accepted lib m p sender msg).identity = n.identity := by
    rw [identity, air_accepted]
    rfl
  rw [← hidentity]
  rfl

/-- No waiting send accepts a hash. -/
def Unmatched (n : Node) (hash : Bytes) : Prop :=
  ∀ waiting ∈ n.air.client.pending, hash ∉ waiting.acceptedAckHashes

/-- A hash nobody waits for changes nothing; one that matches completes its send. -/
theorem completeAck_cases (n : Node) (hash : Bytes) (direct : Bool) :
    (n.Unmatched hash ∧ n.completeAck m hash direct = (false, none, n)) ∨
    (¬ n.Unmatched hash ∧ ∃ c n', n.completeAck m hash direct = (true, c, n') ∧ AirKept n n') := by
  rcases ReliableSender.complete_cases n.air.client hash with
    ⟨hnone, heq⟩ | ⟨ahead, waiting, behind, hsplit, hin, _, heq⟩
  · left
    refine ⟨hnone, ?_⟩
    rw [completeAck, heq]
  · right
    refine ⟨fun hnone => hnone waiting (by rw [hsplit]; simp) hin, ?_⟩
    rw [completeAck, heq]
    refine ⟨_, _, rfl, ?_⟩
    dsimp only
    split <;> exact ⟨_, rfl⟩

theorem airKept_completeAck (n : Node) (hash : Bytes) (direct : Bool) :
    AirKept n (n.completeAck m hash direct).2.2 := by
  rcases completeAck_cases (m := m) n hash direct with ⟨-, heq⟩ | ⟨-, c, n', heq, hkept⟩
  · rw [heq]
    exact .refl n
  · rw [heq]
    exact hkept

theorem airKept_learned (n : Node) (sender : Contact) (ret : PathReturn) :
    AirKept n ((n.learnPath m sender ret).completeExtra m p ret) := by
  have hlearned : AirKept n (n.learnPath m sender ret) := by
    rw [learnPath]
    split <;> exact .of_eq rfl
  rw [completeExtra]
  split
  · exact hlearned.trans (airKept_completeAck _ _ _)
  · exact hlearned

/-- The contact of a completed send is one of the store's. -/
theorem mem_of_completeAck {hash : Bytes} {direct : Bool} {c : Contact} {n' : Node}
    (hcomplete : n.completeAck m hash direct = (true, some c, n')) : c ∈ n.contacts.contacts := by
  have hcase : CompleteCase m n hash direct (n.completeAck m hash direct) := completeAck_case n _ _
  generalize n.completeAck m hash direct = result at hcomplete hcase
  cases hcase with
  | unmatched => cases hcomplete
  | matched =>
      obtain ⟨hfind, -⟩ := Prod.mk.inj (Prod.mk.inj hcomplete).2
      exact List.mem_of_find?_eq_some hfind

/-- A packet in answer to `p`, and how long it is held back. -/
inductive Answer (lib : Crypto.Library) (m : Moment) (n : Node) (p : Packet) :
    Packet → UInt32 → Prop
  | returned {self : LocalIdentity} {sender : Contact} {shared plaintext : Bytes}
      {msg : TextMessage} {extraType : UInt8} (htype : p.type = .txtMsg) (hflood : p.isFlood = true)
      (hopened : OpenedTo lib n p sender plaintext) :
      Answer lib m n p (pathPacket lib self sender shared
        (pathReturn m p extraType (ackOf lib m n.identity sender plaintext msg)) none) 0
  | acked {sender : Contact} {plaintext : Bytes} {msg : TextMessage} (htype : p.type = .txtMsg)
      (hdirect : p.isDirect = true) (hopened : OpenedTo lib n p sender plaintext)
      (hne : ackOf lib m n.identity sender plaintext msg ≠ []) :
      Answer lib m n p (routed sender false
        { type := .ack, payload := ackOf lib m n.identity sender plaintext msg }) 0
  | offeredAgain {self : LocalIdentity} {c : Contact} {shared : Bytes} (htype : p.type = .ack)
      (hflood : p.isFlood = true) (hcontact : c ∈ n.contacts.contacts)
      (hknown : c.pathKnown = true) :
      Answer lib m n p (pathPacket lib self c shared (pathReturn m p 0 [])
        (some { path := c.outPath })) kReturnPathRetryMs
  | offered {self : LocalIdentity} {sender : Contact} {shared plaintext : Bytes}
      {ret : PathReturn} (htype : p.type = .path) (hflood : p.isFlood = true)
      (hret : PathReturn.decode plaintext = some ret) :
      Answer lib m n p (pathPacket lib self sender shared (pathReturn m p 0 [])
        (some { path := ret.path, hashSize := ret.pathHashSize })) 0

theorem Answer.answerTo {out : Packet} {delayMs : UInt32} (hanswer : Answer lib m n p out delayMs) :
    AnswerTo p out := by
  cases hanswer with
  | returned htype hflood => exact .pathReturn htype hflood rfl rfl
  | acked htype hdirect => exact .ack htype hdirect (routed_type _ _ _)
  | offeredAgain htype hflood => exact .offer (.inl htype) hflood rfl rfl
  | offered htype hflood => exact .offer (.inr htype) hflood rfl rfl

/-- What reading a packet comes to, answers and all. -/
inductive Reads (lib : Crypto.Library) (m : Moment) (n : Node) (p : Packet) : Bool × Node → Prop
  | onward {n' : Node} (hair : n'.air = n.air) (hcfg : n'.cfg = n.cfg) : Reads lib m n p (true, n')
  | quiet {n' : Node} (hkept : AirKept n n') : Reads lib m n p (false, n')
  | answered {before : Node} {out : Packet} {delayMs : UInt32} (hkept : AirKept n before)
      (hanswer : Answer lib m n p out delayMs) :
      Reads lib m n p (false, before.transmit lib m out kPriorityAck delayMs)

/-- A path that is returned is an answer, if it is one at all. -/
theorem reads_sendPathReturn {before : Node} (hkept : AirKept n before) {dest : Contact}
    {extraType : UInt8} {extra : Bytes} {via : Option Via} {delayMs : UInt32}
    (hanswer : Answer lib m n p (pathPacket lib before.identity dest
      (dest.sharedSecret lib before.identity) (pathReturn m p extraType extra) via) delayMs) :
    Reads lib m n p (false, before.sendPathReturn lib m dest p extraType extra via delayMs) := by
  have hsent : Transmits lib m before _
      (before.sendPathReturn lib m dest p extraType extra via delayMs) :=
    transmits_sendPathReturn before dest p extraType extra via delayMs
  generalize before.sendPathReturn lib m dest p extraType extra via delayMs = n' at hsent ⊢
  cases hsent with
  | nothing => exact .quiet hkept
  | one hout =>
      obtain ⟨rfl, rfl, rfl⟩ := hout
      exact .answered hkept hanswer

theorem reads_handleAdvert : Reads lib m n p (n.handleAdvert lib m p) := by
  have hnoted (adv : Advert) :
      (n.applyAdvert m p adv).air = n.air ∧ (n.applyAdvert m p adv).cfg = n.cfg := by
    have hcase : ApplyCase m n p adv (n.applyAdvert m p adv) := applyAdvert_case n p adv
    generalize n.applyAdvert m p adv = n' at hcase ⊢
    cases hcase with
    | ignored => exact ⟨rfl, rfl⟩
    | noted => exact ⟨rfl, rfl⟩
  have hcase : AdvertCase lib m n p (n.handleAdvert lib m p) := handleAdvert_case n p
  generalize n.handleAdvert lib m p = result at hcase ⊢
  cases hcase with
  | ignored => exact .quiet (.refl n)
  | applied => exact .onward (hnoted _).1 (hnoted _).2

theorem reads_handleText (htype : p.type = .txtMsg) : Reads lib m n p (n.handleText lib m p) := by
  have hcase : TextCase lib m n p (n.handleText lib m p) := handleText_case n p
  generalize n.handleText lib m p = result at hcase ⊢
  cases hcase with
  | elsewhere => exact .onward rfl rfl
  | ignored => exact .quiet (.refl n)
  | @accepted sender plaintext msg hopened =>
      have hkept : AirKept n (n.accepted lib m p sender msg) := .of_eq (air_accepted n p sender msg)
      rw [acceptText_eq, replyTo]
      split
      · next hflood => exact reads_sendPathReturn hkept (.returned htype hflood hopened)
      · next hdirect =>
        split
        · next hne =>
          rw [Bool.not_eq_true] at hdirect
          refine .answered hkept (.acked htype ?_ hopened hne)
          rw [Packet.isDirect_eq_not_isFlood, hdirect]
          rfl
        · exact .quiet hkept

/-- An ack is too short, or somebody else's, or completes a send. -/
theorem handleAck_cases (htype : p.type = .ack) :
    (p.payload.length < kAckHashSize ∧ n.handleAck lib m p = (false, n)) ∨
    (kAckHashSize ≤ p.payload.length ∧ n.Unmatched (subview p.payload 0 kAckHashSize) ∧
      n.handleAck lib m p = (true, n)) ∨
    (kAckHashSize ≤ p.payload.length ∧ ¬ n.Unmatched (subview p.payload 0 kAckHashSize) ∧
      (n.handleAck lib m p).1 = false ∧ Reads lib m n p (n.handleAck lib m p)) := by
  have hcompleteAck := completeAck_cases (m := m) n (subview p.payload 0 kAckHashSize) p.isDirect
  have hmatched {c : Option Contact} {n' : Node} (hcompletes : n.completeAck m
      (subview p.payload 0 kAckHashSize) p.isDirect = (true, c, n')) :
      ¬ n.Unmatched (subview p.payload 0 kAckHashSize) ∧ AirKept n n' := by
    rw [hcompletes] at hcompleteAck
    rcases hcompleteAck with ⟨-, heq⟩ | ⟨hmatched, c', after, heq, hkept⟩
    · simp at heq
    · obtain ⟨-, rfl⟩ := Prod.mk.inj (Prod.mk.inj heq).2
      exact ⟨hmatched, hkept⟩
  have hcase : AckCase lib m n p (n.handleAck lib m p) := handleAck_case n p
  generalize n.handleAck lib m p = result at hcase ⊢
  cases hcase with
  | short hshort => exact .inl ⟨hshort, rfl⟩
  | unmatched hlong hcompletes =>
      rw [hcompletes] at hcompleteAck
      rcases hcompleteAck with ⟨hnone, heq⟩ | ⟨-, c, after, heq, -⟩
      · obtain ⟨-, rfl⟩ := Prod.mk.inj (Prod.mk.inj heq).2
        exact .inr (.inl ⟨hlong, hnone, rfl⟩)
      · simp at heq
  | completed hlong hcompletes =>
      obtain ⟨hmatched, hkept⟩ := hmatched hcompletes
      exact .inr (.inr ⟨hlong, hmatched, rfl, .quiet hkept⟩)
  | offered hlong hcompletes hflood hknown =>
      obtain ⟨hmatched, hkept⟩ := hmatched hcompletes
      exact .inr (.inr ⟨hlong, hmatched, rfl, reads_sendPathReturn hkept
        (.offeredAgain htype hflood (mem_of_completeAck hcompletes) hknown)⟩)

theorem reads_handleAck (htype : p.type = .ack) : Reads lib m n p (n.handleAck lib m p) := by
  rcases handleAck_cases (m := m) (n := n) htype with ⟨-, heq⟩ | ⟨-, -, heq⟩ | ⟨-, -, -, hreads⟩
  · rw [heq]
    exact .quiet (.refl n)
  · rw [heq]
    exact .onward rfl rfl
  · exact hreads

theorem reads_handlePath (htype : p.type = .path) : Reads lib m n p (n.handlePath lib m p) := by
  have hcase : PathCase lib m n p (n.handlePath lib m p) := handlePath_case n p
  generalize n.handlePath lib m p = result at hcase ⊢
  cases hcase with
  | elsewhere => exact .onward rfl rfl
  | ignored => exact .quiet (.refl n)
  | learned => exact .quiet (airKept_learned n _ _)
  | offered _ hret hflood =>
      exact reads_sendPathReturn (airKept_learned n _ _) (.offered htype hflood hret)

theorem reads_handleGroupText : Reads lib m n p (true, n.handleGroupText lib m p) := by
  have hcase : GroupTextCase m n (n.handleGroupText lib m p) := handleGroupText_case n p
  generalize n.handleGroupText lib m p = n' at hcase ⊢
  cases hcase with
  | ignored => exact .onward rfl rfl
  | stored => exact .onward rfl rfl

theorem reads_handleRequest : Reads lib m n p (n.handleRequest lib p, n) := by
  cases n.handleRequest lib p with
  | false => exact .quiet (.refl n)
  | true => exact .onward rfl rfl

theorem reads_handle : Reads lib m n p (n.handle lib m p) := by
  rw [handle]
  split
  · exact reads_handleAdvert
  · next htype => exact reads_handleText htype
  · next htype => exact reads_handleAck htype
  · next htype => exact reads_handlePath htype
  · exact reads_handleGroupText
  · exact reads_handleRequest
  · exact reads_handleRequest
  · exact reads_handleRequest
  · exact .onward rfl rfl
  · exact .quiet (.refl n)

/-- What is known of a packet that answers is which kind it is. -/
theorem Reads.handled {result : Bool × Node} (hreads : Reads lib m n p result) :
    Handled lib m n p result := by
  cases hreads with
  | onward hair hcfg => exact .onward hair hcfg
  | quiet hkept => exact .quiet hkept
  | answered hkept hanswer => exact .answered hkept hanswer.answerTo

theorem handled_handle : Handled lib m n p (n.handle lib m p) := reads_handle.handled

theorem handled_handleAck (htype : p.type = .ack) : Handled lib m n p (n.handleAck lib m p) :=
  (reads_handleAck htype).handled

/-! ## Sending on -/

theorem identity_eq {n' : Node} (hair : n'.air = n.air) : n'.identity = n.identity :=
  congrArg (·.client.self) hair

theorem maybeRepeat_eq {out : Packet} (hrelay : n.cfg.relay = true) (hflood : p.isFlood = true)
    (hhops : p.hopCount < n.cfg.maxHops.toNat) (hpushed : p.pushHop n.identity.pub = some out) :
    n.maybeRepeat lib m p =
      n.transmit lib m out kPriorityRepeat (100 + m.stagger.toUInt32 * 4) := by
  rw [maybeRepeat, hrelay, hflood, hpushed, if_neg (by simp), if_neg (by simp), if_neg (by omega)]

/-- Sending a packet on comes to nothing, or to one copy of it, and changes nothing
else. -/
inductive SentOn (lib : Crypto.Library) (m : Moment) (before : Node) (may : Packet → Prop) :
    Node → Prop
  | nothing : SentOn lib m before may before
  | copy {out : Packet} {priority : UInt8} {delayMs : UInt32} (hrelay : before.cfg.relay = true)
      (hmay : may out) : SentOn lib m before may (before.transmit lib m out priority delayMs)

/-- A flooded packet goes on with our hash appended. -/
theorem sentOn_maybeRepeat (n : Node) (p : Packet) :
    SentOn lib m n
      (fun out => p.isFlood = true ∧ p.hopCount < n.cfg.maxHops.toNat ∧
        p.pushHop n.identity.pub = some out)
      (n.maybeRepeat lib m p) := by
  have hsent : Transmits lib m n (Repeats m n p) (n.maybeRepeat lib m p) :=
    transmits_maybeRepeat n p
  generalize n.maybeRepeat lib m p = n' at hsent ⊢
  cases hsent with
  | nothing => exact .nothing
  | one hout => exact .copy hout.relay ⟨hout.flood, hout.hops, hout.pushed⟩

theorem sentOn_forwardDirect (hdirect : p.isDirect = true) (htrace : p.type ≠ .trace)
    (hcontrol : ¬ (p.type = .control ∧ p.payload.headD 0 &&& 0x80 ≠ 0)) (htransit : 0 < p.hopCount)
    (hunmatched : p.type = .ack → (n.handleAck lib m p).1 = true) :
    SentOn lib m n (PassesOn lib m n p) (n.forwardDirect lib m p) := by
  have hsent : Transmits lib m n (Forwards m n p) (n.forwardDirect lib m p) :=
    transmits_forwardDirect n p
  generalize n.forwardDirect lib m p = n' at hsent ⊢
  cases hsent with
  | nothing => exact .nothing
  | one hout =>
      exact .copy hout.relay ⟨hdirect, htrace, hcontrol, htransit, hunmatched, hout.named,
        hout.notMultipart, hout.popped⟩

theorem sentOn_forwardTrace (hdirect : p.isDirect = true) (htrace : p.type = .trace) :
    SentOn lib m n (TracesOn n p) (n.forwardTrace lib m p) := by
  have hsent : Transmits lib m n (ForwardsTrace m n p) (n.forwardTrace lib m p) :=
    transmits_forwardTrace n p
  generalize n.forwardTrace lib m p = n' at hsent ⊢
  cases hsent with
  | nothing => exact .nothing
  | one hout =>
      exact .copy hout.relay ⟨hdirect, htrace, hout.hasRoute, hout.readings, hout.onRoute,
        hout.named, hout.heard⟩

/-- Read against the node the packet came to. -/
theorem SentOn.outcome {before n' : Node} {may : Packet → Prop} (hsent : SentOn lib m before may n')
    (hair : before.air = n.air) (hcfg : before.cfg = n.cfg)
    (hmay : ∀ out, may out →
      FloodsOn lib m n p out ∨ PassesOn lib m n p out ∨ TracesOn n p out) :
    Outcome lib m n p n' := by
  cases hsent with
  | nothing => exact .quiet (.of_eq hair)
  | copy hrelay hon => exact .sentOn hair hcfg ⟨hcfg ▸ hrelay, hmay _ hon⟩

/-- A packet in transit, ack or not, is passed on or not. -/
theorem passOn_cases (hdirect : p.isDirect = true) (htrace : p.type ≠ .trace)
    (hcontrol : ¬ (p.type = .control ∧ p.payload.headD 0 &&& 0x80 ≠ 0))
    (htransit : 0 < p.hopCount) :
    SentOn lib m n (PassesOn lib m n p) (n.passOn lib m p) ∨
    p.type = .ack ∧ ¬ n.Unmatched (subview p.payload 0 kAckHashSize) ∧
      (n.handleAck lib m p).1 = false ∧ n.passOn lib m p = (n.handleAck lib m p).2 := by
  have hforward : ∀ hunmatched : p.type = .ack → (n.handleAck lib m p).1 = true,
      SentOn lib m n (PassesOn lib m n p) (n.forwardDirect lib m p) :=
    sentOn_forwardDirect hdirect htrace hcontrol htransit
  rw [passOn]
  by_cases hack : p.type = .ack
  · rw [if_pos hack]
    rcases handleAck_cases (m := m) (n := n) hack with
      ⟨-, heq⟩ | ⟨-, -, heq⟩ | ⟨-, hmatched, hread, -⟩
    · rw [heq]
      exact .inl .nothing
    · rw [heq] at hforward ⊢
      exact .inl (hforward fun _ => rfl)
    · right
      refine ⟨hack, hmatched, hread, ?_⟩
      generalize n.handleAck lib m p = result at hread
      rcases result with ⟨asked, n'⟩
      obtain rfl : asked = false := hread
      rfl
  · rw [if_neg hack]
    exact .inl (hforward fun h => absurd h hack)

/-- Every reception has one of the three outcomes. -/
theorem onPacket_outcome (n : Node) (p : Packet) : Outcome lib m n p (n.onPacket lib m p) := by
  have hway : Way lib m n p (n.onPacket lib m p) := onPacket_way n p
  generalize n.onPacket lib m p = n' at hway ⊢
  cases hway with
  | trace hdirect htype =>
      exact (sentOn_forwardTrace hdirect htype).outcome rfl rfl fun _ hon => .inr (.inr hon)
  | zeroHop => exact .quiet (.refl n)
  | transit hdirect htrace hcontrol hhops =>
      rcases passOn_cases (m := m) (n := n) hdirect htrace hcontrol hhops with
        hsent | ⟨hack, -, hread, heq⟩
      · exact hsent.outcome rfl rfl fun _ hon => .inr (.inl hon)
      · have hhandled : Handled lib m n p (n.handleAck lib m p) := handled_handleAck hack
        rw [heq]
        generalize n.handleAck lib m p = result at hread hhandled
        cases hhandled with
        | onward => simp at hread
        | quiet hkept => exact .quiet hkept
        | answered hkept hanswer => exact .answered hkept hanswer
  | repeated _ hasked =>
      have hhandled : Handled lib m n p (n.handle lib m p) := handled_handle
      have hfloods : ∀ out, p.isFlood = true ∧ p.hopCount < n.cfg.maxHops.toNat ∧
          p.pushHop n.identity.pub = some out → FloodsOn lib m n p out :=
        fun out hout => ⟨hout.1, hasked, hout.2.1, hout.2.2⟩
      generalize n.handle lib m p = result at hasked hhandled
      cases hhandled with
      | onward hair hcfg =>
          refine (sentOn_maybeRepeat _ p).outcome hair hcfg fun out hout => .inl (hfloods out ?_)
          rw [hcfg, identity_eq hair] at hout
          exact hout
      | quiet => simp at hasked
      | answered => simp at hasked
  | kept _ hasked =>
      have hhandled : Handled lib m n p (n.handle lib m p) := handled_handle
      generalize n.handle lib m p = result at hasked hhandled ⊢
      cases hhandled with
      | onward => simp at hasked
      | quiet hkept => exact .quiet hkept
      | answered hkept hanswer => exact .answered hkept hanswer

/-! ## Copies -/

/-- A copy of a packet: another path, and otherwise the same. -/
structure CopyOf (p out : Packet) : Prop where
  route : out.route = p.route
  type : out.type = p.type
  payload : out.payload = p.payload

theorem CopyOf.isFlood {out : Packet} (hcopy : CopyOf p out) : out.isFlood = p.isFlood := by
  rw [Packet.isFlood, Packet.isFlood, hcopy.route]

theorem copyOf_pushHop {hash : Bytes} {out : Packet} (hpushed : p.pushHop hash = some out) :
    CopyOf p out := by
  rw [Packet.pushHop] at hpushed
  split at hpushed
  · simp at hpushed
  · split at hpushed
    · simp at hpushed
    · split at hpushed
      · simp at hpushed
      · obtain rfl := Option.some.inj hpushed
        exact ⟨rfl, rfl, rfl⟩

theorem copyOf_popHop (p : Packet) : CopyOf p p.popHop := by
  rw [Packet.popHop]
  split <;> exact ⟨rfl, rfl, rfl⟩

theorem SendsOn.copyOf {out : Packet} (hon : SendsOn lib m n p out) : CopyOf p out := by
  rcases hon.2 with hflood | hpass | htrace
  · exact copyOf_pushHop hflood.pushed
  · rw [hpass.popped]
    exact copyOf_popHop p
  · rw [htrace.heard]
    exact ⟨rfl, rfl, rfl⟩

/-! ## Hearing a packet -/

/-- The node once the dispatcher has looked at a packet. -/
def hearing (lib : Crypto.Library) (n : Node) (raw : Bytes) (rssi snrQ4 : Int) : Node :=
  { n with air := (Dispatcher.onRadioRx lib n.air raw rssi snrQ4).2 }

theorem receive_eq (raw : Bytes) (rssi snrQ4 : Int) :
    n.receive lib raw rssi snrQ4 m =
      (Dispatcher.onRadioRx lib n.air raw rssi snrQ4).1.elim (n.hearing lib raw rssi snrQ4)
        ((n.hearing lib raw rssi snrQ4).onPacket lib m) := by
  rw [receive, hearing]
  generalize Dispatcher.onRadioRx lib n.air raw rssi snrQ4 = result
  obtain ⟨_ | p, air⟩ := result <;> rfl

/-! ## What a reception queues -/

/-- The packets a reception made the dispatcher take on. -/
def queuedBy (lib : Crypto.Library) (m : Moment) (n : Node) (p : Packet) : List Packet :=
  (Dispatcher.takenOnSince n.air (n.onPacket lib m p).air).map (·.packet)

theorem takenOn_nodeTransmit {before : Node} (hkept : AirKept n before) (out : Packet)
    (priority : UInt8) (delayMs : UInt32) :
    (Dispatcher.takenOnSince n.air (before.transmit lib m out priority delayMs).air).map (·.packet) =
      if out.valid then [out] else [] := by
  have hsent : (Dispatcher.send ReliableSender.onTxResult lib m.radio before.air out priority
      delayMs none).2.takenOn = _ := Dispatcher.takenOn_send lib out priority delayMs none
  rw [hkept.takenOn] at hsent
  rw [transmit, Dispatcher.takenOnSince_of_append hsent]
  split <;> rfl

/-- One packet at most, and none that is not an answer or sent on. -/
theorem queuedBy_cases (n : Node) (p : Packet) :
    n.queuedBy lib m p = [] ∨
    ∃ out, n.queuedBy lib m p = [out] ∧ out.valid = true ∧
      (AnswerTo p out ∨ SendsOn lib m n p out) := by
  rw [queuedBy]
  have houtcome : Outcome lib m n p (n.onPacket lib m p) := onPacket_outcome n p
  generalize n.onPacket lib m p = n' at houtcome ⊢
  cases houtcome with
  | quiet hkept =>
      exact .inl (List.map_eq_nil_iff.mpr (Dispatcher.takenOnSince_of_append hkept.takenOn))
  | answered hkept hanswer =>
      rw [takenOn_nodeTransmit hkept]
      split
      · next hvalid => exact .inr ⟨_, rfl, hvalid, .inl hanswer⟩
      · exact .inl rfl
  | sentOn hair hcfg hon =>
      rw [takenOn_nodeTransmit (.of_eq hair)]
      split
      · next hvalid => exact .inr ⟨_, rfl, hvalid, .inr hon⟩
      · exact .inl rfl

end Node

end Coreletd.Mesh
