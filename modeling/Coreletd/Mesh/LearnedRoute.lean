/-
# A learned route leads back

A flooded text collects the first key byte of every relay it passes; the
recipient seals that path, as it is, into its answer; the sender stores it and
puts it in front of its next packet; and each relay takes its own byte off the
front. The route is built by appending on one kind of packet and used up from the
front on another, by the same relays in the same order.
-/

import Coreletd.Mesh.Authentic
import Coreletd.Mesh.Delivery
import Coreletd.Mesh.ReplyChains

namespace Coreletd.Mesh

open Coreletd.Crypto
open Coreletd.Library
open Coreletd.Proto
open ReliableSender

/-! ## Nodes on the way -/

/-- A node as it is when a packet reaches it, and how it hears that. -/
structure Hop where
  node : Node
  rssi : Int := 0
  snrQ4 : Int := 0
  m : Moment

namespace Hop

variable {lib : Crypto.Library} {hop : Hop} {p : Packet}

/-- The byte a path names the node by. -/
def id (hop : Hop) : UInt8 := hop.node.identity.id

/-- The node with the packet noted by its dispatcher. -/
def heard (lib : Crypto.Library) (hop : Hop) (p : Packet) : Node :=
  hop.node.hearing lib p.encode hop.rssi hop.snrQ4

/-- The node when it is done with the packet. -/
def after (lib : Crypto.Library) (hop : Hop) (p : Packet) : Node :=
  hop.node.receive lib p.encode hop.rssi hop.snrQ4 hop.m

/-- What its dispatcher takes on in between. -/
def handsOn (lib : Crypto.Library) (hop : Hop) (p : Packet) : List Packet :=
  (Dispatcher.takenOnSince hop.node.air (hop.after lib p).air).map (·.packet)

/-- The node has not seen the packet lately. -/
def Fresh (lib : Crypto.Library) (hop : Hop) (p : Packet) : Prop :=
  (hop.node.air.checkAndMarkSeen lib p).1 = false

theorem client_heard (hop : Hop) (p : Packet) :
    (hop.heard lib p).air.client = hop.node.air.client :=
  (Dispatcher.quietly_onRadioRx lib hop.node.air p.encode hop.rssi hop.snrQ4).client

theorem identity_heard (hop : Hop) (p : Packet) :
    (hop.heard lib p).identity = hop.node.identity :=
  congrArg ReliableSender.self (client_heard hop p)

/-- Packets of one type and payload are new together. -/
theorem Fresh.congr (hfresh : hop.Fresh lib p) {p' : Packet} (htype : p'.type = p.type)
    (hpayload : p'.payload = p.payload) (htrace : p.type ≠ .trace) : hop.Fresh lib p' := by
  have hhash : p'.dedupHash lib = p.dedupHash lib := by
    rw [Packet.dedupHash, Packet.dedupHash, htype, hpayload, if_neg htrace, if_neg htrace]
  rw [Fresh, Dispatcher.checkAndMarkSeen] at hfresh ⊢
  rw [hhash]
  exact hfresh

/-- A packet that is new is handed up as it was sent. -/
theorem hears (hp : p.FromAir) (hfresh : hop.Fresh lib p) (htrace : p.type ≠ .trace) :
    ∃ p', Packet.SameOnAir p p' ∧ p'.FromAir ∧
      hop.after lib p = (hop.heard lib p).onPacket lib hop.m p' ∧
      hop.handsOn lib p = (hop.heard lib p).queuedBy lib hop.m p' := by
  obtain ⟨sent, hdecode, hsame⟩ := Packet.decode_encode hp.version hp.payload_ne hp.valid
  have hnew : (hop.node.air.checkAndMarkSeen lib sent).1 = false :=
    hfresh.congr hsame.type hsame.payload htrace
  have hup : (Dispatcher.onRadioRx lib hop.node.air p.encode hop.rssi hop.snrQ4).1 =
      some { sent with rssi := hop.rssi, snrQ4 := hop.snrQ4 } := by
    rw [(Dispatcher.onRadioRx_decoded lib hdecode _ _ _).1, hnew]
    rfl
  have hafter : hop.after lib p = (hop.heard lib p).onPacket lib hop.m
      { sent with rssi := hop.rssi, snrQ4 := hop.snrQ4 } := by
    rw [after, Node.receive_eq, hup]
    rfl
  have htaken : (hop.heard lib p).air.takenOn = hop.node.air.takenOn := by
    rw [Dispatcher.takenOn, Dispatcher.takenOn]
    exact congrArg _
      (Dispatcher.quietly_onRadioRx lib hop.node.air p.encode hop.rssi hop.snrQ4).trace
  refine ⟨_, ?_, (Packet.fromAir_of_decode hdecode).heard _ _, hafter, ?_⟩
  · exact ⟨hsame.route, hsame.type, hsame.codes, hsame.pathHashSize, hsame.path, hsame.payload⟩
  · rw [handsOn, Node.queuedBy, hafter, Dispatcher.takenOnSince, Dispatcher.takenOnSince, htaken]

/-! ## One relay -/

/-- No contact of the node opens what is sealed in a payload. -/
def Closed (lib : Crypto.Library) (hop : Hop) (payload : Bytes) : Prop :=
  ∀ env, DirectEnvelope.decode payload = some env → ∀ c ∈ hop.node.contacts.byId env.srcHash,
    macAndDecrypt lib (c.sharedSecret lib hop.node.identity) env.mac env.ciphertext = none

theorem take_one_pub (self : LocalIdentity) : self.pub.take 1 = [self.id] := by
  have hlength : self.pub.length = kPubKeySize := self.pub_length
  rw [LocalIdentity.id]
  cases hpub : self.pub with
  | nil =>
      rw [hpub] at hlength
      simp [kPubKeySize] at hlength
  | cons first rest => rfl

/-- A text that no contact opens is left to others. -/
theorem handle_closed {arrived : Packet} (hsame : Packet.SameOnAir p arrived)
    (htype : p.type = .txtMsg) (hsealed : (DirectEnvelope.decode p.payload).isSome = true)
    (hclosed : hop.Closed lib p.payload) :
    (hop.heard lib p).handle lib hop.m arrived = (true, hop.heard lib p) := by
  obtain ⟨env, hdecode⟩ := Option.isSome_iff_exists.mp hsealed
  have hnone : (hop.heard lib p).decryptFrom lib env.srcHash env.mac env.ciphertext = none := by
    apply Node.decryptFrom_eq_none
    intro c hc
    rw [identity_heard]
    exact hclosed env hdecode c hc
  rw [Node.handle, hsame.type, htype]
  dsimp only
  rw [Node.handleText, hsame.payload, hdecode]
  dsimp only
  rw [hnone]
  split <;> rfl

theorem hopCount_arrived {arrived : Packet} (hsame : Packet.SameOnAir p arrived)
    (hwidth : p.pathHashSize = 1) : arrived.hopCount = p.path.length := by
  rw [Packet.hopCount, hsame.pathHashSize, hwidth, hsame.path, if_neg Nat.one_ne_zero, Nat.div_one]

/-- A path of single bytes with room for one more gets the relay's. -/
theorem pushHop_heard {arrived : Packet} (hsame : Packet.SameOnAir p arrived)
    (harrived : arrived.FromAir) (hwidth : p.pathHashSize = 1) (hroom : p.path.length < 63) :
    arrived.pushHop (hop.heard lib p).identity.pub =
      some { arrived with path := p.path ++ [hop.id] } := by
  rw [harrived.pushHop_eq, hsame.pathHashSize, hwidth, take_one_pub, hsame.path, identity_heard]
  · rfl
  · rw [hsame.pathHashSize, hwidth, (hop.heard lib p).identity.pub_length]
    decide
  · rw [hsame.pathHashSize, hwidth, hsame.path]
    simp only [kMaxPathSize]
    omega
  · rw [hopCount_arrived hsame hwidth]
    exact hroom

/-- A flooded text the relay cannot open goes on with its byte appended. -/
theorem handsOn_flood (hp : p.FromAir) (hflood : p.isFlood = true) (htype : p.type = .txtMsg)
    (hwidth : p.pathHashSize = 1) (hsealed : (DirectEnvelope.decode p.payload).isSome = true)
    (hfresh : hop.Fresh lib p) (hclosed : hop.Closed lib p.payload)
    (hrelay : hop.node.cfg.relay = true) (hhops : p.path.length < hop.node.cfg.maxHops.toNat)
    (hroom : p.path.length < 63) :
    ∃ out, hop.handsOn lib p = [out] ∧ Node.CopyOf p out ∧ out.FromAir ∧ out.pathHashSize = 1 ∧
      out.path = p.path ++ [hop.id] := by
  obtain ⟨arrived, hsame, harrived, -, hhands⟩ := hears hp hfresh (by rw [htype]; decide)
  have hflooded : arrived.isFlood = true := by
    rw [Packet.isFlood, hsame.route]
    exact hflood
  have hhandled := handle_closed hsame htype hsealed hclosed
  have hpushed : arrived.pushHop (hop.heard lib p).identity.pub = some _ :=
    pushHop_heard hsame harrived hwidth hroom
  have hout : ({ arrived with path := p.path ++ [hop.id] } : Packet).FromAir :=
    harrived.pushed hpushed
  have hon : (hop.heard lib p).cfg.relay = true := hrelay
  have hfew : arrived.hopCount < (hop.heard lib p).cfg.maxHops.toNat := by
    rw [hopCount_arrived hsame hwidth]
    exact hhops
  refine ⟨_, ?_, ?_, hout, hsame.pathHashSize.trans hwidth, rfl⟩
  · rw [hhands, Node.queuedBy, Node.onPacket_local (by simp [hsame.type, htype])
      (by simp [hsame.type, htype]) (.inl hflooded), hhandled]
    dsimp only
    rw [Node.maybeRepeat_eq hon hflooded hfew hpushed, Node.takenOn_nodeTransmit (.refl _),
      if_pos hout.valid]
  · exact ⟨hsame.route, hsame.type, hsame.payload⟩

/-- An ack the relay waits for itself would end with it. -/
def Uninvolved (hop : Hop) (p : Packet) : Prop :=
  p.type = .ack → kAckHashSize ≤ p.payload.length ∧
    hop.node.Unmatched (subview p.payload 0 kAckHashSize)

/-- In transit only an ack is read, and it is not for the relay. -/
theorem transit_unread {arrived : Packet} (hsame : Packet.SameOnAir p arrived)
    (huninvolved : hop.Uninvolved p) :
    (if arrived.type = .ack then (hop.heard lib p).handleAck lib hop.m arrived
      else (true, hop.heard lib p)) = (true, hop.heard lib p) := by
  split
  · next hack =>
    obtain ⟨hlong, hunmatched⟩ := huninvolved (hsame.type.symm.trans hack)
    have hnobody : (hop.heard lib p).Unmatched (subview arrived.payload 0 kAckHashSize) := by
      rw [Node.Unmatched, client_heard, hsame.payload]
      exact hunmatched
    rw [← hsame.payload] at hlong
    rcases Node.handleAck_cases (m := hop.m) (n := hop.heard lib p) hack with
      ⟨hshort, -⟩ | ⟨-, -, heq⟩ | ⟨-, hmatched, -⟩
    · exact absurd hshort (Nat.not_lt.mpr hlong)
    · exact heq
    · exact absurd hnobody hmatched
  · rfl

/-- A relay that is named next sends the packet on. -/
theorem forwardDirect_named {arrived : Packet} (hfirst : arrived.firstHop = [hop.id])
    (hmultipart : arrived.type ≠ .multipart) (hrelay : hop.node.cfg.relay = true) :
    (hop.heard lib p).forwardDirect lib hop.m arrived = (hop.heard lib p).transmit lib
      hop.m arrived.popHop kPriorityAck
        (if arrived.type = .ack then 0 else Node.directRetransmitDelay hop.m arrived.popHop) := by
  have hnamed : ¬ (arrived.firstHop = [] ∨
      arrived.firstHop ≠ subview (hop.heard lib p).identity.pub 0 arrived.firstHop.length) := by
    rw [hfirst, identity_heard, subview, List.drop_zero, List.length_singleton, take_one_pub]
    simp [id]
  have hon : (hop.heard lib p).cfg.relay = true := hrelay
  rw [Node.forwardDirect, if_neg (by rw [hon]; decide), if_neg hnamed, if_neg hmultipart]

/-- A direct packet whose next hop is the relay goes on with that hop taken off. -/
theorem handsOn_direct (hp : p.FromAir) (hdirect : p.isDirect = true)
    (htype : p.type = .txtMsg ∨ p.type = .path ∨ p.type = .ack) (hwidth : p.pathHashSize = 1)
    {rest : Bytes} (hpath : p.path = hop.id :: rest) (hfresh : hop.Fresh lib p)
    (huninvolved : hop.Uninvolved p) (hrelay : hop.node.cfg.relay = true) :
    ∃ out, hop.handsOn lib p = [out] ∧ Node.CopyOf p out ∧ out.FromAir ∧ out.pathHashSize = 1 ∧
      out.path = rest := by
  have htrace : p.type ≠ .trace := by rcases htype with h | h | h <;> rw [h] <;> decide
  have hcontrol : p.type ≠ .control := by rcases htype with h | h | h <;> rw [h] <;> decide
  have hmultipart : p.type ≠ .multipart := by rcases htype with h | h | h <;> rw [h] <;> decide
  obtain ⟨arrived, hsame, harrived, -, hhands⟩ := hears hp hfresh htrace
  have hstraight : arrived.isDirect = true := by
    rw [Packet.isDirect, hsame.route]
    exact hdirect
  have hsize : arrived.pathHashSize = 1 := hsame.pathHashSize.trans hwidth
  have hnext : arrived.path = hop.id :: rest := hsame.path.trans hpath
  have hcount : 0 < arrived.hopCount := by
    rw [Packet.hopCount, hsize, hnext]
    simp
  have hfirst : arrived.firstHop = [hop.id] := by
    rw [Packet.firstHop, hsize, hnext]
    simp
  have hpopped : arrived.popHop = { arrived with path := rest } := by
    rw [Packet.popHop, hsize, hnext]
    simp
  have hout : ({ arrived with path := rest } : Packet).FromAir := hpopped ▸ harrived.popped
  refine ⟨_, ?_, ?_, hout, hsize, rfl⟩
  · rw [hhands, Node.queuedBy, Node.onPacket,
      if_neg (by simp [hsame.type, htrace]), if_neg (by simp [hsame.type, hcontrol]),
      if_pos (by simp [hstraight, hcount]), Node.passOn, transit_unread hsame huninvolved]
    dsimp only
    rw [forwardDirect_named hfirst (hsame.type ▸ hmultipart) hrelay,
      Node.takenOn_nodeTransmit (.refl _), hpopped, if_pos hout.valid]
  · exact ⟨hsame.route, hsame.type, hsame.payload⟩

end Hop

/-! ## A chain of relays -/

/-- A packet goes from relay to relay. Each hands on one packet, a copy with the path
changed as `link` says. -/
inductive Through (lib : Crypto.Library) (link : Hop → Packet → Packet → Prop) :
    Packet → List Hop → Packet → Prop
  | here (p : Packet) : Through lib link p [] p
  | hop {hop : Hop} {hops : List Hop} {p out last : Packet} (hhands : hop.handsOn lib p = [out])
      (hcopy : Node.CopyOf p out) (hlink : link hop p out) (hrest : Through lib link out hops last) :
      Through lib link p (hop :: hops) last

/-- The relay's own byte comes last on the path. -/
def Appends (hop : Hop) (p out : Packet) : Prop := out.path = p.path ++ [hop.id]

/-- The relay's own byte, and nothing else, is gone from the front. -/
def Consumes (hop : Hop) (p out : Packet) : Prop := p.path = hop.id :: out.path

theorem Node.CopyOf.refl (p : Packet) : Node.CopyOf p p := ⟨rfl, rfl, rfl⟩

theorem Node.CopyOf.trans {p p' p'' : Packet} (hfirst : Node.CopyOf p p')
    (hsecond : Node.CopyOf p' p'') : Node.CopyOf p p'' :=
  ⟨hsecond.route.trans hfirst.route, hsecond.type.trans hfirst.type,
    hsecond.payload.trans hfirst.payload⟩

/-- What a relay brings to a flooded text: it repeats, up to as many hops as the
chain has, and can neither recognise nor open the text. -/
structure Repeats (lib : Crypto.Library) (sent : Packet) (length : Nat) (hop : Hop) : Prop where
  relay : hop.node.cfg.relay = true
  hops : length ≤ hop.node.cfg.maxHops.toNat
  fresh : hop.Fresh lib sent
  closed : hop.Closed lib sent.payload

/-- What a relay brings to a direct packet. -/
structure Forwards (lib : Crypto.Library) (sent : Packet) (hop : Hop) : Prop where
  relay : hop.node.cfg.relay = true
  fresh : hop.Fresh lib sent
  uninvolved : hop.Uninvolved sent

variable {lib : Crypto.Library} {sent : Packet}

theorem through_flood (htype : sent.type = .txtMsg) (hflood : sent.isFlood = true)
    (hsealed : (DirectEnvelope.decode sent.payload).isSome = true) {length : Nat}
    (hlength : length ≤ 63) (hops : List Hop) :
    ∀ p : Packet, Node.CopyOf sent p → p.FromAir → p.pathHashSize = 1 →
      p.path.length + hops.length ≤ length → (∀ hop ∈ hops, Repeats lib sent length hop) →
      ∃ last, Through lib Appends p hops last ∧ Node.CopyOf sent last ∧ last.FromAir ∧
        last.pathHashSize = 1 ∧ last.path = p.path ++ hops.map Hop.id := by
  induction hops with
  | nil =>
      intro p hcopy hp hwidth _ _
      exact ⟨p, .here p, hcopy, hp, hwidth, by simp⟩
  | cons hop hops ih =>
      intro p hcopy hp hwidth hroom hrepeat
      rw [List.length_cons] at hroom
      have hhop : Repeats lib sent length hop := hrepeat hop List.mem_cons_self
      have htrace : sent.type ≠ .trace := by rw [htype]; decide
      obtain ⟨out, hhands, hcopied, hout, hsize, hpath⟩ := Hop.handsOn_flood hp
        (hcopy.isFlood.trans hflood) (hcopy.type.trans htype) hwidth (hcopy.payload ▸ hsealed)
        (hhop.fresh.congr hcopy.type hcopy.payload htrace) (hcopy.payload ▸ hhop.closed) hhop.relay
        (by have hfew := hhop.hops; omega) (by omega)
      obtain ⟨last, hthrough, hlast⟩ := ih out (hcopy.trans hcopied) hout hsize
        (by rw [hpath, List.length_append, List.length_singleton]; omega)
        (fun other hother => hrepeat other (List.mem_cons_of_mem _ hother))
      refine ⟨last, .hop hhands hcopied hpath hthrough, hlast.1, hlast.2.1, hlast.2.2.1, ?_⟩
      rw [hlast.2.2.2, hpath, List.map_cons, List.append_assoc, List.singleton_append]

theorem through_direct (htype : sent.type = .txtMsg ∨ sent.type = .path ∨ sent.type = .ack)
    (hdirect : sent.isDirect = true) (hops : List Hop) :
    ∀ p : Packet, Node.CopyOf sent p → p.FromAir → p.pathHashSize = 1 →
      p.path = hops.map Hop.id → (∀ hop ∈ hops, Forwards lib sent hop) →
      ∃ last, Through lib Consumes p hops last ∧ Node.CopyOf sent last ∧ last.FromAir ∧
        last.path = [] := by
  induction hops with
  | nil =>
      intro p hcopy hp _ hpath _
      exact ⟨p, .here p, hcopy, hp, hpath⟩
  | cons hop hops ih =>
      intro p hcopy hp hwidth hpath hforward
      have hhop : Forwards lib sent hop := hforward hop List.mem_cons_self
      have htrace : sent.type ≠ .trace := by rcases htype with h | h | h <;> rw [h] <;> decide
      have hstraight : p.isDirect = true := by
        rw [Packet.isDirect, hcopy.route]
        exact hdirect
      have huninvolved : hop.Uninvolved p := by
        rw [Hop.Uninvolved, hcopy.type, hcopy.payload]
        exact hhop.uninvolved
      obtain ⟨out, hhands, hcopied, hout, hsize, hrest⟩ := Hop.handsOn_direct hp hstraight
        (hcopy.type.symm ▸ htype) hwidth hpath
        (hhop.fresh.congr hcopy.type hcopy.payload htrace) huninvolved hhop.relay
      obtain ⟨last, hthrough, hlast⟩ := ih out (hcopy.trans hcopied) hout hsize hrest
        (fun other hother => hforward other (List.mem_cons_of_mem _ hother))
      refine ⟨last, .hop hhands hcopied ?_ hthrough, hlast⟩
      rw [Consumes, hrest, hpath]
      rfl

/-! ## The answer -/

namespace Hop

variable {hop : Hop} {p : Packet}

/-- The types of text a node accepts. -/
def Supported (msg : TextMessage) : Prop :=
  msg.txtType ∈ [kTxtPlain, kTxtCliData, kTxtSignedPlain]

/-- A flags byte of a supported type reads back as that type, whatever the attempt. -/
theorem Supported.flagsByte {msg : TextMessage} (hmsg : Supported msg) :
    msg.flagsByte >>> 2 = msg.txtType := by
  have hbits : ∀ txtType ∈ [kTxtPlain, kTxtCliData, kTxtSignedPlain],
      txtType &&& 0x3F = txtType := by decide +kernel
  rw [flagsByte_type, hbits msg.txtType hmsg]

/-- What is known of a node that a packet was sealed for. -/
structure OpensFrom (lib : Crypto.Library) (hop : Hop) (peer secret : Bytes) (c : Contact)
    (payload : Bytes) : Prop where
  shared : lib.sharedSecret hop.node.identity.priv peer = some secret
  contact : hop.node.contacts.find peer = some c
  alone : Node.Undisturbed lib hop.node peer payload

/-- The node opens what its peer sealed for it. -/
theorem OpensFrom.opened (hlib : lib.Lawful) {peer secret plaintext payload : Bytes} {c : Contact}
    (hopens : hop.OpensFrom lib peer secret c payload) (hne : plaintext ≠ [])
    (hpayload : payload = (DirectEnvelope.sealWith lib hop.id (peer.headD 0) secret
      plaintext).encode) (q : Packet) :
    ∃ env, DirectEnvelope.decode payload = some env ∧ env.destHash = (hop.heard lib q).identity.id ∧
      (hop.heard lib q).decryptFrom lib env.srcHash env.mac env.ciphertext =
        some (c, plaintext ++ padding plaintext.length) := by
  have hopened : Node.OpenedTo lib hop.node { payload } c (plaintext ++ padding plaintext.length) :=
    Node.openedTo_sealed hlib hopens.shared hopens.contact hne hpayload hopens.alone
  obtain ⟨env, hdecode, hdest, hfound⟩ := hopened
  refine ⟨env, hdecode, ?_, ?_⟩
  · rw [hdest, identity_heard]
  · rw [← hfound, Node.decryptFrom, Node.decryptFrom, identity_heard]
    rfl

/-- A supported text of the contact opens, with the padding behind it. -/
theorem opened_text (hlib : lib.Lawful) {peer secret : Bytes} {c : Contact} {msg : TextMessage}
    {arrived : Packet} (hopens : hop.OpensFrom lib peer secret c p.payload) (hmsg : Supported msg)
    (hsame : Packet.SameOnAir p arrived)
    (hpayload : p.payload = (DirectEnvelope.sealWith lib hop.id (peer.headD 0) secret
      msg.encode).encode) :
    ∃ read, (hop.heard lib p).opened lib arrived =
      some { packet := arrived, sender := c,
             plaintext := msg.encode ++ padding msg.encode.length, msg := read } := by
  obtain ⟨read, hread, hkind⟩ := msg.decode_append (padding msg.encode.length)
  have hopened : Node.OpenedTo lib (hop.heard lib p) arrived c
      (msg.encode ++ padding msg.encode.length) := by
    rw [Node.OpenedTo, hsame.payload]
    exact hopens.opened hlib msg.encode_ne_nil hpayload p
  refine ⟨read, Node.opened_eq_some.mpr ⟨rfl, hopened, hread, ?_⟩⟩
  show Node.KnownText read.txtType
  rw [hkind, hmsg.flagsByte]
  simpa [Supported, Node.KnownText] using hmsg

/-- The recipient answers a flooded text with the path it came by. -/
theorem handsOn_text (hlib : lib.Lawful) {peer secret : Bytes} {c : Contact} {msg : TextMessage}
    (hopens : hop.OpensFrom lib peer secret c p.payload) (hmsg : Supported msg)
    (hp : p.FromAir) (hflood : p.isFlood = true) (htype : p.type = .txtMsg)
    (hpayload : p.payload = (DirectEnvelope.sealWith lib hop.id (peer.headD 0) secret
      msg.encode).encode) (hfresh : hop.Fresh lib p) :
    ∃ ret : PathReturn, ret.path = p.path ∧ ret.pathHashSize = p.pathHashSize ∧
      ret.hasExtra = true ∧ ret.extraType &&& 0x0F = ret.extraType ∧ ret.encode.length ≤ 72 ∧
      hop.handsOn lib p = [Node.pathPacket lib hop.node.identity c secret ret none] := by
  obtain ⟨arrived, hsame, harrived, -, hhands⟩ := hears hp hfresh (by rw [htype]; decide)
  obtain ⟨read, hopened⟩ := opened_text hlib hopens hmsg hsame hpayload
  have hspec := Node.opened_spec hopened
  have hflooded : arrived.isFlood = true := by
    rw [Packet.isFlood, hsame.route]
    exact hflood
  have hair : ((hop.heard lib p).onPacket lib hop.m arrived).air = ((hop.heard lib p).acceptText lib
      hop.m arrived c (msg.encode ++ padding msg.encode.length) read).air := by
    rw [Node.onPacket_local (by simp [hsame.type, htype]) (by simp [hsame.type, htype])
      (.inl hflooded), Node.handle, hsame.type, htype]
    dsimp only
    rw [hspec.accepts hop.m]
  obtain ⟨ack, hack, hreply⟩ : ∃ ack, ack = Node.ackOf lib hop.m (hop.heard lib p).identity c
      (msg.encode ++ padding msg.encode.length) read ∧ _ :=
    Node.acceptText_flood hspec.shared hflooded
  have hshared : c.sharedSecret lib hop.node.identity = secret :=
    Node.sharedSecret_of_find hopens.shared hopens.contact
  have hlength : ack.length ≤ 6 := by
    rw [hack, Node.ackOf]
    split
    · exact Nat.zero_le 6
    · simp [ackPayload, subview, kAckHashSize]
  have hencoded : ∀ extraType, (Node.pathReturn hop.m arrived extraType ack).encode.length ≤ 72 :=
    fun extraType => Node.length_encode_pathReturn harrived.fits extraType hlength
  refine ⟨Node.pathReturn hop.m arrived (if ack = [] then 0 else PayloadType.ack.toByte) ack,
    hsame.path, hsame.pathHashSize, rfl, ?_, hencoded _, ?_⟩
  · rw [Node.pathReturn]
    dsimp only
    split <;> decide
  · rw [hhands, Node.queuedBy, hair, hreply, Node.takenOn_nodeTransmit (.refl _), identity_heard,
      hshared, if_pos (Node.pathPacket_valid hlib (hencoded _))]

end Hop

/-! ## The route is stored -/

/-- The store holds a route to a peer. -/
def RouteTo (s : ContactStore) (peer path : Bytes) : Prop :=
  ∃ c, s.find peer = some c ∧ c.pathKnown = true ∧ c.outPath = path

theorem routeTo_setPath {s : ContactStore} {peer : Bytes} {c : Contact}
    (hfind : s.find peer = some c)
    (path : Bytes) : RouteTo (s.setPath peer path).2 peer path := by
  rw [ContactStore.setPath, hfind]
  dsimp only
  split
  · next hsame => exact ⟨c, hfind, hsame.1, hsame.2⟩
  · dsimp only
    rw [RouteTo, ContactStore.find_modify, if_pos rfl, hfind]
    · exact ⟨_, rfl, rfl, rfl⟩
    · exact fun _ => rfl

theorem RouteTo.touch {s : ContactStore} {peer path : Bytes} (hroute : RouteTo s peer path)
    (key : Bytes) (now : UInt32) : RouteTo (s.touch key now) peer path := by
  obtain ⟨c, hfind, hknown, hpath⟩ := hroute
  rw [RouteTo, ContactStore.touch, ContactStore.find_modify, hfind]
  · split
    · exact ⟨_, rfl, hknown, hpath⟩
    · exact ⟨_, rfl, hknown, hpath⟩
  · exact fun _ => rfl

namespace Hop

variable {hop : Hop} {p : Packet}

/-- The ack inside a path return at most touches contacts. -/
theorem routeTo_completeExtra {n : Node} {peer path : Bytes} (m : Moment) (arrived : Packet)
    (ret : PathReturn) (hroute : RouteTo n.contacts peer path) :
    RouteTo (n.completeExtra m arrived ret).contacts peer path := by
  rw [Node.completeExtra]
  split
  · have hcase : Node.CompleteCase m n (subview ret.extra 0 kAckHashSize) arrived.isDirect
        (n.completeAck m (subview ret.extra 0 kAckHashSize) arrived.isDirect) :=
      Node.completeAck_case n _ _
    generalize n.completeAck m (subview ret.extra 0 kAckHashSize) arrived.isDirect = result
      at hcase ⊢
    cases hcase with
    | unmatched => exact hroute
    | matched _ hcontacts =>
        show RouteTo _ peer path
        rw [hcontacts]
        split
        · exact hroute.touch _ _
        · exact hroute
  · exact hroute

/-- The sender stores the path that comes back, whichever way it comes. -/
theorem learns (hlib : lib.Lawful) {peer secret : Bytes} {c : Contact} {ret : PathReturn}
    (hopens : hop.OpensFrom lib peer secret c p.payload) (hp : p.FromAir)
    (hroute : p.isFlood = true ∨ p.path = []) (htype : p.type = .path)
    (hpayload : p.payload = (DirectEnvelope.sealWith lib hop.id (peer.headD 0) secret
      ret.encode).encode) (hfresh : hop.Fresh lib p)
    (hwidth : ret.pathHashSize = 1) (hlength : ret.path.length ≤ 63) (hextra : ret.hasExtra = true)
    (hkind : ret.extraType &&& 0x0F = ret.extraType) :
    RouteTo (hop.after lib p).contacts peer ret.path := by
  obtain ⟨arrived, hsame, harrived, hafter, -⟩ := hears hp hfresh (by rw [htype]; decide)
  have hne : ret.encode ≠ [] := by simp [PathReturn.encode]
  have hopened : Node.OpenedTo lib (hop.heard lib p) arrived c
      (ret.encode ++ padding ret.encode.length) := by
    rw [Node.OpenedTo, hsame.payload]
    exact hopens.opened hlib hne hpayload p
  have hread : PathReturn.decode (ret.encode ++ padding ret.encode.length) =
      some { ret with extra := ret.extra ++ padding ret.encode.length } := by
    have hfits : ({ path := ret.path } : Packet).PathFits :=
      (Via.fits_of_length hlength).pathFits rfl rfl
    exact PathReturn.decode_encode_append hfits rfl hwidth hextra hkind _
  have hpeer : c.pubkey = peer := by simpa using List.find?_some hopens.contact
  generalize hret' : { ret with extra := ret.extra ++ padding ret.encode.length } = ret' at hread
  have hpath : ret'.path = ret.path := by rw [← hret']
  have hsize : ret'.pathHashSize = 1 := by rw [← hret']; exact hwidth
  have hlearned : RouteTo ((hop.heard lib p).learnPath hop.m c ret').contacts peer ret.path := by
    rw [Node.learnPath, if_pos hsize, hpeer, hpath]
    exact (routeTo_setPath hopens.contact ret.path).touch peer hop.m.unixNow
  have hcompleted := routeTo_completeExtra hop.m arrived ret' hlearned
  have hhere : arrived.isFlood = true ∨ arrived.hopCount = 0 := by
    rw [Packet.isFlood, hsame.route]
    exact hroute.imp_right fun hempty => Packet.hopCount_of_path_nil (hsame.path.trans hempty)
  rw [hafter, Node.onPacket_openedPath (hsame.type.trans htype) hhere hopened hread]
  split
  · rw [Node.sendPathReturn]
    split <;> exact hcompleted
  · exact hcompleted

/-- A direct packet with its path used up is read and goes no further. -/
def ReadHere (lib : Crypto.Library) (hop : Hop) (p : Packet) : Prop :=
  ∃ arrived, Packet.SameOnAir p arrived ∧
    hop.after lib p = ((hop.heard lib p).handle lib hop.m arrived).2 ∧
    (hop.heard lib p).relayed lib hop.m arrived = []

theorem readHere (hp : p.FromAir) (hdirect : p.isDirect = true) (hempty : p.path = [])
    (htype : p.type = .txtMsg ∨ p.type = .path ∨ p.type = .ack) (hfresh : hop.Fresh lib p) :
    hop.ReadHere lib p := by
  have htrace : p.type ≠ .trace := by rcases htype with h | h | h <;> rw [h] <;> decide
  have hcontrol : p.type ≠ .control := by rcases htype with h | h | h <;> rw [h] <;> decide
  obtain ⟨arrived, hsame, harrived, hafter, -⟩ := hears hp hfresh htrace
  have hcount : arrived.hopCount = 0 := Packet.hopCount_of_path_nil (hsame.path.trans hempty)
  have hunflooded : arrived.isFlood = false := by
    have hstraight : arrived.isDirect = true := by
      rw [Packet.isDirect, hsame.route]
      exact hdirect
    rw [Packet.isDirect_eq_not_isFlood] at hstraight
    simpa using hstraight
  have hstays : ∀ n : Node, n.maybeRepeat lib hop.m arrived = n := by
    intro n
    rw [Node.maybeRepeat, hunflooded]
    split <;> rfl
  have hread :
      (hop.heard lib p).read lib hop.m arrived = (hop.heard lib p).handle lib hop.m arrived := by
    rw [Node.read, if_neg (by simp [hsame.type, htrace]), if_neg (by simp [hsame.type, hcontrol]),
      if_neg (by simp [hcount])]
  have hrelay : ∀ n : Node, n.relay lib hop.m arrived = n := by
    intro n
    rw [Node.relay, if_neg (by simp [hsame.type, htrace]), if_neg (by simp [hcount]), hstays]
  have hthen : (hop.heard lib p).readThenRelay lib hop.m arrived =
      ((hop.heard lib p).handle lib hop.m arrived).2 := by
    rw [Node.readThenRelay, hread, hrelay]
    split <;> rfl
  refine ⟨arrived, hsame, ?_, ?_⟩
  · rw [hafter, Node.onPacket_eq, hthen]
  · rw [Node.relayed, hthen, hread, Dispatcher.takenOnSince_of_append (List.nil_append _).symm]
    rfl

end Hop

/-! ## The text -/

/-- A text sealed for a contact, before it is routed. -/
def textPacket (lib : Crypto.Library) (self : LocalIdentity) (dest : Contact) (plaintext : Bytes) :
    Packet :=
  { type := .txtMsg
    payload := (DirectEnvelope.sealWith lib dest.id self.id (dest.sharedSecret lib self)
      plaintext).encode }

/-- What the sender hands over for an attempt. -/
def attemptPackets (lib : Crypto.Library) (radio : RadioView) (d : Air) (p : Pending)
    (dest : Contact) (forceFlood : Bool) : List Packet :=
  (Dispatcher.takenOnSince d (Air.sendAttempt lib radio d p dest forceFlood).2).map (·.packet)

/-- An attempt is one text, routed. -/
theorem eq_of_mem_attemptPackets {radio : RadioView} {d : Air} {p : Pending} {dest : Contact}
    {forceFlood : Bool} (hsent : sent ∈ attemptPackets lib radio d p dest forceFlood) :
    sent.valid = true ∧ sent = routed dest (forceFlood || !dest.pathKnown)
      (textPacket lib d.client.self dest p.plaintext) := by
  rw [attemptPackets, Air.sendAttempt] at hsent
  dsimp only at hsent
  split at hsent
  · rw [Dispatcher.takenOnSince_of_append (List.nil_append _).symm] at hsent
    simp at hsent
  · rw [routeTo] at hsent
    generalize hnoted : d.client.noteAttempt p _ forceFlood = noted at hsent
    generalize hpacket : routed dest (forceFlood || !dest.pathKnown) _ = packet at hsent
    obtain ⟨q, hq, htaken⟩ : ∃ q : Queued Nat, q.packet = packet ∧
        (Dispatcher.send onTxResult lib radio { d with client := noted } packet kPriorityDirect 0
          (if p.id = 0 then none else some p.id)).2.takenOn =
          (if packet.valid then [q] else []) ++ d.takenOn :=
      ⟨_, rfl, Dispatcher.takenOn_send lib packet kPriorityDirect 0 _⟩
    generalize Dispatcher.send onTxResult lib radio { d with client := noted } packet
      kPriorityDirect 0 (if p.id = 0 then none else some p.id) = result at hsent htaken
    have hfresh : ∀ d' : Air, d'.takenOn = result.2.takenOn →
        (Dispatcher.takenOnSince d d').map (·.packet) = if packet.valid then [packet] else [] := by
      intro d' hd'
      rw [Dispatcher.takenOnSince_of_append (hd'.trans htaken), ← hq]
      split <;> rfl
    have hmem : sent ∈ if packet.valid then [packet] else [] := by
      rcases result with ⟨_ | _, d'⟩
      · rw [← hfresh d' rfl]
        exact hsent
      · rw [← hfresh d' rfl]
        exact hsent
    split at hmem
    · next hvalid =>
      obtain rfl := List.mem_singleton.mp hmem
      exact ⟨hvalid, hpacket.symm⟩
    · simp at hmem

/-- A text that was taken on for flooding is fit to travel. -/
theorem fromAir_text {dest : Contact} {forceFlood : Bool} {self : LocalIdentity}
    {plaintext : Bytes} (hvalid : sent.valid = true) (hflood : sent.isFlood = true)
    (hsent : sent = routed dest forceFlood (textPacket lib self dest plaintext)) :
    sent.FromAir ∧ sent.pathHashSize = 1 ∧ sent.path = [] := by
  have hpayload : sent.payload.length ≤ kMaxPayloadSize := (Packet.pathFits_of_valid hvalid).2
  have hne : sent.payload ≠ [] := by
    rw [hsent, routed_payload]
    simp [textPacket, DirectEnvelope.encode]
  have hfields : sent.payloadVersion = 0 ∧ sent.pathHashSize = 1 ∧ sent.path = [] := by
    rw [routed] at hsent
    split at hsent
    · rw [hsent] at hflood
      exact absurd hflood (by simp [Packet.isFlood])
    · rw [hsent]
      exact ⟨rfl, rfl, rfl⟩
  exact ⟨⟨(Packet.pathFits_of_valid hvalid).1, hne, hpayload, hfields.1⟩, hfields.2⟩

/-! ## There and back -/

theorem fromAir_of_arrives {p : Packet} (harrives : Node.Arrives sent p) : p.FromAir := by
  obtain ⟨raw, hdecode⟩ := harrives.decoded
  exact (Packet.fromAir_of_decode hdecode).heard p.rssi p.snrQ4

/-- What may be sent to a contact along its route: something that fits, of a type that
travels by routes. -/
structure Directable (base : Packet) : Prop where
  type : base.type = .txtMsg ∨ base.type = .path ∨ base.type = .ack
  version : base.payloadVersion = 0
  payload_ne : base.payload ≠ []
  payload_le : base.payload.length ≤ kMaxPayloadSize

/-- The stored route, in front of a packet. -/
theorem fromAir_directed {base : Packet} (hbase : Directable base) {c : Contact} {path : Bytes}
    (hknown : c.pathKnown = true) (hpath : c.outPath = path) (hlength : path.length ≤ 63) :
    (routed c false base).FromAir ∧ (routed c false base).isDirect = true ∧
      (routed c false base).pathHashSize = 1 ∧ (routed c false base).path = path := by
  have hrouted : routed c false base =
      { base with route := .direct, path := path, pathHashSize := 1 } := by
    rw [routed, hknown, hpath]
    rfl
  rw [hrouted]
  refine ⟨⟨⟨le_rfl, (by decide : 1 ≤ 3), ?_, ?_, ?_⟩, hbase.payload_ne, hbase.payload_le,
    hbase.version⟩, rfl, rfl, rfl⟩
  · exact Nat.mod_one _
  · simpa using hlength
  · show path.length ≤ kMaxPathSize
    simp only [kMaxPathSize]
    omega

/-- The direct half: a packet along the stored route passes the relays in order, each
taking its own hop off, and is read at its end. -/
theorem directed_leads_back {base : Packet} (hbase : Directable base) {c : Contact}
    {relays : List Hop} {dest : Hop} (hknown : c.pathKnown = true)
    (hpath : c.outPath = relays.map Hop.id) (hlength : relays.length ≤ 63)
    (hrelays : ∀ hop ∈ relays, Forwards lib (routed c false base) hop)
    (hfresh : dest.Fresh lib (routed c false base)) :
    ∃ last, Through lib Consumes (routed c false base) relays last ∧ last.path = [] ∧
      Node.CopyOf (routed c false base) last ∧ dest.ReadHere lib last := by
  have htype := hbase.type
  rw [← routed_type c false base] at htype
  have htrace : (routed c false base).type ≠ .trace := by
    rcases htype with h | h | h <;> rw [h] <;> decide
  obtain ⟨hfrom, hdirect, hwidth, hroute⟩ :=
    fromAir_directed hbase hknown hpath (by rw [List.length_map]; exact hlength)
  obtain ⟨last, hthrough, hcopy, hlast, hempty⟩ := through_direct htype hdirect relays
    (routed c false base) (.refl _) hfrom hwidth hroute hrelays
  refine ⟨last, hthrough, hempty, hcopy, Hop.readHere hlast ?_ hempty ?_ ?_⟩
  · rw [Packet.isDirect, hcopy.route]
    exact hdirect
  · rw [hcopy.type]
    exact htype
  · exact hfresh.congr hcopy.type hcopy.payload htrace

/-- A node opens what was sealed for it. -/
def Hop.Opens (lib : Crypto.Library) (hop : Hop) (p : Packet) (c : Contact) (plaintext : Bytes) :
    Prop :=
  ∃ env, DirectEnvelope.decode p.payload = some env ∧ env.destHash = (hop.heard lib p).identity.id ∧
    (hop.heard lib p).decryptFrom lib env.srcHash env.mac env.ciphertext = some (c, plaintext)

/-- Whatever `source` sends by the route of a contact passes the relays again, in
whatever state they are by then, each taking its own hop off. At `dest` it is read
with nothing left of its path, and opens if it was sealed for that. -/
def LeadsBack (lib : Crypto.Library) (source : Node) (dest : Hop) (secret : Bytes)
    (relays : List Hop) (stored : Contact) : Prop :=
  ∀ (base : Packet) (relays' : List Hop) (dest' : Hop), Directable base →
    relays'.map (·.node.identity) = relays.map (·.node.identity) →
    dest'.node.identity = dest.node.identity →
    (∀ hop ∈ relays', Forwards lib (routed stored false base) hop) →
    dest'.Fresh lib (routed stored false base) →
    ∃ last, Through lib Consumes (routed stored false base) relays' last ∧ last.path = [] ∧
      dest'.ReadHere lib last ∧
      ∀ (plaintext : Bytes) (known : Contact), plaintext ≠ [] →
        base.payload = (DirectEnvelope.sealWith lib dest.id source.identity.id secret
          plaintext).encode →
        dest'.node.contacts.find source.identity.pub = some known →
        Node.Undisturbed lib dest'.node source.identity.pub base.payload →
        dest'.Opens lib last known (plaintext ++ padding plaintext.length)

/-- However the answer comes back to `source`, it leaves the relays' bytes there as the
route to `dest`, and that leads back. -/
def Teaches (lib : Crypto.Library) (source : Node) (dest : Hop) (secret : Bytes)
    (relays : List Hop) (reply : Packet) : Prop :=
  ∀ (home : Hop) (back : Packet), home.node.identity = source.identity →
    Node.Peers lib home.node dest.node secret → Node.Arrives reply back → home.Fresh lib back →
    Node.Undisturbed lib home.node dest.node.identity.pub back.payload →
    ∃ stored, (home.after lib back).contacts.find dest.node.identity.pub = some stored ∧
      stored.pathKnown = true ∧ stored.outPath = relays.map Hop.id ∧
      LeadsBack lib source dest secret relays stored

theorem leadsBack_of_route {source : Node} {dest : Hop} {secret : Bytes}
    (hpeers : Node.Peers lib source dest.node secret) (hlib : lib.Lawful) {relays : List Hop}
    (hlength : relays.length ≤ 63) {stored : Contact} (hknown : stored.pathKnown = true)
    (hpath : stored.outPath = relays.map Hop.id) :
    LeadsBack lib source dest secret relays stored := by
  intro base relays' dest' hbase hsame hdest hforwards hfresh
  have hids : relays'.map Hop.id = relays.map Hop.id := by
    have hmapped := congrArg (List.map LocalIdentity.id) hsame
    rw [List.map_map, List.map_map] at hmapped
    exact hmapped
  have hcount : relays'.length = relays.length := by
    have hlengths := congrArg List.length hids
    rwa [List.length_map, List.length_map] at hlengths
  obtain ⟨last, hthrough, hempty, hcopy, hread⟩ := directed_leads_back hbase hknown
    (hpath.trans hids.symm) (hcount ▸ hlength) hforwards hfresh
  refine ⟨last, hthrough, hempty, hread, ?_⟩
  intro plaintext known hne hsealed hcontact halone
  have hpayload : last.payload = base.payload := hcopy.payload.trans (routed_payload _ _ _)
  have hopens : dest'.OpensFrom lib source.identity.pub secret known last.payload := by
    refine ⟨?_, hcontact, ?_⟩
    · rw [hdest]
      exact hpeers.theirs
    · rw [hpayload]
      exact halone
  refine hopens.opened hlib hne ?_ last
  rw [hpayload, hsealed, Hop.id, Hop.id, hdest]
  rfl

/-- A sealed answer teaches the path in it. -/
theorem teaches_of_return (hlib : lib.Lawful) {source : Node} {dest : Hop} {secret : Bytes}
    (hpeers : Node.Peers lib source dest.node secret) {relays : List Hop}
    (hlength : relays.length ≤ 63) {known : Contact} (hid : known.id = source.identity.id)
    {ret : PathReturn} (hpath : ret.path = relays.map Hop.id) (hwidth : ret.pathHashSize = 1)
    (hextra : ret.hasExtra = true) (hbits : ret.extraType &&& 0x0F = ret.extraType) :
    Teaches lib source dest secret relays
      (Node.pathPacket lib dest.node.identity known secret ret none) := by
  intro home back hhome hpeers' hback hfresh halone
  obtain ⟨contact, hcontact⟩ := Option.isSome_iff_exists.mp hpeers'.known
  have hlearned : RouteTo (home.after lib back).contacts dest.node.identity.pub ret.path := by
    refine Hop.learns hlib ⟨hpeers'.ours, hcontact, halone⟩ (fromAir_of_arrives hback) hback.here
      hback.type ?_ hfresh hwidth ?_ hextra hbits
    · rw [hback.payload, Node.pathPacket, hid, Hop.id, hhome]
      rfl
    · rw [hpath, List.length_map]
      exact hlength
  obtain ⟨stored, hstored, hknown, hroute⟩ := hlearned
  exact ⟨stored, hstored, hknown, hroute.trans hpath,
    leadsBack_of_route hpeers hlib hlength hknown (hroute.trans hpath)⟩

/-- **A learned route leads back.** Let a text of `source` be flooded through a chain
of relays to `dest`. It arrives with the relays' bytes as its path, in order, and is
answered with one returned path, which teaches `source` that route. -/
theorem learned_route_leads_back (hlib : lib.Lawful) {source : Node} {dest : Hop}
    {secret : Bytes} (hpeers : Node.Peers lib source dest.node secret) {relays : List Hop}
    (hlength : relays.length ≤ 63) {radio : RadioView} {p : Pending} {c : Contact}
    {forceFlood : Bool} (hkind : p.txtType ∈ [kTxtPlain, kTxtCliData, kTxtSignedPlain])
    (hdest : c.pubkey = dest.node.identity.pub)
    (hsent : sent ∈ attemptPackets lib radio source.air p c forceFlood)
    (hflood : sent.isFlood = true)
    (hrelays : ∀ hop ∈ relays, Repeats lib sent relays.length hop) (hfresh : dest.Fresh lib sent)
    (halone : Node.Undisturbed lib dest.node source.identity.pub sent.payload) :
    ∃ arrived reply, Through lib Appends sent relays arrived ∧
      arrived.path = relays.map Hop.id ∧ dest.handsOn lib arrived = [reply] ∧
      Teaches lib source dest secret relays reply := by
  obtain ⟨hvalid, hrouted⟩ := eq_of_mem_attemptPackets hsent
  obtain ⟨hfrom, hwidth, hempty⟩ := fromAir_text hvalid hflood hrouted
  have htype : sent.type = .txtMsg := by
    rw [hrouted]
    exact routed_type _ _ _
  have htrace : sent.type ≠ .trace := by rw [htype]; decide
  have hpayload : sent.payload = (DirectEnvelope.sealWith lib dest.id (source.identity.pub.headD 0)
      secret p.plaintext).encode := by
    have hshared : c.sharedSecret lib source.air.client.self = secret := by
      rw [Contact.sharedSecret, hdest]
      exact congrArg (·.getD []) hpeers.ours
    rw [hrouted, routed_payload, textPacket, hshared, Contact.id, hdest]
    rfl
  obtain ⟨known, hknown⟩ := Option.isSome_iff_exists.mp hpeers.knownBack
  have hopens : dest.OpensFrom lib source.identity.pub secret known sent.payload :=
    ⟨hpeers.theirs, hknown, halone⟩
  have hsealed : (DirectEnvelope.decode sent.payload).isSome = true := by
    obtain ⟨env, hdecode, -⟩ := hopens.opened hlib (by simp [Pending.plaintext, TextMessage.encode])
      hpayload sent
    rw [hdecode]
    rfl
  have hmsg : Hop.Supported { timestamp := p.timestamp, txtType := p.txtType,
                              attempt := p.attempt, text := p.text } := hkind
  -- The flood reaches the recipient, who answers it.
  obtain ⟨arrived, hthrough, hcopy, harrived, hsize, hpath⟩ := through_flood htype hflood hsealed
    hlength relays sent (.refl sent) hfrom hwidth (by rw [hempty]; simp) hrelays
  rw [hempty, List.nil_append] at hpath
  obtain ⟨ret, hretPath, hretSize, hextra, hbits, hshort, hhands⟩ := Hop.handsOn_text hlib
    (hcopy.payload ▸ hopens) hmsg harrived (hcopy.isFlood.trans hflood) (hcopy.type.trans htype)
    (hcopy.payload.trans hpayload) (hfresh.congr hcopy.type hcopy.payload htrace)
  refine ⟨arrived, _, hthrough, hpath, hhands, ?_⟩
  have hid : known.id = source.identity.id := by
    have hpubkey : known.pubkey = source.identity.pub := by simpa using List.find?_some hknown
    rw [Contact.id, hpubkey]
    rfl
  exact teaches_of_return hlib hpeers hlength hid (hretPath.trans hpath) (hretSize.trans hsize)
    hextra hbits

/-! ## One relay between two friends -/

/-- A node that has just been started and hears its first packet. -/
def newcomer (self : LocalIdentity) (contacts : ContactStore) (relay : Bool) : Hop :=
  { node := Node.new 10 16 8 self contacts 0 { relay } {} {} fun _ => none
    m := { radio := .down } }

def aliceHop : Hop := newcomer Node.aliceKeys { contacts := [{ pubkey := Node.bobKeys.pub }] } false

def bobHop : Hop := newcomer Node.bobKeys { contacts := [{ pubkey := Node.aliceKeys.pub }] } false

def carolHop : Hop :=
  newcomer
    { pub := List.replicate 32 9, priv := List.replicate 32 9, pub_length := by decide } {} true

def helloPending : Pending :=
  { id := 1, destPubkey := Node.bobKeys.pub, text := [104, 105], txtType := kTxtPlain,
    timestamp := 7 }

def helloPacket : Packet :=
  textPacket Library.transparent Node.aliceKeys { pubkey := Node.bobKeys.pub } helloPending.plaintext

theorem undisturbed_newcomer (self : LocalIdentity) (peer payload : Bytes) (relay : Bool) :
    Node.Undisturbed Library.transparent (newcomer self { contacts := [{ pubkey := peer }] } relay).node
      peer payload := by
  intro c hc hother
  exact absurd (congrArg Contact.pubkey (List.mem_singleton.mp hc)) hother

/-- Alice's text reaches Bob through Carol, and his answer teaches her a route that her
next text takes. -/
theorem learned_route_leads_back_carol :
    ∃ arrived reply, Through Library.transparent Appends (routed { pubkey := Node.bobKeys.pub } true
        helloPacket) [carolHop] arrived ∧ arrived.path = [9] ∧
      bobHop.handsOn Library.transparent arrived = [reply] ∧
      ∀ back, Node.Arrives reply back → ∃ stored last,
        (aliceHop.after Library.transparent back).contacts.find Node.bobKeys.pub = some stored ∧
        stored.outPath = [9] ∧
        Through Library.transparent Consumes (routed stored false helloPacket) [carolHop] last ∧
        last.path = [] := by
  have hpeers : Node.Peers Library.transparent aliceHop.node bobHop.node (List.replicate 32 3) :=
    ⟨by decide +kernel, by decide +kernel, by decide +kernel, by decide +kernel⟩
  have hrepeats : ∀ hop ∈ [carolHop], Repeats Library.transparent
      (routed { pubkey := Node.bobKeys.pub } true helloPacket) [carolHop].length hop := by
    intro hop hhop
    obtain rfl := List.mem_singleton.mp hhop
    exact ⟨rfl, by decide, rfl, fun _ _ c hc => absurd hc (by simp [carolHop, newcomer, Node.new,
      Outgoing.new, ContactStore.byId])⟩
  obtain ⟨arrived, reply, hthrough, hpath, hhands, hteaches⟩ := learned_route_leads_back
    Library.transparent_lawful hpeers (by decide : [carolHop].length ≤ 63) (p := helloPending)
    (by decide) rfl
    (by decide +kernel : routed { pubkey := Node.bobKeys.pub } true helloPacket ∈
      attemptPackets Library.transparent .down aliceHop.node.air helloPending
        { pubkey := Node.bobKeys.pub } true)
    rfl hrepeats rfl (undisturbed_newcomer _ _ _ _)
  refine ⟨arrived, reply, hthrough, hpath, hhands, fun back hback => ?_⟩
  obtain ⟨stored, hstored, -, hroute, hleads⟩ := hteaches aliceHop back rfl hpeers hback rfl
    (undisturbed_newcomer _ _ _ _)
  have hforwards : ∀ hop ∈ [carolHop], Forwards Library.transparent
      (routed stored false helloPacket) hop := by
    intro hop hhop
    obtain rfl := List.mem_singleton.mp hhop
    refine ⟨rfl, rfl, fun hack => ?_⟩
    rw [routed_type] at hack
    exact absurd hack (by decide)
  obtain ⟨last, hback', hlast, -⟩ := hleads helloPacket [carolHop] bobHop
    ⟨.inl rfl, rfl, by decide, by decide⟩ rfl rfl hforwards rfl
  exact ⟨stored, last, hstored, hroute, hback', hlast⟩

end Coreletd.Mesh
