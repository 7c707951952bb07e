/-
# Texts of every type

A sender fits any type byte into six bits of the flags, and keeps state for every
type but CLI data; a receiver knows three of the types, and has an ack for two.
What becomes of a text at either end.
-/

import Coreletd.Mesh.AckAgreement
import Coreletd.Mesh.Reception
import Coreletd.Proto.PacketCodec

namespace Coreletd.Mesh

open Coreletd.Crypto
open Coreletd.Library
open Coreletd.Proto
open ReliableSender

/-! ## What a packet tells its addressee -/

/-- To whoever shares `secret`, the packet is an ack of `hash`: a bare one, or one
in a returned path. -/
inductive CarriesAck (lib : Crypto.Library) (secret : Bytes) (out : Packet) (hash : Bytes) : Prop
  | bare (htype : out.type = .ack) (hlong : kAckHashSize ≤ out.payload.length)
      (hhash : subview out.payload 0 kAckHashSize = hash)
  | returned {env : DirectEnvelope} {plaintext : Bytes} {ret : PathReturn} (htype : out.type = .path)
      (henv : DirectEnvelope.decode out.payload = some env)
      (hopen : macAndDecrypt lib secret env.mac env.ciphertext = some plaintext)
      (hret : PathReturn.decode plaintext = some ret)
      (hextra : ret.hasExtra = true ∧ ret.extraType = PayloadType.ack.toByte ∧
        kAckHashSize ≤ ret.extra.length)
      (hhash : subview ret.extra 0 kAckHashSize = hash)

variable {lib : Crypto.Library} {m : Moment}

theorem carriesAck_bare_iff {out : Packet} (htype : out.type = .ack) {secret hash : Bytes}
    (hlong : kAckHashSize ≤ out.payload.length) :
    CarriesAck lib secret out hash ↔ subview out.payload 0 kAckHashSize = hash := by
  refine ⟨fun h => ?_, .bare htype hlong⟩
  cases h with
  | bare _ _ hhash => exact hhash
  | returned hpath => exact absurd (htype.symm.trans hpath) (by decide)

namespace Node

/-- The ack in a returned path is its extra, if that is of the type of an ack. -/
theorem carriesAck_pathPacket_iff (hlib : lib.Lawful) {self : LocalIdentity} {dest : Contact}
    {secret hash : Bytes} (hkey : kAesBlockSize ≤ secret.length) {text : Packet}
    (hfits : text.PathFits) {ret : PathReturn} (hpath : ret.path = text.path)
    (hsize : ret.pathHashSize = text.pathHashSize) (hextra : ret.hasExtra = true)
    (hbits : ret.extraType &&& 0x0F = ret.extraType) (hlong : kAckHashSize ≤ ret.extra.length) :
    CarriesAck lib secret (pathPacket lib self dest secret ret none) hash ↔
      ret.extraType = PayloadType.ack.toByte ∧ subview ret.extra 0 kAckHashSize = hash := by
  obtain ⟨env, plaintext, hdecode, hopens, hread⟩ :=
    PathReturn.opens_seal hlib.ciphers hkey hfits hpath hsize hextra hbits dest.id self.id
  have hfirst : subview (ret.extra ++ padding ret.encode.length) 0 kAckHashSize =
      subview ret.extra 0 kAckHashSize := by
    rw [subview, subview, List.drop_zero, List.drop_zero, List.take_append_of_le_length hlong]
  constructor
  · intro h
    cases h with
    | bare htype => exact absurd htype (by simp [pathPacket])
    | returned htype henv hopen hret hcarried hhash =>
        obtain rfl := Option.some.inj (hdecode.symm.trans henv)
        obtain rfl := Option.some.inj (hopens.symm.trans hopen)
        obtain rfl := Option.some.inj (hread.symm.trans hret)
        exact ⟨hcarried.2.1, hfirst.symm.trans hhash⟩
  · rintro ⟨htype, hhash⟩
    refine .returned rfl hdecode hopens hread ⟨hextra, htype, ?_⟩ (hfirst.trans hhash)
    rw [List.length_append]
    exact Nat.le_add_right_of_le hlong

/-! ## What the receiver makes of it -/

/-- The type of the text a node reads in a packet. -/
def textTypeRead (lib : Crypto.Library) (n : Node) (p : Packet) : Option UInt8 :=
  match DirectEnvelope.decode p.payload with
  | none => none
  | some env =>
      match n.decryptFrom lib env.srcHash env.mac env.ciphertext with
      | none => none
      | some (_, plaintext) => (TextMessage.decode plaintext).map (·.txtType)

/-- The node answers the packet with an ack of `hash`. -/
def Acks (lib : Crypto.Library) (m : Moment) (n : Node) (secret : Bytes) (p : Packet)
    (hash : Bytes) : Prop :=
  ∃ out ∈ n.queuedBy lib m p, CarriesAck lib secret out hash

/-- The reply to a text: a returned path for a flood, else the ack if there is one. -/
def textReply (lib : Crypto.Library) (m : Moment) (self : LocalIdentity) (sender : Contact)
    (text : Packet) (ack : Bytes) : Option Packet :=
  if text.isFlood then
    some (pathPacket lib self sender (sender.sharedSecret lib self)
      (pathReturn m text (if ack = [] then 0 else PayloadType.ack.toByte) ack) none)
  else if ack ≠ [] then some (routed sender false { type := .ack, payload := ack })
  else none

theorem takenOn_replyTo {n : Node} {sender : Contact} {text : Packet} {ack : Bytes}
    (hshared : sender.sharedSecret lib n.identity ≠ []) :
    (Dispatcher.takenOnSince n.air (n.replyTo lib m text sender ack).air).map (·.packet) =
      (textReply lib m n.identity sender text ack).toList.filter (·.valid) := by
  have hsent : ∀ out, (Dispatcher.takenOnSince n.air (Dispatcher.send onTxResult lib m.radio n.air
      out kPriorityAck 0 none).2).map (·.packet) = [out].filter (·.valid) := by
    intro out
    rw [Dispatcher.takenOnSince_of_append (Dispatcher.takenOn_send lib out kPriorityAck 0 none)]
    cases hvalid : out.valid with
    | true => simp [hvalid, Dispatcher.entry]
    | false => simp [hvalid]
  rw [replyTo, textReply]
  split
  · rw [sendPathReturn, if_neg hshared]
    exact hsent _
  · split
    · exact hsent _
    · have hsame : Dispatcher.takenOnSince n.air n.air = [] :=
        Dispatcher.takenOnSince_of_append rfl
      rw [hsame]
      rfl

/-- A text that a peer sealed is read as of the type in its flags, and answered
if that is known. -/
theorem queuedBy_text (hlib : lib.Lawful) {n : Node} {peer secret : Bytes} {c : Contact}
    {msg : TextMessage} {text : Packet}
    (hsecret : lib.sharedSecret n.identity.priv peer = some secret)
    (hfind : n.contacts.find peer = some c) (htype : text.type = .txtMsg)
    (hroute : text.isFlood = true ∨ text.path = [])
    (hpayload : text.payload = (DirectEnvelope.sealWith lib n.identity.id (peer.headD 0) secret
      msg.encode).encode)
    (halone : Undisturbed lib n peer text.payload) :
    n.textTypeRead lib text = some (msg.txtType &&& 0x3F) ∧
    ∃ msg' : TextMessage, msg'.txtType = msg.txtType &&& 0x3F ∧
      n.queuedBy lib m text =
        if KnownText (msg.txtType &&& 0x3F) then
          (textReply lib m n.identity c text (ackOf lib m n.identity c
            (msg.encode ++ padding msg.encode.length) msg')).toList.filter (·.valid)
        else [] := by
  have hopened : OpenedTo lib n text c (msg.encode ++ padding msg.encode.length) :=
    openedTo_sealed hlib hsecret hfind msg.encode_ne_nil hpayload halone
  obtain ⟨msg', hmsg', hkind⟩ := msg.decode_append (padding msg.encode.length)
  rw [flagsByte_type] at hkind
  have hshared : c.sharedSecret lib n.identity ≠ [] := by
    rw [sharedSecret_of_find hsecret hfind]
    exact secret_ne_nil hlib hsecret
  have hlocal : n.onPacket lib m text =
      if KnownText msg'.txtType then
        n.acceptText lib m text c (msg.encode ++ padding msg.encode.length) msg'
      else n :=
    onPacket_openedText htype (hroute.imp_right Packet.hopCount_of_path_nil) hopened hmsg'
  refine ⟨?_, msg', hkind, ?_⟩
  · obtain ⟨env, hdecode, -, hfound⟩ := hopened
    rw [textTypeRead, hdecode]
    dsimp only
    rw [hfound]
    dsimp only
    rw [hmsg', Option.map_some, hkind]
  · rw [queuedBy, hlocal, hkind]
    split
    · have hair : (n.accepted lib m text c msg').air = n.air := air_accepted n text c msg'
      have hidentity : (n.accepted lib m text c msg').identity = n.identity := by
        rw [identity, hair]
        rfl
      have hshared' : c.sharedSecret lib (n.accepted lib m text c msg').identity ≠ [] := by
        rw [hidentity]
        exact hshared
      rw [acceptText_eq, ← hair, takenOn_replyTo hshared', hidentity]
    · have hsame : Dispatcher.takenOnSince n.air n.air = [] :=
        Dispatcher.takenOnSince_of_append rfl
      rw [hsame]
      rfl

end Node

namespace Node

/-! ## The acks of a reply -/

theorem textReply_of_ack {self : LocalIdentity} {sender : Contact} {text : Packet} {ack : Bytes}
    (hack : ack ≠ []) : textReply lib m self sender text ack =
      some (ackReply lib m self sender text ack) := by
  rw [textReply, ackReply, if_neg hack, if_pos hack]
  split <;> rfl

/-- The receiver has a way to answer a direct text: a route of at most 63 hops, or
none at all. -/
def CanAck (sender : Contact) (text : Packet) : Prop :=
  text.isFlood = true ∨ (sender.pathKnown = true → sender.outPath.length ≤ 63)

/-- A reply with an ack is fit to send just when there is a way to send it. -/
theorem ackReply_valid_iff (hlib : lib.Lawful) {self : LocalIdentity} {sender : Contact}
    {text : Packet} {ack : Bytes} (hfits : text.PathFits) (hack : ack.length = 6) :
    (ackReply lib m self sender text ack).valid = true ↔ CanAck sender text := by
  by_cases hflood : text.isFlood = true
  · exact ⟨fun _ => .inl hflood, fun _ => ackReply_valid hlib hfits hack (.inl hflood)⟩
  · have hway : CanAck sender text ↔ (sender.pathKnown = true → sender.outPath.length ≤ 63) :=
      ⟨fun h => h.resolve_left hflood, .inr⟩
    rw [hway, ackReply, if_neg hflood, routed]
    by_cases hknown : sender.pathKnown = true
    · rw [if_pos (by rw [hknown]; rfl)]
      refine ⟨fun hvalid _ => ?_, fun hshort =>
        valid_of_short rfl rfl (hshort hknown) (by simp [hack])⟩
      have hhops := (Packet.pathFits_of_valid hvalid).1.hops
      simpa using hhops
    · rw [if_neg (by simp [hknown])]
      exact ⟨fun _ h => absurd h hknown, fun _ => valid_of_short rfl rfl (by simp) (by simp [hack])⟩

/-- It carries the ack it was made for, and no other. -/
theorem carriesAck_ackReply_iff (hlib : lib.Lawful) {self : LocalIdentity} {sender : Contact}
    {text : Packet} {secret hash : Bytes} (hsecret : sender.sharedSecret lib self = secret)
    (hkey : kAesBlockSize ≤ secret.length) (hfits : text.PathFits)
    (hlength : hash.length = kAckHashSize) (extendedAttempt random : UInt8) (other : Bytes) :
    CarriesAck lib secret (ackReply lib m self sender text
        (ackPayload hash extendedAttempt random)) other ↔ hash = other := by
  have hack : ackPayload hash extendedAttempt random ≠ [] := by simp [ackPayload]
  have hfirst : subview (ackPayload hash extendedAttempt random) 0 kAckHashSize = hash := by
    rw [ackPayload, subview_whole hlength, subview, List.drop_zero, ← hlength, List.take_left]
  have hlong : kAckHashSize ≤ (ackPayload hash extendedAttempt random).length := by
    rw [ackPayload, subview_whole hlength, List.length_append, hlength]
    exact Nat.le_add_right _ _
  rw [ackReply]
  split
  · have hret := pathReturn_of_ne_nil m text PayloadType.ack.toByte hack
    have hbits : PayloadType.ack.toByte &&& 0x0F = PayloadType.ack.toByte := by decide
    rw [hsecret, hret, carriesAck_pathPacket_iff hlib hkey hfits rfl rfl rfl hbits hlong,
      PathReturn.extra_ofPacket, hfirst]
    exact ⟨fun h => h.2, fun h => ⟨rfl, h⟩⟩
  · rw [carriesAck_bare_iff (routed_type _ _ _) (by rw [routed_payload]; exact hlong),
      routed_payload, hfirst]

/-- A path returned without an ack carries none. -/
theorem not_carriesAck_textReply (hlib : lib.Lawful) {self : LocalIdentity} {sender : Contact}
    {text out : Packet} {secret : Bytes} (hsecret : sender.sharedSecret lib self = secret)
    (hkey : kAesBlockSize ≤ secret.length) (hfits : text.PathFits)
    (hout : textReply lib m self sender text [] = some out) (hash : Bytes) :
    ¬ CarriesAck lib secret out hash := by
  rw [textReply] at hout
  split at hout
  · obtain rfl := Option.some.inj hout
    have hbits : (0x0F : UInt8) &&& 0x0F = 0x0F := by decide
    have hlong : kAckHashSize ≤ (putU32 m.filler).length := by simp [putU32, kAckHashSize]
    rw [hsecret, carriesAck_pathPacket_iff hlib hkey hfits rfl rfl rfl hbits hlong]
    rintro ⟨htype, -⟩
    exact absurd htype (by decide : ¬ (0x0F : UInt8) = PayloadType.ack.toByte)
  · rw [if_neg (fun h => h rfl)] at hout
    exact absurd hout (by simp)

end Node

/-! ## What the sender keeps -/

/-- The operation that waits for this text to be acked, if there is one. -/
def ReliableSender.waitingFor (s : ReliableSender) (dest : Bytes) (text : Bytes) (txtType : UInt8)
    (timestamp : UInt32) : Option Pending :=
  s.pending.find? fun p =>
    p.destPubkey = dest ∧ p.timestamp = timestamp ∧ p.txtType = txtType ∧ p.text = text

namespace Air

variable {d d' : Air} {limit : Nat} {radio : RadioView} {dest : Contact} {text ack : Bytes}
  {txtType : UInt8} {timestamp : UInt32}

/-- A text that was sent and is not CLI data waits for its ack. -/
theorem waits_of_sent (hd : Recorded lib limit d)
    (hsent : send lib radio d dest text txtType timestamp = (.ok ack, d'))
    (htype : txtType ≠ kTxtCliData) :
    (d'.client.waitingFor dest.pubkey text txtType timestamp).isSome = true := by
  unfold ReliableSender.waitingFor
  rw [List.find?_isSome]
  rw [send, if_neg htype] at hsent
  split at hsent
  · next duplicate hfind =>
    obtain rfl := (Prod.mk.inj hsent).2
    exact ⟨duplicate, List.mem_of_find?_eq_some hfind, by simpa using List.find?_some hfind⟩
  · split at hsent
    · exact absurd (Prod.mk.inj hsent).1 (by simp)
    · next hroom =>
      rcases sendFresh_cases hd.laddered.sound dest text txtType timestamp
        (Nat.lt_of_not_le hroom) with ⟨err, d'', heq, -⟩ | ⟨p, packet, hasked, hfresh, -, -, heq⟩
      · rw [heq] at hsent
        exact absurd (Prod.mk.inj hsent).1 (by simp)
      · rw [heq] at hsent
        obtain rfl := (Prod.mk.inj hsent).2
        have hhanding := hd.laddered.registered hfresh
        have hframed := framed_send lib radio hhanding.accounted hhanding.sound.distinct packet
          kPriorityDirect 0 (some p.id)
        obtain ⟨timer, hretimed⟩ := hframed.retimed
        -- Only the timer of the new entry can have been set since.
        refine ⟨{ p.accept (p.onAirHash lib d.client.self) with
          timer := timer (p.accept (p.onAirHash lib d.client.self)) }, ?_,
          by simp [← hasked, fresh, Pending.accept]⟩
        show _ ∈ (Dispatcher.send onTxResult lib radio { d with client := d.client.registered lib p }
          packet kPriorityDirect 0 (some p.id)).2.client.pending
        rw [hretimed]
        exact List.mem_map_of_mem hhanding.member

/-- What the end of a send took on is its packet. -/
theorem packet_of_taken {noted : ReliableSender} {packet : Packet} {onResult : Option Nat}
    {id : Nat} {hash : Bytes} {q : Queued Nat}
    (hq : q ∈ Dispatcher.takenOnSince d (answer id hash (Dispatcher.send onTxResult lib radio
      { d with client := noted } packet kPriorityDirect 0 onResult).2)) :
    q.packet = packet := by
  have htaken : (answer id hash (Dispatcher.send onTxResult lib radio { d with client := noted }
      packet kPriorityDirect 0 onResult).2).takenOn =
        (if packet.valid then [Dispatcher.entry { d with client := noted } packet kPriorityDirect 0
          onResult] else []) ++ d.takenOn :=
    Dispatcher.takenOn_send lib packet kPriorityDirect 0 onResult
  rw [Dispatcher.takenOnSince_of_append htaken] at hq
  split at hq
  · rw [List.mem_singleton.mp hq]
    rfl
  · exact absurd hq List.not_mem_nil

/-- Whatever was taken on for CLI data carries its one attempt. -/
theorem carries_of_cli (hd : Recorded lib limit d)
    (hsent : send lib radio d dest text kTxtCliData timestamp = (.ok ack, d')) {q : Queued Nat}
    (hq : q ∈ Dispatcher.takenOnSince d d') :
    d'.client.self = d.client.self ∧
      Carries lib d.client.self (fresh d.client false dest text kTxtCliData timestamp) q.packet := by
  rw [send, if_pos rfl] at hsent
  rcases sendFresh_cli_cases hd.laddered.sound dest text kTxtCliData timestamp with
    ⟨err, d'', heq, -⟩ | ⟨packet, hash, hvalid, hcarries, heq⟩
  · rw [heq] at hsent
    exact absurd (Prod.mk.inj hsent).1 (by simp)
  · rw [heq] at hsent
    obtain rfl := (Prod.mk.inj hsent).2
    have hframed := framed_send lib radio (accounted_client hd.laddered.accounted _ d.stats)
      hd.laddered.sound.noteCli.distinct packet kPriorityDirect 0 none
    obtain ⟨timer, hretimed⟩ := hframed.retimed
    refine ⟨congrArg (·.self) hretimed, ?_⟩
    rw [packet_of_taken hq]
    exact hcarries

/-! ## No state for CLI data -/

/-- No operation of CLI data waits. -/
def NoCli (s : ReliableSender) : Prop := ∀ p ∈ s.pending, p.txtType ≠ kTxtCliData

theorem NoCli.continues {s s' : ReliableSender} (hs : NoCli s) (hcontinues : Continues s s') :
    NoCli s' := by
  intro p' hp'
  obtain ⟨p, hp, hgrown⟩ := hcontinues.entries p' hp'
  rw [hgrown.txtType]
  exact hs p hp

theorem NoCli.refused (hd : NoCli d.client) (hrefused : Refused lib d d') : NoCli d'.client := by
  intro p hp
  rw [hrefused.pending] at hp
  exact hd p hp

theorem NoCli.send (hd : NoCli d.client) (hrecorded : Recorded lib limit d) (dest : Contact)
    (text : Bytes) (txtType : UInt8) (timestamp : UInt32) :
    NoCli (send lib radio d dest text txtType timestamp).2.client := by
  have hsound := hrecorded.laddered.sound
  rw [Air.send]
  split
  · rcases sendFresh_cli_cases hsound dest text txtType timestamp with
      ⟨err, d', heq, hrefused⟩ | ⟨packet, hash, -, -, heq⟩
    · rw [heq]
      exact hd.refused hrefused
    · rw [heq]
      have hframed := framed_send lib radio (accounted_client hrecorded.laddered.accounted _ d.stats)
        hsound.noteCli.distinct packet kPriorityDirect 0 none
      have hnoted : NoCli { d.client with
          attempts := d.client.attempts ++ [{ id := 0, attempt := 0, forceFlood := false }] } := hd
      have hsent := hnoted.continues (.of_retimed hframed.retimed)
      exact hsent
  · next htype =>
    split
    · exact hd
    · split
      · exact hd
      · next hroom =>
        rcases sendFresh_cases hsound dest text txtType timestamp (Nat.lt_of_not_le hroom) with
          ⟨err, d', heq, hrefused⟩ | ⟨p, packet, hasked, hfresh, -, -, heq⟩
        · rw [heq]
          exact hd.refused hrefused
        · rw [heq]
          have hhanding := hrecorded.laddered.registered hfresh
          have hframed := framed_send lib radio hhanding.accounted hhanding.sound.distinct packet
            kPriorityDirect 0 (some p.id)
          have hregistered : NoCli (d.client.registered lib p) := by
            intro q hq
            rcases List.mem_append.mp hq with hold | hnew
            · exact hd q hold
            · rw [List.mem_singleton.mp hnew]
              show p.txtType ≠ kTxtCliData
              rw [← hasked]
              exact htype
          have hsent := hregistered.continues (.of_retimed hframed.retimed)
          exact hsent

theorem NoCli.step {o : Outgoing} (ho : NoCli o.air.client) (hrecorded : Recorded lib limit o.air)
    (event : Outgoing.Event) : NoCli (o.step lib event).air.client := by
  have hladdered := hrecorded.laddered
  cases event with
  | send dest text txtType timestamp radio => exact ho.send hrecorded dest text txtType timestamp
  | timer id radio =>
      exact ho.continues
        (Continues.retrying hladdered (retrying_onTimer hladdered.sound o.contacts id)).1
  | complete ackHash => exact ho.continues (.complete _ ackHash)
  | contacts store => exact ho
  | other event =>
      exact ho.continues (.of_retimed
        (framed_step hladdered.accounted hladdered.sound.distinct (Outgoing.unanswered event)).retimed)

end Air

namespace Node

theorem Reachable.noCli {n : Node} (hn : n.Reachable lib) : Air.NoCli n.air.client := by
  obtain ⟨percent, queueLimit, pendingLimit, self, contacts, time, cfg, channels, inbox, files,
    events, rfl⟩ := hn
  have hboth : ∀ (o : Outgoing) (event : Outgoing.Event),
      Air.Recorded lib pendingLimit o.air ∧ Air.NoCli o.air.client →
      Air.Recorded lib pendingLimit (o.step lib event).air ∧
        Air.NoCli (o.step lib event).air.client :=
    fun o event ho => ⟨Air.recorded_step o event ho.1, ho.2.step ho.1 event⟩
  have hstep : ∀ (n : Node) (event : Event),
      Air.Recorded lib pendingLimit n.air ∧ Air.NoCli n.air.client →
      Air.Recorded lib pendingLimit (n.step lib event).air ∧
        Air.NoCli (n.step lib event).air.client := by
    intro n event hn
    obtain ⟨events, hfollows⟩ : Follows lib n.toOutgoing (n.step lib event).toOutgoing :=
      follows_step n event
    have hstart : Air.Recorded lib pendingLimit n.toOutgoing.air ∧
        Air.NoCli n.toOutgoing.air.client := hn
    have hend := run_invariant hboth hstart events
    rw [← hfollows] at hend
    exact hend
  refine (run_invariant hstep ⟨?_, ?_⟩ events).2
  · exact Air.recorded_run percent queueLimit pendingLimit self contacts time []
  · intro p hp
    exact absurd hp List.not_mem_nil

end Node

end Coreletd.Mesh
