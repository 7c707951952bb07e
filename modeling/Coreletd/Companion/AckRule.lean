/-
# The ack rule for every text type

The app names the type of a text with a byte. The sender keeps state for every
type but one, and the receiver has acks for two: whether they agree depends on
the type, and for a signed text on whether it holds the key prefix its type
calls for.
-/

import Coreletd.Companion.RoundTrip
import Coreletd.Mesh.TextKinds

namespace Coreletd.Companion

open Coreletd.Crypto
open Coreletd.Library
open Coreletd.Mesh
open Coreletd.Proto

variable {lib : Crypto.Library}

/-! ## The attempts of a request -/

namespace TextRequest

/-- What one attempt says. -/
def message (request : TextRequest) (attempt : UInt8) : TextMessage :=
  { timestamp := request.timestamp, txtType := request.txtType, attempt, text := request.text }

/-- The key in the hashes a sender accepts. -/
def ackKey (request : TextRequest) (self : LocalIdentity) (dest : Bytes) : Bytes :=
  if request.txtType = kTxtSignedPlain then dest else self.pub

/-- The operation a sender keeps for the request. -/
def kept (request : TextRequest) (n : Node) (dest : Bytes) : Option Pending :=
  n.air.client.waitingFor dest request.text request.txtType request.timestamp

/-- The hashes over padded attempts of the request are none of those over the
attempts as they were sealed. -/
def HashesApart (lib : Crypto.Library) (request : TextRequest) (key : Bytes) : Prop :=
  ∀ j k : UInt8,
    messageAckHash lib ((request.message j).encode ++
      padding (request.message j).encode.length) key ≠
    messageAckHash lib (request.message k).encode key

end TextRequest

/-- A packet sent for a request that `n` was asked at, with what the sender keeps
for it: one of the attempts of a waiting operation, in any later state, or the
only packet of one that is not kept. -/
inductive Attempted (lib : Crypto.Library) (request : TextRequest) (dest : Bytes) (n asked : Node) :
    Option Pending → Node → Packet → Prop
  | kept (later : List Node.Event) {p : Pending} {sent : Queued Nat}
      (hkept : request.kept (run (Node.step lib) asked later) dest = some p)
      (hsent : .queued sent ∈ (run (Node.step lib) asked later).air.trace)
      (hown : sent.onResult = some p.id) :
      Attempted lib request dest n asked (some p) (run (Node.step lib) asked later) sent.packet
  | once {sent : Queued Nat} (hkept : request.kept asked dest = none)
      (hsent : sent ∈ Dispatcher.takenOnSince n.air asked.air) :
      Attempted lib request dest n asked none asked sent.packet

/-- Sender and receiver agree on a packet of a text: on its type, and on whether
and how it is acked. -/
structure AckRule (lib : Crypto.Library) (m : Moment) (txtType : UInt8) (kept : Option Pending)
    (b : Node) (secret : Bytes) (arrived : Packet) : Prop where
  type : b.textTypeRead lib arrived = some txtType
  acked : ∀ p, kept = some p → ∃ hash ∈ p.acceptedAckHashes, b.Acks lib m secret arrived hash
  unacked : kept = none → ∀ hash, ¬ b.Acks lib m secret arrived hash

/-- What is known of a packet sent for a request. -/
structure Sealed (lib : Crypto.Library) (request : TextRequest) (dest secret : Bytes) (a : Node)
    (kept : Option Pending) (packet : Packet) (attempt : UInt8) : Prop where
  type : packet.type = .txtMsg
  payload : packet.payload = (DirectEnvelope.sealWith lib (dest.headD 0) a.identity.id secret
    (request.message attempt).encode).encode
  accepted : ∀ p, kept = some p → request.txtType ≠ kTxtCliData ∧
    messageAckHash lib (request.message attempt).encode (request.ackKey a.identity dest) ∈
      p.acceptedAckHashes ∧
    ∀ hash ∈ p.acceptedAckHashes, ∃ k,
      hash = messageAckHash lib (request.message k).encode (request.ackKey a.identity dest)
  once : kept = none → request.txtType = kTxtCliData

/-- The command was answered, so the node has sent the text. -/
theorem sent_of_answered {s : TextSession} {radio : RadioView} {args : Bytes}
    {request : TextRequest} {target : Contact} (hdecode : TextRequest.decode args = some request)
    (hto : addressed s.node.contacts request.keyPrefix = some target)
    (hanswer : (s.cmdSendTxtMsg lib radio args).1.head? = some kRespSent) :
    ∃ ack air, s.node.air.send lib radio target request.text request.txtType request.timestamp =
        (.ok ack, air) ∧ (s.cmdSendTxtMsg lib radio args).2.node = { s.node with air } := by
  rw [TextSession.cmdSendTxtMsg, hdecode] at hanswer ⊢
  dsimp only at hanswer ⊢
  rw [hto] at hanswer ⊢
  dsimp only at hanswer ⊢
  generalize s.node.air.send lib radio target request.text request.txtType request.timestamp =
    result at hanswer ⊢
  obtain ⟨err | ack, air⟩ := result
  · exact absurd hanswer (by decide : ¬ some kRespErr = some kRespSent)
  · exact ⟨ack, air, rfl, rfl⟩

theorem reachable_run {n : Node} (hn : n.Reachable lib) (later : List Node.Event) :
    (run (Node.step lib) n later).Reachable lib := by
  obtain ⟨percent, queueLimit, pendingLimit, self, contacts, time, cfg, channels, inbox, files,
    events, rfl⟩ := hn
  exact ⟨percent, queueLimit, pendingLimit, self, contacts, time, cfg, channels, inbox, files,
    events ++ later, (run_append _ _ _ _).symm⟩

/-- An attempt that a waiting operation handed over seals what the request says. -/
theorem sealed_of_kept {request : TextRequest} {dest secret : Bytes} {a : Node}
    (ha : a.Reachable lib) {p : Pending} (hkept : request.kept a dest = some p) {sent : Queued Nat}
    (hrecord : .queued sent ∈ a.air.trace) (hown : sent.onResult = some p.id)
    (hours : lib.sharedSecret a.identity.priv dest = some secret) :
    ∃ attempt, Sealed lib request dest secret a (some p) sent.packet attempt := by
  obtain ⟨limit, hrecorded⟩ := ha.recorded
  have hp : p ∈ a.air.client.pending := List.mem_of_find?_eq_some hkept
  have hfields := List.find?_some hkept
  simp only [decide_eq_true_eq] at hfields
  obtain ⟨hdest, htime, htype, htext⟩ := hfields
  obtain ⟨attempt, hmade, hcarries⟩ := (hrecorded.carried sent hrecord p.id hown).2 p hp rfl
  have hshared : lib.sharedSecret a.air.client.self.priv p.destPubkey = some secret := by
    rw [hdest]
    exact hours
  have hhash : ∀ k, ReliableSender.hashAt lib a.air.client.self p k =
      messageAckHash lib (request.message k).encode (request.ackKey a.identity dest) := by
    intro k
    rw [ReliableSender.hashAt, Pending.onAirHash, Pending.plaintext, TextRequest.ackKey,
      TextRequest.message, hdest, htime, htype, htext]
    rfl
  refine ⟨attempt, hcarries.type, ?_, fun q hq => ?_, fun hnone => absurd hnone (by simp)⟩
  · rw [hcarries.payload, Pending.payload, hshared, hdest, Pending.plaintext, htime, htype, htext]
    rfl
  · obtain rfl := Option.some.inj hq
    have haccepted := (hrecorded.laddered.sound.entries p hp).accepted
    refine ⟨htype ▸ ha.noCli p hp, ?_, fun hash hhash' => ?_⟩
    · rw [haccepted, ← hhash]
      exact List.mem_map_of_mem hmade
    · rw [haccepted] at hhash'
      obtain ⟨k, -, rfl⟩ := List.mem_map.mp hhash'
      exact ⟨k, hhash k⟩

/-- Only CLI data is sent without an operation to wait for its ack, as attempt 0. -/
theorem sealed_of_once {request : TextRequest} {target : Contact} {n : Node}
    (hn : n.Reachable lib) {radio : RadioView} {ack : Bytes} {air : Air}
    (hsent : n.air.send lib radio target request.text request.txtType request.timestamp =
      (.ok ack, air))
    (hkept : request.kept { n with air } target.pubkey = none) {sent : Queued Nat}
    (htaken : sent ∈ Dispatcher.takenOnSince n.air air) {secret : Bytes}
    (hours : lib.sharedSecret air.client.self.priv target.pubkey = some secret) :
    ∃ attempt, Sealed lib request target.pubkey secret { n with air } none sent.packet
      attempt := by
  obtain ⟨limit, hrecorded⟩ := hn.recorded
  have hcli : request.txtType = kTxtCliData := by
    by_contra htype
    have hwaits := Air.waits_of_sent hrecorded hsent htype
    exact absurd hwaits (by rw [show air.client.waitingFor target.pubkey request.text
      request.txtType request.timestamp = none from hkept]; simp)
  rw [hcli] at hsent
  obtain ⟨hself, hcarries⟩ := Air.carries_of_cli hrecorded hsent htaken
  have hshared : lib.sharedSecret n.air.client.self.priv target.pubkey = some secret := by
    rw [← hself]
    exact hours
  refine ⟨0, hcarries.type, ?_, fun p hp => absurd hp (by simp), fun _ => hcli⟩
  rw [hcarries.payload, Pending.payload, Air.fresh, Node.identity, hself, Pending.plaintext,
    TextRequest.message, hcli]
  dsimp only
  rw [hshared]
  rfl

theorem exists_sealed {s : TextSession} (hs : s.node.Reachable lib) {radio : RadioView}
    {args : Bytes} {request : TextRequest} {target : Contact}
    (hdecode : TextRequest.decode args = some request)
    (hto : addressed s.node.contacts request.keyPrefix = some target)
    (hanswer : (s.cmdSendTxtMsg lib radio args).1.head? = some kRespSent)
    {kept : Option Pending} {a : Node} {packet : Packet}
    (hattempted : Attempted lib request target.pubkey s.node
      (s.cmdSendTxtMsg lib radio args).2.node kept a packet) {secret : Bytes}
    (hours : lib.sharedSecret a.identity.priv target.pubkey = some secret) :
    ∃ attempt, Sealed lib request target.pubkey secret a kept packet attempt := by
  obtain ⟨ack, air, hsent, hasked⟩ := sent_of_answered hdecode hto hanswer
  have hreachable : (s.cmdSendTxtMsg lib radio args).2.node.Reachable lib := by
    have hstep := reachable_run hs
      [.sendText target request.text request.txtType request.timestamp radio]
    rw [run_cons, run_nil, Node.step, hsent] at hstep
    rw [hasked]
    exact hstep
  cases hattempted with
  | kept later hkept hrecord hown =>
      exact sealed_of_kept (reachable_run hreachable later) hkept hrecord hown hours
  | once hkept htaken =>
      rw [hasked] at hkept htaken hours ⊢
      exact sealed_of_once hs hsent hkept htaken hours

/-! ## Agreement -/

/-- Padding leaves the hash of a plain text as it is, and of a signed one that has
its key prefix. -/
theorem messageAckHash_padded {request : TextRequest} (attempt : UInt8)
    (hregion : request.txtType = kTxtPlain ∨
      request.txtType = kTxtSignedPlain ∧ 4 ≤ request.text.length) (key : Bytes) :
    messageAckHash lib ((request.message attempt).encode ++
        padding (request.message attempt).encode.length) key =
      messageAckHash lib (request.message attempt).encode key := by
  have hstart := (request.message attempt).textStart_encode
  have htype : (request.message attempt).txtType = request.txtType := rfl
  have hlength : (request.message attempt).encode.length =
      kTextHeaderSize + request.text.length := TextMessage.length_encode _
  rw [messageAckHash, messageAckHash, padding, ackHashedRegion_append_zeros]
  rw [hstart, htype, hlength]
  rcases hregion with hplain | ⟨hsigned, hfront⟩
  · rw [hplain, if_neg (by decide)]
    exact Nat.le_add_right _ _
  · rw [hsigned, if_pos (by decide)]
    exact Nat.add_le_add_left hfront _

/-- What a receiver that opens a packet of a request reads, and which acks it sends. -/
structure Received (lib : Crypto.Library) (m : Moment) (request : TextRequest) (key : Bytes)
    (b : Node) (c : Contact) (secret : Bytes) (attempt : UInt8) (arrived : Packet) : Prop where
  type : b.textTypeRead lib arrived = some (request.txtType &&& 0x3F)
  acks : request.txtType = kTxtPlain ∨ request.txtType = kTxtSignedPlain → ∀ hash,
    (b.Acks lib m secret arrived hash ↔ Node.CanAck c arrived ∧
      messageAckHash lib ((request.message attempt).encode ++
        padding (request.message attempt).encode.length) key = hash)
  unknown : ¬ Node.KnownText (request.txtType &&& 0x3F) →
    ∀ hash, ¬ b.Acks lib m secret arrived hash
  cli : request.txtType = kTxtCliData → ∀ hash, ¬ b.Acks lib m secret arrived hash

theorem type_masked {request : TextRequest}
    (hkind : request.txtType = kTxtPlain ∨ request.txtType = kTxtSignedPlain) :
    request.txtType &&& 0x3F = request.txtType := by
  rcases hkind with hkind | hkind <;> rw [hkind] <;> decide

/-- A plain or signed text is acked under the hash of its padded plaintext, CLI data
and a text of an unknown type under none. -/
theorem received_of_sealed (hlib : lib.Lawful) {request : TextRequest} {self : LocalIdentity}
    {attempt : UInt8} {b : Node} {secret : Bytes}
    (htheirs : lib.sharedSecret b.identity.priv self.pub = some secret) {c : Contact}
    (hback : b.contacts.find self.pub = some c) {arrived : Packet} (hfits : arrived.PathFits)
    (htype : arrived.type = .txtMsg) (hhere : arrived.isFlood = true ∨ arrived.path = [])
    (hpayload : arrived.payload = (DirectEnvelope.sealWith lib b.identity.id (self.pub.headD 0)
      secret (request.message attempt).encode).encode)
    (halone : Node.Undisturbed lib b self.pub arrived.payload) (m : Moment) :
    Received lib m request (request.ackKey self b.identity.pub) b c secret attempt arrived := by
  have hkey : kAesBlockSize ≤ secret.length := by
    rw [hlib.secret_length _ _ _ htheirs]
    decide
  have hpeer : c.pubkey = self.pub := by simpa using List.find?_some hback
  have hshared : c.sharedSecret lib b.identity = secret := by
    rw [Contact.sharedSecret, hpeer, htheirs, Option.getD_some]
  obtain ⟨hread, msg', htype', hreply⟩ := Node.queuedBy_text (m := m) hlib htheirs hback
    htype hhere hpayload halone
  rw [show (request.message attempt).txtType = request.txtType from rfl] at hread htype' hreply
  have hlength : (messageAckHash lib ((request.message attempt).encode ++
      padding (request.message attempt).encode.length)
      (request.ackKey self b.identity.pub)).length = kAckHashSize := length_ackHash hlib _
  refine ⟨hread, fun hkind hash => ?_, fun hunknown hash hacks => ?_, fun hcli hash hacks => ?_⟩
  · have hsame := type_masked hkind
    have hknown : Node.KnownText (request.txtType &&& 0x3F) := by
      rw [hsame]
      exact hkind.imp_right .inr
    have hcli : msg'.txtType ≠ kTxtCliData := by
      rw [htype', hsame]
      rcases hkind with hkind | hkind <;> rw [hkind] <;> decide
    have hkey' : (if msg'.txtType = kTxtSignedPlain then b.identity.pub else c.pubkey) =
        request.ackKey self b.identity.pub := by
      rw [htype', hsame, hpeer]
      rfl
    rw [if_pos hknown, Node.ackOf, if_neg hcli, hkey',
      Node.textReply_of_ack (by simp [ackPayload])] at hreply
    rw [Node.Acks, hreply]
    have hsix : (ackPayload (messageAckHash lib ((request.message attempt).encode ++
        padding (request.message attempt).encode.length)
          (request.ackKey self b.identity.pub)) (ackExtendedAttempt
            ((request.message attempt).encode ++ padding (request.message attempt).encode.length))
          m.ackByte).length = 6 := by
      simp [ackPayload, subview, hlength, kAckHashSize]
    have hcarries := Node.carriesAck_ackReply_iff (m := m) hlib hshared hkey hfits hlength
      (ackExtendedAttempt ((request.message attempt).encode ++
        padding (request.message attempt).encode.length)) m.ackByte hash
    rw [← @Node.ackReply_valid_iff lib m hlib b.identity _ _ _ hfits hsix, ← hcarries]
    simp only [Option.toList_some, List.mem_filter, List.mem_singleton]
    constructor
    · rintro ⟨out, ⟨rfl, hfit⟩, hcarried⟩
      exact ⟨hfit, hcarried⟩
    · rintro ⟨hfit, hcarried⟩
      exact ⟨_, ⟨rfl, hfit⟩, hcarried⟩
  · rw [Node.Acks, hreply, if_neg hunknown] at hacks
    obtain ⟨out, hout, -⟩ := hacks
    exact absurd hout List.not_mem_nil
  · rw [hcli] at hreply htype'
    rw [Node.Acks, hreply, if_pos (by decide)] at hacks
    obtain ⟨out, hout, hcarries⟩ := hacks
    have hnone : Node.ackOf lib m b.identity c ((request.message attempt).encode ++
        padding (request.message attempt).encode.length) msg' = [] := by
      rw [Node.ackOf, if_pos (htype'.trans (by decide))]
    rw [hnone] at hout
    have hreplied := Option.mem_toList.mp (List.mem_filter.mp hout).1
    exact Node.not_carriesAck_textReply hlib hshared hkey hfits hreplied hash hcarries

section Agreement

variable {m : Moment} {request : TextRequest} {kept : Option Pending} {a b : Node}
  {packet arrived : Packet} {secret : Bytes} {attempt : UInt8} {c : Contact}

/-- An ack that the sender waits for is of a plain text, or of a signed one with its
key prefix: the hash of a shorter one would be over its padding. -/
theorem acked_of_ackRule (hrule : AckRule lib m request.txtType kept b secret arrived)
    (hsealed : Sealed lib request b.identity.pub secret a kept packet attempt)
    (hreceived : Received lib m request (request.ackKey a.identity b.identity.pub) b c secret
      attempt arrived)
    (hapart : request.txtType = kTxtSignedPlain → request.text.length < 4 →
      request.HashesApart lib b.identity.pub) {p : Pending} (hkept : kept = some p) :
    (request.txtType = kTxtPlain ∨
      request.txtType = kTxtSignedPlain ∧ 4 ≤ request.text.length) ∧ Node.CanAck c arrived := by
  have hsame : request.txtType &&& 0x3F = request.txtType :=
    Option.some.inj (hreceived.type.symm.trans hrule.type)
  obtain ⟨hcli, -, haccepted⟩ := hsealed.accepted p hkept
  obtain ⟨hash, hin, hacks⟩ := hrule.acked p hkept
  have hkind : request.txtType = kTxtPlain ∨ request.txtType = kTxtSignedPlain := by
    by_contra hother
    refine hreceived.unknown ?_ hash hacks
    rw [hsame]
    rintro (hplain | hcliData | hsigned)
    · exact hother (.inl hplain)
    · exact hcli hcliData
    · exact hother (.inr hsigned)
  obtain ⟨hcan, hhash⟩ := (hreceived.acks hkind hash).mp hacks
  refine ⟨hkind.imp_right fun hsigned => ⟨hsigned, ?_⟩, hcan⟩
  by_contra hshort
  obtain ⟨k, hk⟩ := haccepted hash hin
  have hkey : request.ackKey a.identity b.identity.pub = b.identity.pub := by
    rw [TextRequest.ackKey, if_pos hsigned]
  rw [hkey] at hk hhash
  exact hapart hsigned (by omega) attempt k (hhash.trans hk)

/-- Neither end knows an ack of CLI data. -/
theorem ackRule_of_cli (hcli : request.txtType = kTxtCliData)
    (hsealed : Sealed lib request b.identity.pub secret a kept packet attempt)
    (hreceived : Received lib m request (request.ackKey a.identity b.identity.pub) b c secret
      attempt arrived) : AckRule lib m request.txtType kept b secret arrived where
  type := hreceived.type.trans (by rw [hcli]; rfl)
  acked p hp := absurd hcli (hsealed.accepted p hp).1
  unacked _ := hreceived.cli hcli

/-- Where padding does not reach the hash, the ack is one the sender waits for. -/
theorem ackRule_of_region (hregion : request.txtType = kTxtPlain ∨
      request.txtType = kTxtSignedPlain ∧ 4 ≤ request.text.length)
    (hcan : Node.CanAck c arrived)
    (hsealed : Sealed lib request b.identity.pub secret a kept packet attempt)
    (hreceived : Received lib m request (request.ackKey a.identity b.identity.pub) b c secret
      attempt arrived) : AckRule lib m request.txtType kept b secret arrived := by
  have hkind : request.txtType = kTxtPlain ∨ request.txtType = kTxtSignedPlain :=
    hregion.imp_right fun h => h.1
  refine ⟨hreceived.type.trans (by rw [type_masked hkind]), fun p hp => ?_, fun hnone => ?_⟩
  · refine ⟨_, (hsealed.accepted p hp).2.1, (hreceived.acks hkind _).mpr ⟨hcan, ?_⟩⟩
    rw [messageAckHash_padded attempt hregion]
  · have hcli := hsealed.once hnone
    rcases hkind with hkind | hkind <;> exact absurd (hcli.symm.trans hkind) (by decide)

end Agreement

/-- **The ack rule.** For every text the app was told was sent, and every packet of
it that the receiver opens: the two ends agree on it just when it is CLI data, or
a plain text, or a signed one with the four bytes of its key prefix, and in the
latter cases the receiver has a way to send its ack. -/
theorem ack_rule_iff (hlib : lib.Lawful) {s : TextSession} (hs : s.node.Reachable lib)
    {radio : RadioView} {args : Bytes} {request : TextRequest} {target : Contact}
    (hdecode : TextRequest.decode args = some request)
    (hto : addressed s.node.contacts request.keyPrefix = some target)
    (hanswer : (s.cmdSendTxtMsg lib radio args).1.head? = some kRespSent)
    {kept : Option Pending} {a : Node} {packet : Packet}
    (hattempted : Attempted lib request target.pubkey s.node
      (s.cmdSendTxtMsg lib radio args).2.node kept a packet)
    {b : Node} (hdest : target.pubkey = b.identity.pub) {secret : Bytes}
    (hours : lib.sharedSecret a.identity.priv b.identity.pub = some secret)
    (htheirs : lib.sharedSecret b.identity.priv a.identity.pub = some secret) {c : Contact}
    (hback : b.contacts.find a.identity.pub = some c) {arrived : Packet}
    (harrives : Node.Arrives packet arrived)
    (halone : Node.Undisturbed lib b a.identity.pub arrived.payload)
    (hapart : request.txtType = kTxtSignedPlain → request.text.length < 4 →
      request.HashesApart lib b.identity.pub) (m : Moment) :
    AckRule lib m request.txtType kept b secret arrived ↔
      request.txtType = kTxtCliData ∨
      (request.txtType = kTxtPlain ∨
        request.txtType = kTxtSignedPlain ∧ 4 ≤ request.text.length) ∧ Node.CanAck c arrived := by
  obtain ⟨attempt, hsealed⟩ := exists_sealed hs hdecode hto hanswer hattempted
    (by rw [hdest]; exact hours)
  have hpayload : arrived.payload = (DirectEnvelope.sealWith lib b.identity.id
      (a.identity.pub.headD 0) secret (request.message attempt).encode).encode := by
    rw [harrives.payload, hsealed.payload, hdest]
    rfl
  have hreceived := received_of_sealed hlib htheirs hback harrives.pathFits
    (harrives.type.trans hsealed.type) harrives.here hpayload halone m
  rw [hdest] at hsealed
  constructor
  · intro hrule
    cases hkept : kept with
    | none => exact .inl (hsealed.once hkept)
    | some p => exact .inr (acked_of_ackRule hrule hsealed hreceived hapart hkept)
  · rintro (hcli | ⟨hregion, hcan⟩)
    · exact ackRule_of_cli hcli hsealed hreceived
    · exact ackRule_of_region hregion hcan hsealed hreceived

/-! ## One text, as two types -/

/-- "hi" to Bob as a text of some type. -/
def hiArgs (txtType : UInt8) : Bytes := [txtType, 0, 7, 0, 0, 0] ++ List.replicate 6 2 ++ [104, 105]

def hiRequest (txtType : UInt8) : TextRequest :=
  { txtType, timestamp := 7, keyPrefix := List.replicate 6 2, text := [104, 105] }

def aliceIdle : TextSession := .ofNode (Node.holding Node.aliceKeys Node.bobKeys.pub)

/-- Alice has sent it, while her radio is down. -/
def aliceAsked (txtType : UInt8) : Bytes × TextSession :=
  aliceIdle.cmdSendTxtMsg Crypto.Library.transparent .down (hiArgs txtType)

def hiPending (txtType : UInt8) : Pending :=
  let p : Pending :=
    { id := 1, destPubkey := Node.bobKeys.pub, text := [104, 105], txtType, timestamp := 7 }
  p.accept (p.onAirHash Crypto.Library.transparent Node.aliceKeys)

def hiSent (txtType : UInt8) : Queued Nat :=
  { packet :=
      { type := .txtMsg
        payload := (hiPending txtType).payload Crypto.Library.transparent Node.aliceKeys }
    priority := kPriorityDirect, queuedAt := 0, delayMs := 0, seq := 0, onResult := some 1 }

def bobIdle : Node := Node.holding Node.bobKeys Node.aliceKeys.pub

/-- Alice waits for the ack of a type that Bob does not know, and he sends none. -/
theorem ack_rule_unknown_type :
    (aliceAsked 3).1.head? = some kRespSent ∧
    (hiRequest 3).kept (aliceAsked 3).2.node Node.bobKeys.pub = some (hiPending 3) ∧
    TxEvent.queued (hiSent 3) ∈ (aliceAsked 3).2.node.air.trace ∧
    bobIdle.textTypeRead Crypto.Library.transparent (hiSent 3).packet = some 3 ∧
    ¬ AckRule Crypto.Library.transparent { radio := .down } 3 (some (hiPending 3)) bobIdle
      (List.replicate 32 3) (hiSent 3).packet := by
  have honly : (aliceAsked 3).2.node.air.trace = [.queued (hiSent 3)] := rfl
  refine ⟨by decide +kernel, by decide +kernel, ?_, by decide +kernel, fun hrule => ?_⟩
  · rw [honly]
    exact List.mem_singleton_self _
  · obtain ⟨hash, -, out, hout, -⟩ := hrule.acked _ rfl
    have hsilent : bobIdle.queuedBy Crypto.Library.transparent { radio := .down }
        (hiSent 3).packet = [] := by decide +kernel
    rw [hsilent] at hout
    exact absurd hout List.not_mem_nil

/-- As a plain text they agree on it. -/
theorem ack_rule_plain :
    AckRule Crypto.Library.transparent { radio := .down } kTxtPlain (some (hiPending 0)) bobIdle
      (List.replicate 32 3) (hiSent 0).packet := by
  have halone : Node.Undisturbed Crypto.Library.transparent bobIdle Node.aliceKeys.pub
      (hiSent 0).packet.payload := by
    intro c hc hother
    exact absurd (congrArg Contact.pubkey (List.mem_singleton.mp hc)) hother
  have hreachable : aliceIdle.node.Reachable Crypto.Library.transparent :=
    ⟨_, _, _, _, _, _, _, _, _, _, [], rfl⟩
  have honly : (aliceAsked 0).2.node.air.trace = [.queued (hiSent 0)] := rfl
  have hattempted : Attempted Crypto.Library.transparent (hiRequest 0) Node.bobKeys.pub
      aliceIdle.node (aliceAsked 0).2.node (some (hiPending 0)) (aliceAsked 0).2.node
      (hiSent 0).packet := by
    refine .kept [] (by decide +kernel) ?_ rfl
    rw [run_nil, honly]
    exact List.mem_singleton_self _
  have harrives : Node.Arrives (hiSent 0).packet (hiSent 0).packet :=
    ⟨rfl, rfl, ⟨(hiSent 0).packet.encode, by decide +kernel⟩, .inl rfl⟩
  have hdecode : TextRequest.decode (hiArgs 0) = some (hiRequest 0) := by decide +kernel
  have hto : addressed aliceIdle.node.contacts (hiRequest 0).keyPrefix =
      some { pubkey := Node.bobKeys.pub } := by decide +kernel
  have hanswer : (aliceIdle.cmdSendTxtMsg Crypto.Library.transparent .down (hiArgs 0)).1.head? =
      some kRespSent := by decide +kernel
  have hback : bobIdle.contacts.find (aliceAsked 0).2.node.identity.pub =
      some { pubkey := Node.aliceKeys.pub } := by decide +kernel
  refine (ack_rule_iff Crypto.Library.transparent_lawful hreachable hdecode hto hanswer hattempted
    rfl (by decide +kernel) (by decide +kernel) hback harrives halone
    (fun hsigned => absurd hsigned (by decide)) { radio := .down }).mpr ?_
  exact .inr ⟨.inl rfl, .inl rfl⟩

end Coreletd.Companion
