/-
# Sender and receiver agree on acks

The sender hashes the plaintext it sealed, the receiver the padded one it
opened; the hash comes back bare in an ack packet or sealed and padded once more
inside a returned path; and every retry is acked under a hash of its own. Still
the reply completes the very send it answers, and the app hears the hash it was
given when it sent.
-/

import Coreletd.Mesh.NodeSteps
import Coreletd.Proto.Envelopes
import Coreletd.Proto.Padding
import Coreletd.Proto.ReturnedPaths

namespace Coreletd.Mesh

open Coreletd.Crypto
open Coreletd.Library
open Coreletd.Proto
open ReliableSender

/-! ## Routes -/

/-- A route that a packet can carry. -/
def Via.Fits (via : Via) : Prop :=
  ({ path := via.path, pathHashSize := via.hashSize } : Packet).PathFits

/-- One-byte hops, as many as can be counted. -/
theorem Via.fits_of_length {path : Bytes} (hpath : path.length ≤ 63) : Via.Fits { path } where
  size_pos := le_rfl
  size_le := Nat.one_le_ofNat
  whole := Nat.mod_one _
  hops := by simpa using hpath
  fits := hpath.trans (by decide)

/-- What is flooded starts on an empty one. -/
theorem Via.fits_nil : Via.Fits { path := [] } := fits_of_length (Nat.zero_le 63)

/-- Any packet on the route has a path that fits. -/
theorem Via.Fits.pathFits {via : Via} (hfits : via.Fits) {p : Packet}
    (hsize : p.pathHashSize = via.hashSize) (hpath : p.path = via.path) : p.PathFits := by
  obtain ⟨size_pos, size_le, whole, hops, fits⟩ := hfits
  rw [← hsize] at size_pos size_le
  rw [← hsize, ← hpath] at whole hops
  rw [← hpath] at fits
  exact ⟨size_pos, size_le, whole, hops, fits⟩

namespace Node

variable {lib : Crypto.Library} {m : Moment}

/-! ## Opening what a peer sealed -/

/-- No contact but the one with key `peer` opens the envelope in a payload. -/
def Undisturbed (lib : Crypto.Library) (n : Node) (peer payload : Bytes) : Prop :=
  ∀ c ∈ n.contacts.contacts, c.pubkey ≠ peer → ∀ env, DirectEnvelope.decode payload = some env →
    macAndDecrypt lib (c.sharedSecret lib n.identity) env.mac env.ciphertext = none

/-- The search through the contacts of one first byte ends at the peer when
nobody else opens. -/
theorem findSome_filter {result : Type} {contacts : List Contact} {peer : Bytes} {c : Contact}
    {r : result} {f : Contact → Option result} (hfind : contacts.find? (·.pubkey = peer) = some c)
    (hother : ∀ c' ∈ contacts, c'.pubkey ≠ peer → f c' = none) (hopens : f c = some r) :
    (contacts.filter (·.id = c.id)).findSome? f = some r := by
  induction contacts with
  | nil => simp at hfind
  | cons first rest ih =>
      by_cases hpeer : first.pubkey = peer
      · rw [List.find?_cons_of_pos (by simpa using hpeer)] at hfind
        obtain rfl := Option.some.inj hfind
        rw [List.filter_cons_of_pos (by simp), List.findSome?_cons, hopens]
      · rw [List.find?_cons_of_neg (by simpa using hpeer)] at hfind
        have hrest := ih hfind fun c' hc' => hother c' (List.mem_cons_of_mem _ hc')
        by_cases hid : first.id = c.id
        · rw [List.filter_cons_of_pos (by simpa using hid), List.findSome?_cons,
            hother first List.mem_cons_self hpeer]
          exact hrest
        · rw [List.filter_cons_of_neg (by simpa using hid)]
          exact hrest

/-- The secret a contact is talked to under. -/
theorem sharedSecret_of_find {n : Node} {peer secret : Bytes} {c : Contact}
    (hsecret : lib.sharedSecret n.identity.priv peer = some secret)
    (hfind : n.contacts.find peer = some c) : c.sharedSecret lib n.identity = secret := by
  have hpeer : c.pubkey = peer := by simpa using List.find?_some hfind
  rw [Contact.sharedSecret, hpeer, hsecret, Option.getD_some]

theorem secret_ne_nil (hlib : lib.Lawful) {priv peer secret : Bytes}
    (hsecret : lib.sharedSecret priv peer = some secret) : secret ≠ [] := by
  apply List.ne_nil_of_length_pos
  rw [hlib.secret_length _ _ _ hsecret]
  decide

/-- What a peer sealed opens, to the plaintext with its padding. -/
theorem openedTo_sealed (hlib : lib.Lawful) {n : Node} {p : Packet}
    {peer secret plaintext : Bytes} {c : Contact}
    (hsecret : lib.sharedSecret n.identity.priv peer = some secret)
    (hfind : n.contacts.find peer = some c) (hne : plaintext ≠ [])
    (hpayload : p.payload = (DirectEnvelope.sealWith lib n.identity.id (peer.headD 0) secret
      plaintext).encode)
    (halone : Undisturbed lib n peer p.payload) :
    OpenedTo lib n p c (plaintext ++ padding plaintext.length) := by
  have hpeer : c.pubkey = peer := by simpa using List.find?_some hfind
  have hkey : kAesBlockSize ≤ secret.length := by
    rw [hlib.secret_length _ _ _ hsecret]
    decide
  have hshared : c.sharedSecret lib n.identity = secret := sharedSecret_of_find hsecret hfind
  obtain ⟨env, hdecode, hdest, hsrc, hopens⟩ :=
    DirectEnvelope.opens_seal hlib.ciphers hkey hne n.identity.id (peer.headD 0)
  rw [← hpayload] at hdecode
  refine ⟨env, hdecode, hdest, ?_⟩
  have hid : c.id = peer.headD 0 := by rw [Contact.id, hpeer]
  rw [decryptFrom, ContactStore.byId, hsrc, ← hid]
  refine findSome_filter hfind (fun c' hc' hother => ?_) ?_
  · have hnone := halone c' hc' hother _ hdecode
    simp only at hnone ⊢
    rw [hnone]
    split <;> rfl
  · simp only [hshared, if_neg (secret_ne_nil hlib hsecret), hopens, Option.map_some]

/-! ## The receiver -/

/-- A flags byte of type plain reads back as plain, whatever the attempt. -/
theorem flagsByte_of_plain {msg : TextMessage} (hplain : msg.txtType = kTxtPlain) :
    msg.flagsByte >>> 2 = kTxtPlain := by
  rw [flagsByte_type, hplain]
  rfl

/-- The reply to a text: a returned path with the ack inside for a flood, the ack
alone otherwise. -/
def ackReply (lib : Crypto.Library) (m : Moment) (self : LocalIdentity) (dest : Contact)
    (text : Packet) (ack : Bytes) : Packet :=
  if text.isFlood then
    pathPacket lib self dest (dest.sharedSecret lib self)
      (pathReturn m text PayloadType.ack.toByte ack) none
  else routed dest false { type := .ack, payload := ack }

theorem pathReturn_of_ne_nil (m : Moment) (inbound : Packet) (extraType : UInt8) {extra : Bytes}
    (hne : extra ≠ []) :
    pathReturn m inbound extraType extra = .ofPacket inbound extraType extra := by
  rw [pathReturn, if_neg hne, if_neg hne, PathReturn.ofPacket]

theorem replyTo_air {n : Node} {dest : Contact} {text : Packet} {ack : Bytes} (hack : ack ≠ [])
    (hshared : dest.sharedSecret lib n.identity ≠ []) :
    (n.replyTo lib m text dest ack).air =
      (Dispatcher.send onTxResult lib m.radio n.air (ackReply lib m n.identity dest text ack)
        kPriorityAck 0 none).2 := by
  rw [replyTo, ackReply]
  split
  · rw [sendPathReturn, if_neg hshared]
    rfl
  · rfl

/-- The receiver hashes the padded plaintext, and over the same region. -/
theorem ackOf_padded {msg msg' : TextMessage} (hplain : msg.txtType = kTxtPlain)
    (hplain' : msg'.txtType = kTxtPlain) (self : LocalIdentity) (sender : Contact) :
    ∃ extendedAttempt,
      ackOf lib m self sender (msg.encode ++ padding msg.encode.length) msg' =
        ackPayload (messageAckHash lib msg.encode sender.pubkey) extendedAttempt m.ackByte := by
  have hstart : textStart msg.encode ≤ msg.encode.length := by
    rw [TextMessage.textStart_encode, hplain, if_neg (by decide), TextMessage.length_encode]
    exact Nat.le_add_right _ _
  refine ⟨ackExtendedAttempt (msg.encode ++ padding msg.encode.length), ?_⟩
  rw [ackOf, hplain', if_neg (by decide), if_neg (by decide), messageAckHash, messageAckHash,
    padding, ackHashedRegion_append_zeros hstart]

/-- Noting the contact and delivering the text leave the dispatcher to the reply. -/
theorem acceptText_air {n : Node} {sender : Contact} {text : Packet} {plaintext : Bytes}
    {msg : TextMessage} (hshared : sender.sharedSecret lib n.identity ≠ [])
    (hack : ackOf lib m n.identity sender plaintext msg ≠ []) :
    (n.acceptText lib m text sender plaintext msg).air =
      (Dispatcher.send onTxResult lib m.radio n.air (ackReply lib m n.identity sender text
        (ackOf lib m n.identity sender plaintext msg)) kPriorityAck 0 none).2 := by
  have hkept : ({ n with contacts :=
      n.contacts.touchSignal sender.pubkey m.unixNow text.rssi text.snrQ4 }.deliver lib m text
        sender msg).toOutgoing = _ := toOutgoing_deliver sender msg
  rw [acceptText]
  generalize { n with contacts :=
    n.contacts.touchSignal sender.pubkey m.unixNow text.rssi text.snrQ4 }.deliver lib m text
      sender msg = n' at hkept ⊢
  have hair : n'.air = n.air := by rw [hkept]
  have hidentity : n'.identity = n.identity := congrArg (·.client.self) hair
  rw [hidentity, replyTo_air hack (by rw [hidentity]; exact hshared), hidentity, hair]

/-- A text the peer sealed is answered with the ack of its unpadded plaintext. -/
theorem onPacket_text (hlib : lib.Lawful) {n : Node} {peer secret : Bytes} {c : Contact}
    {msg : TextMessage} {text : Packet}
    (hsecret : lib.sharedSecret n.identity.priv peer = some secret)
    (hfind : n.contacts.find peer = some c) (hplain : msg.txtType = kTxtPlain)
    (htype : text.type = .txtMsg) (hroute : text.isFlood = true ∨ text.path = [])
    (hpayload : text.payload = (DirectEnvelope.sealWith lib n.identity.id (peer.headD 0) secret
      msg.encode).encode)
    (halone : Undisturbed lib n peer text.payload) :
    ∃ extendedAttempt, (n.onPacket lib m text).air =
      (Dispatcher.send onTxResult lib m.radio n.air
        (ackReply lib m n.identity c text
          (ackPayload (messageAckHash lib msg.encode peer) extendedAttempt m.ackByte))
        kPriorityAck 0 none).2 := by
  have hpeer : c.pubkey = peer := by simpa using List.find?_some hfind
  have hopened : OpenedTo lib n text c (msg.encode ++ padding msg.encode.length) :=
    openedTo_sealed hlib hsecret hfind msg.encode_ne_nil hpayload halone
  obtain ⟨msg', hmsg', hkind⟩ := msg.decode_append (padding msg.encode.length)
  rw [flagsByte_of_plain hplain] at hkind
  have hlocal : n.onPacket lib m text =
      n.acceptText lib m text c (msg.encode ++ padding msg.encode.length) msg' := by
    rw [onPacket_openedText htype (hroute.imp_right Packet.hopCount_of_path_nil) hopened hmsg',
      if_pos (.inl hkind)]
  have hshared : c.sharedSecret lib n.identity ≠ [] := by
    rw [sharedSecret_of_find hsecret hfind]
    exact secret_ne_nil hlib hsecret
  obtain ⟨extendedAttempt, hack⟩ : ∃ extendedAttempt,
      ackOf lib m n.identity c (msg.encode ++ padding msg.encode.length) msg' =
        ackPayload (messageAckHash lib msg.encode c.pubkey) extendedAttempt m.ackByte :=
    ackOf_padded hplain hkind n.identity c
  refine ⟨extendedAttempt, ?_⟩
  rw [hlocal, acceptText_air hshared (by rw [hack]; simp [ackPayload]), hack, hpeer]

/-! ## The sender -/

/-- The hashes the app was told of, newest first. -/
def acksOf (notices : List Notice) : List Bytes :=
  notices.filterMap fun notice =>
    match notice with
    | .ack hash => some hash
    | _ => none

/-- The operation `p` of `a` was completed, no other, and reported under its first
hash. -/
structure Acknowledged (a a' : Node) (p : Pending) : Prop where
  completed : a'.air.client.completed = p.id :: a.air.client.completed
  waiting : a'.air.client.pending.map (·.id) = (a.air.client.pending.map (·.id)).erase p.id
  told : acksOf a'.notices = p.ackHash :: acksOf a.notices

/-- Setting timers afterwards makes no difference. -/
theorem Acknowledged.retimed {a a' a'' : Node} {p : Pending} (ha : Acknowledged a a' p)
    (hretimed : Retimed a'.air.client a''.air.client) (hnotices : a''.notices = a'.notices) :
    Acknowledged a a'' p := by
  obtain ⟨timer, heq⟩ := hretimed
  refine ⟨?_, ?_, ?_⟩
  · rw [heq]
    exact ha.completed
  · rw [heq, ← ha.waiting]
    simp [Function.comp_def]
  · rw [hnotices]
    exact ha.told

/-- Nothing the sender keeps and nothing of the acks was changed before. -/
theorem Acknowledged.congr_left {a a' a'' : Node} {p : Pending} (ha : Acknowledged a' a'' p)
    (hair : a'.air = a.air) (hnotices : acksOf a'.notices = acksOf a.notices) :
    Acknowledged a a'' p := by
  obtain ⟨hcompleted, hwaiting, htold⟩ := ha
  rw [hair] at hcompleted hwaiting
  rw [hnotices] at htold
  exact ⟨hcompleted, hwaiting, htold⟩

/-- An accepted hash completes its operation. -/
theorem acknowledged_completeAck {n : Node} (hs : Sound lib n.air.client) {p : Pending}
    (hp : p ∈ n.air.client.pending) {hash : Bytes} (haccepted : hash ∈ p.acceptedAckHashes)
    (hunique : ∀ other ∈ n.air.client.pending, other.id ≠ p.id → hash ∉ other.acceptedAckHashes)
    (direct : Bool) :
    ∃ c n', n.completeAck m hash direct = (true, c, n') ∧ Acknowledged n n' p ∧
      n'.air = { n.air with client := (n.air.client.complete hash).2 } := by
  rcases complete_cases n.air.client hash with ⟨hnone, _⟩ | ⟨ahead, q, behind, hsplit, hin, _, heq⟩
  · exact absurd haccepted (hnone p hp)
  · have hq : q ∈ n.air.client.pending := by
      rw [hsplit]
      simp
    obtain rfl : q = p := by
      by_contra hne
      refine hunique q hq (fun hid => hne ?_) hin
      exact List.inj_on_of_nodup_map hs.distinct hq hp hid
    have hdistinct := hs.distinct
    rw [Distinct, hsplit, List.map_append, List.map_cons] at hdistinct
    have hids : (n.air.client.pending.map (·.id)).erase q.id = (ahead ++ behind).map (·.id) := by
      rw [hsplit, List.map_append, List.map_cons, List.erase_append_right, List.erase_cons_head,
        List.map_append]
      exact fun hmem => (List.nodup_append.mp hdistinct).2.2 _ hmem _ List.mem_cons_self rfl
    rw [completeAck, heq]
    refine ⟨_, _, rfl, ?_, ?_⟩
    · dsimp only
      split
      · exact ⟨rfl, hids.symm, rfl⟩
      · exact ⟨rfl, hids.symm, rfl⟩
    · dsimp only
      split <;> rfl

/-- A path return sent afterwards undoes nothing. -/
theorem Acknowledged.sendPathReturn {a n : Node} {p : Pending} {limit : Nat}
    (ha : Acknowledged a n p) (hn : Air.Laddered lib limit n.air) (dest : Contact)
    (inbound : Packet) (extraType : UInt8) (extra : Bytes) (via : Option Via) (delayMs : UInt32) :
    Acknowledged a (n.sendPathReturn lib m dest inbound extraType extra via delayMs) p := by
  have hsent : Node.Transmits lib m n _
      (n.sendPathReturn lib m dest inbound extraType extra via delayMs) :=
    Node.transmits_sendPathReturn n dest inbound extraType extra via delayMs
  generalize n.sendPathReturn lib m dest inbound extraType extra via delayMs = n' at hsent ⊢
  cases hsent with
  | nothing => exact ha
  | one =>
      exact ha.retimed
        (Air.framed_send lib m.radio hn.accounted hn.sound.distinct _ _ _ none).retimed rfl

theorem subview_whole {hash : Bytes} (hlength : hash.length = kAckHashSize) :
    subview hash 0 kAckHashSize = hash := by
  rw [subview, List.drop_zero, ← hlength, List.take_length]

/-- An ack packet completes the send whose hash it starts with, wherever it is on
its way to. -/
theorem acknowledged_ack {n : Node} {limit : Nat} (hn : Air.Laddered lib limit n.air)
    {p : Pending} (hp : p ∈ n.air.client.pending) {hash : Bytes}
    (haccepted : hash ∈ p.acceptedAckHashes) (hlength : hash.length = kAckHashSize)
    (hunique : ∀ other ∈ n.air.client.pending, other.id ≠ p.id → hash ∉ other.acceptedAckHashes)
    {arrived : Packet} {extendedAttempt random : UInt8} (htype : arrived.type = .ack)
    (hpayload : arrived.payload = ackPayload hash extendedAttempt random) :
    Acknowledged n (n.onPacket lib m arrived) p := by
  rw [ackPayload, subview_whole hlength] at hpayload
  have hfirst : subview arrived.payload 0 kAckHashSize = hash := by
    rw [hpayload, subview, List.drop_zero, ← hlength, List.take_left]
  have hlong : ¬ arrived.payload.length < kAckHashSize := by
    rw [hpayload, List.length_append, hlength]
    exact Nat.not_lt.mpr (Nat.le_add_right _ _)
  obtain ⟨c, n', hcompleted, hdone, hair⟩ :=
    acknowledged_completeAck (m := m) hn.sound hp haccepted hunique arrived.isDirect
  have hladdered : Air.Laddered lib limit n'.air := by
    rw [hair]
    exact hn.complete hash
  have hhandled : ∃ n'', n.handleAck lib m arrived = (false, n'') ∧ Acknowledged n n'' p := by
    rw [handleAck, if_neg hlong, hfirst, hcompleted]
    cases c with
    | none => exact ⟨n', rfl, hdone⟩
    | some c =>
        dsimp only
        split
        · exact ⟨_, rfl, hdone.sendPathReturn hladdered _ _ _ _ _ _⟩
        · exact ⟨n', rfl, hdone⟩
  obtain ⟨n'', hresult, hdone'⟩ := hhandled
  rw [onPacket, if_neg (by simp [htype]), if_neg (by simp [htype])]
  split
  · -- Still in transit: read early.
    rw [passOn, if_pos htype, hresult]
    exact hdone'
  · rw [handle, htype]
    dsimp only
    rw [hresult]
    exact hdone'

/-- The extra of a returned path keeps the hash in front; what the padding adds
comes behind it. -/
theorem decode_ackReturn {text : Packet} (hfits : text.PathFits) {hash : Bytes}
    (hlength : hash.length = kAckHashSize) {extendedAttempt random : UInt8} {ret : PathReturn}
    (hret : ret = .ofPacket text PayloadType.ack.toByte
      (ackPayload hash extendedAttempt random))
    (tail : Bytes) :
    ∃ read, PathReturn.decode (ret.encode ++ tail) = some read ∧
      (read.hasExtra = true ∧ read.extraType = PayloadType.ack.toByte ∧
        kAckHashSize ≤ read.extra.length) ∧
      subview read.extra 0 kAckHashSize = hash := by
  have hbits : PayloadType.ack.toByte &&& 0x0F = PayloadType.ack.toByte := by decide
  have hack : ackPayload hash extendedAttempt random = hash ++ [extendedAttempt, random] := by
    rw [ackPayload, subview_whole hlength]
  subst hret
  refine ⟨_, PathReturn.decode_encode_append hfits rfl rfl rfl hbits tail, ⟨rfl, rfl, ?_⟩, ?_⟩
  · show kAckHashSize ≤ (ackPayload hash extendedAttempt random ++ tail).length
    rw [hack, List.append_assoc, List.length_append, hlength]
    exact Nat.le_add_right _ _
  · show subview (ackPayload hash extendedAttempt random ++ tail) 0 kAckHashSize = hash
    rw [hack, List.append_assoc, subview, List.drop_zero, ← hlength, List.take_left]

/-- A returned path completes the send whose hash starts its extra, before the
route goes back. -/
theorem acknowledged_path (hlib : lib.Lawful) {n : Node} {limit : Nat}
    (hn : Air.Laddered lib limit n.air) {p : Pending} (hp : p ∈ n.air.client.pending)
    {hash : Bytes} (haccepted : hash ∈ p.acceptedAckHashes)
    (hlength : hash.length = kAckHashSize)
    (hunique : ∀ other ∈ n.air.client.pending, other.id ≠ p.id → hash ∉ other.acceptedAckHashes)
    {peer secret : Bytes} {c : Contact} {ret : PathReturn} {arrived text : Packet}
    {extendedAttempt random : UInt8}
    (hsecret : lib.sharedSecret n.identity.priv peer = some secret)
    (hfind : n.contacts.find peer = some c) (htype : arrived.type = .path)
    (hroute : arrived.isFlood = true ∨ arrived.path = []) (hfits : text.PathFits)
    (hret : ret = .ofPacket text PayloadType.ack.toByte
      (ackPayload hash extendedAttempt random))
    (hpayload : arrived.payload = (DirectEnvelope.sealWith lib n.identity.id (peer.headD 0) secret
      ret.encode).encode)
    (halone : Undisturbed lib n peer arrived.payload) :
    Acknowledged n (n.onPacket lib m arrived) p := by
  have hne : ret.encode ≠ [] := by simp [PathReturn.encode]
  have hopened : OpenedTo lib n arrived c (ret.encode ++ padding ret.encode.length) :=
    openedTo_sealed hlib hsecret hfind hne hpayload halone
  obtain ⟨read, hread, hcarried, hfirst⟩ :=
    decode_ackReturn hfits hlength hret (padding ret.encode.length)
  have hair : (n.learnPath m c read).air = n.air := by
    rw [learnPath]
    split <;> rfl
  have htold : acksOf (n.learnPath m c read).notices = acksOf n.notices := by
    rw [learnPath]
    split <;> rfl
  rw [← hair] at hn hp hunique
  obtain ⟨c', n', hcompleted, hdone, hair'⟩ :=
    acknowledged_completeAck (m := m) hn.sound hp haccepted hunique arrived.isDirect
  have hladdered : Air.Laddered lib limit n'.air := by
    rw [hair']
    exact hn.complete hash
  have hdone' : Acknowledged n n' p := hdone.congr_left hair htold
  have hlearned : (n.learnPath m c read).completeExtra m arrived read = n' := by
    rw [completeExtra, if_pos hcarried, hfirst, hcompleted]
  rw [onPacket_openedPath htype (hroute.imp_right Packet.hopCount_of_path_nil) hopened hread, hlearned]
  split
  · exact hdone'.sendPathReturn hladdered _ _ _ _ _ _
  · exact hdone'

/-! ## Agreement -/

/-- Two nodes that hold each other as contacts, under one secret. -/
structure Peers (lib : Crypto.Library) (a b : Node) (secret : Bytes) : Prop where
  ours : lib.sharedSecret a.identity.priv b.identity.pub = some secret
  theirs : lib.sharedSecret b.identity.priv a.identity.pub = some secret
  known : (a.contacts.find b.identity.pub).isSome = true
  knownBack : (b.contacts.find a.identity.pub).isSome = true

/-- A packet as its recipient decodes it: flooded by any path, or direct with its
path used up. -/
structure Arrives (sent arrived : Packet) : Prop where
  type : arrived.type = sent.type
  payload : arrived.payload = sent.payload
  decoded : ∃ raw, Packet.decode raw = some { arrived with rssi := 0, snrQ4 := 0 }
  here : arrived.isFlood = true ∨ arrived.path = []

theorem Arrives.pathFits {sent arrived : Packet} (harrives : Arrives sent arrived) :
    arrived.PathFits := by
  obtain ⟨raw, hdecode⟩ := harrives.decoded
  obtain ⟨size_pos, size_le, whole, hops, fits⟩ := Packet.pathFits_of_decode hdecode
  exact ⟨size_pos, size_le, whole, hops, fits⟩

/-- No two waiting sends accept the same hash. -/
def HashesDistinct (s : ReliableSender) : Prop :=
  ∀ p ∈ s.pending, ∀ other ∈ s.pending, other.id ≠ p.id →
    ∀ hash ∈ p.acceptedAckHashes, hash ∉ other.acceptedAckHashes

/-- A packet without transport codes and with a short payload is fit to send if
its path is. -/
theorem valid_of_short {p : Packet} (hcodes : p.hasTransportCodes = false)
    (hsize : p.pathHashSize = 1) (hpath : p.path.length ≤ 63) (hpayload : p.payload.length ≤ 184) :
    p.valid = true := by
  have hhops : p.hopCount = p.path.length := by
    rw [Packet.hopCount, hsize, if_neg Nat.one_ne_zero, Nat.div_one]
  rw [Packet.valid, hsize, hcodes, hhops, if_neg (by decide)]
  rw [if_neg (by simp only [kMaxPathSize, Nat.mod_one]; omega),
    if_neg (by simp only [kMaxPayloadSize]; omega)]
  exact decide_eq_true (by simp only [kMaxPacketSize, Bool.false_eq_true, if_false]; omega)

/-- A returned path of any length fits a packet, on any route that does. -/
theorem fromAir_pathPacket (hciphers : lib.Ciphers) {self : LocalIdentity} {dest : Contact}
    {secret : Bytes} {ret : PathReturn} (hencoded : ret.encode.length ≤ 72) {via : Option Via}
    (hvia : ∀ route, via = some route → route.Fits) :
    (pathPacket lib self dest secret ret via).FromAir := by
  have hlong := DirectEnvelope.length_encode_seal_le hciphers secret ret.encode dest.id self.id
  have hpayload : (DirectEnvelope.sealWith lib dest.id self.id secret ret.encode).encode.length ≤
      kMaxPayloadSize := by
    refine hlong.trans ?_
    simp only [List.length_append, padding, List.length_replicate, kCipherMacSize, kAesBlockSize,
      kMaxPayloadSize]
    omega
  have hfits : (pathPacket lib self dest secret ret via).PathFits := by
    cases via with
    | none => exact Via.fits_nil.pathFits rfl rfl
    | some route => exact (hvia route rfl).pathFits rfl rfl
  cases via with
  | none => exact ⟨hfits, by simp [pathPacket, DirectEnvelope.encode], hpayload, rfl⟩
  | some route => exact ⟨hfits, by simp [pathPacket, DirectEnvelope.encode], hpayload, rfl⟩

theorem pathPacket_valid (hlib : lib.Lawful) {self : LocalIdentity} {dest : Contact}
    {secret : Bytes} {ret : PathReturn} (hencoded : ret.encode.length ≤ 72) :
    (pathPacket lib self dest secret ret none).valid = true :=
  (fromAir_pathPacket hlib.ciphers hencoded (by simp)).valid

theorem length_ackOf (lib : Crypto.Library) (m : Moment) (self : LocalIdentity) (c : Contact)
    (plaintext : Bytes) (msg : TextMessage) :
    (ackOf lib m self c plaintext msg).length ≤ 6 := by
  rw [ackOf]
  split
  · simp
  · simp only [ackPayload, subview, List.length_append, List.length_take, List.length_drop,
      List.length_cons, List.length_nil, kAckHashSize]
    omega

theorem length_encode_pathReturn {text : Packet} (hfits : text.PathFits) (extraType : UInt8)
    {extra : Bytes} (hextra : extra.length ≤ 6) :
    (pathReturn m text extraType extra).encode.length ≤ 72 := by
  have hlong := hfits.fits
  have hcarried : (pathReturn m text extraType extra).extra.length ≤ 6 := by
    rw [pathReturn]
    dsimp only
    split
    · simp [putU32]
    · exact hextra
  have hpath : (pathReturn m text extraType extra).path = text.path := rfl
  have hhas : (pathReturn m text extraType extra).hasExtra = true := rfl
  simp only [PathReturn.encode, hpath, hhas, if_true, List.length_append, List.length_cons,
    List.length_nil, kMaxPathSize] at hlong ⊢
  omega

theorem ackReply_valid (hlib : lib.Lawful) {self : LocalIdentity} {dest : Contact}
    {text : Packet} {ack : Bytes} (hfits : text.PathFits) (hack : ack.length = 6)
    (hpath : text.isFlood = true ∨ dest.outPath.length ≤ 63) :
    (ackReply lib m self dest text ack).valid = true := by
  rw [ackReply]
  split
  · exact pathPacket_valid hlib (length_encode_pathReturn hfits _ hack.le)
  · next hdirect =>
    have hshort : dest.outPath.length ≤ 63 := hpath.resolve_left hdirect
    rw [routed]
    split
    · exact valid_of_short rfl rfl hshort (by simp [hack])
    · exact valid_of_short rfl rfl (by simp) (by simp [hack])

/-- A packet on record for a waiting plain text seals one of its attempts, whose
hash the operation accepts. -/
theorem sent_message {a : Node} {limit : Nat} (ha : Air.Recorded lib limit a.air) {p : Pending}
    (hp : p ∈ a.air.client.pending) (hplain : p.txtType = kTxtPlain) {sent : Queued Nat}
    (hsent : .queued sent ∈ a.air.trace) (hown : sent.onResult = some p.id) {secret : Bytes}
    (hsecret : lib.sharedSecret a.identity.priv p.destPubkey = some secret) :
    ∃ msg : TextMessage, msg.txtType = kTxtPlain ∧ sent.packet.type = .txtMsg ∧
      sent.packet.payload = (DirectEnvelope.sealWith lib (p.destPubkey.headD 0) a.identity.id secret
        msg.encode).encode ∧
      messageAckHash lib msg.encode a.identity.pub ∈ p.acceptedAckHashes := by
  obtain ⟨attempt, hmade, hcarries⟩ := (ha.carried sent hsent p.id hown).2 p hp rfl
  refine ⟨{ timestamp := p.timestamp, txtType := p.txtType, attempt, text := p.text }, hplain,
    hcarries.type, ?_, ?_⟩
  · have hshared : lib.sharedSecret a.air.client.self.priv p.destPubkey = some secret := hsecret
    rw [hcarries.payload, Pending.payload, hshared]
    rfl
  · rw [(ha.laddered.sound.entries p hp).accepted]
    refine List.mem_map.mpr ⟨attempt, hmade, ?_⟩
    rw [hashAt, Pending.onAirHash, if_neg (by rw [hplain]; decide)]
    rfl

/-- **Acks agree.** Let `a` be a node in any reachable state and `p` a plain text it
waits to see acknowledged by `b`, and let any packet handed over for `p` arrive
at `b`. Then `b` answers with one packet, which it can send unless it holds a
route of 64 hops to `a`; and however that packet reaches `a`, it completes `p`,
no other send, and is reported under the hash that `send` returned for `p`. -/
theorem acks_agree (hlib : lib.Lawful) {a b : Node} (ha : a.Reachable lib) {secret : Bytes}
    (hpeers : Peers lib a b secret) (hhashes : HashesDistinct a.air.client) {p : Pending}
    (hp : p ∈ a.air.client.pending) (hdest : p.destPubkey = b.identity.pub)
    (hplain : p.txtType = kTxtPlain) {sent : Queued Nat} (hsent : .queued sent ∈ a.air.trace)
    (hown : sent.onResult = some p.id) {text : Packet} (harrives : Arrives sent.packet text)
    (halone : Undisturbed lib b a.identity.pub text.payload) (m : Moment) :
    (∀ hash, (p.id, hash) ∈ a.air.client.answered ↔ hash = p.ackHash) ∧
    ∃ reply : Packet,
      (b.onPacket lib m text).air =
        (Dispatcher.send onTxResult lib m.radio b.air reply kPriorityAck 0 none).2 ∧
      reply.type = (if text.isFlood then .path else .ack) ∧
      ((text.isFlood = true ∨ ∀ c, b.contacts.find a.identity.pub = some c →
        c.outPath.length ≤ 63) → reply.valid = true) ∧
      ∀ (m' : Moment) (arrived : Packet), arrived.type = reply.type →
        arrived.payload = reply.payload →
        (reply.type = .ack ∨ arrived.isFlood = true ∨ arrived.path = []) →
        Undisturbed lib a b.identity.pub reply.payload →
        Acknowledged a (a.onPacket lib m' arrived) p := by
  obtain ⟨limit, hrecorded⟩ := ha.recorded
  refine ⟨hrecorded.answered.told p hp, ?_⟩
  obtain ⟨c, hc⟩ := Option.isSome_iff_exists.mp hpeers.knownBack
  obtain ⟨c', hc'⟩ := Option.isSome_iff_exists.mp hpeers.known
  have hkey : kAesBlockSize ≤ secret.length := by
    rw [hlib.secret_length _ _ _ hpeers.theirs]
    decide
  obtain ⟨msg, hmsg, hkind, hsealed, hhash⟩ := sent_message hrecorded hp hplain hsent hown
    (by rw [hdest]; exact hpeers.ours)
  rw [hdest, ← harrives.payload] at hsealed
  have hlength : (messageAckHash lib msg.encode a.identity.pub).length = kAckHashSize :=
    length_ackHash hlib _
  have hunique : ∀ other ∈ a.air.client.pending, other.id ≠ p.id →
      messageAckHash lib msg.encode a.identity.pub ∉ other.acceptedAckHashes :=
    fun other hother hne => hhashes p hp other hother hne _ hhash
  have hpeer : c.pubkey = a.identity.pub := by simpa using List.find?_some hc
  have hshared : c.sharedSecret lib b.identity = secret := by
    rw [Contact.sharedSecret, hpeer, hpeers.theirs, Option.getD_some]
  obtain ⟨extendedAttempt, hreply⟩ := onPacket_text (m := m) hlib hpeers.theirs hc hmsg
    (harrives.type.trans hkind) harrives.here hsealed halone
  have hack : (ackPayload (messageAckHash lib msg.encode a.identity.pub) extendedAttempt
      m.ackByte).length = 6 := by
    simp [ackPayload, subview, hlength, kAckHashSize]
  refine ⟨_, hreply, ?_, ?_, ?_⟩
  · rw [ackReply]
    split
    · rfl
    · exact routed_type _ _ _
  · intro hroute
    refine ackReply_valid hlib harrives.pathFits hack ?_
    exact hroute.imp_right fun hshort => hshort c hc
  · intro m' arrived htype hreplied hway halone'
    cases hflood : text.isFlood with
    | true =>
        have hne : ackPayload (messageAckHash lib msg.encode a.identity.pub) extendedAttempt
            m.ackByte ≠ [] := List.ne_nil_of_length_pos (by omega)
        rw [ackReply, if_pos hflood, hshared] at htype hreplied hway halone'
        have hid : c.id = a.identity.id := by rw [Contact.id, hpeer]; rfl
        have hhere : arrived.isFlood = true ∨ arrived.path = [] := by
          rcases hway with hack' | hhere
          · exact absurd hack' (by simp [pathPacket])
          · exact hhere
        have hret := pathReturn_of_ne_nil m text PayloadType.ack.toByte hne
        refine acknowledged_path hlib hrecorded.laddered hp hhash hlength hunique hpeers.ours hc'
          htype hhere harrives.pathFits hret ?_ (hreplied ▸ halone')
        rw [hreplied, pathPacket, hid]
        rfl
    | false =>
        rw [ackReply, if_neg (by rw [hflood]; exact Bool.false_ne_true)] at htype hreplied
        rw [routed_type] at htype
        rw [routed_payload] at hreplied
        exact acknowledged_ack hrecorded.laddered hp hhash hlength hunique htype hreplied

/-! ## A text and its reply -/

def aliceKeys : LocalIdentity :=
  { pub := List.replicate 32 1, priv := List.replicate 32 1, pub_length := by decide }

def bobKeys : LocalIdentity :=
  { pub := List.replicate 32 2, priv := List.replicate 32 2, pub_length := by decide }

/-- A node that holds one contact. -/
def holding (self : LocalIdentity) (peer : Bytes) : Node :=
  new 10 16 8 self { contacts := [{ pubkey := peer }] } 0 {} {} {} fun _ => none

/-- Alice has sent Bob a text with a NUL in it, while her radio is down. -/
def alice : Node :=
  run (step Library.transparent) (holding aliceKeys bobKeys.pub)
    [.sendText { pubkey := bobKeys.pub } [104, 105, 0, 33] kTxtPlain 7 RadioView.down]

def greeting : Pending :=
  let p : Pending := { id := 1, destPubkey := bobKeys.pub, text := [104, 105, 0, 33],
                       txtType := kTxtPlain, timestamp := 7 }
  p.accept (p.onAirHash Library.transparent aliceKeys)

def greetingSent : Queued Nat :=
  { packet := { type := .txtMsg, payload := greeting.payload Library.transparent aliceKeys }
    priority := kPriorityDirect, queuedAt := 0, delayMs := 0, seq := 0, onResult := some 1 }

/-- It reached Bob through one relay. -/
def greetingArrived : Packet :=
  { greetingSent.packet with path := [9] }

/-- Bob's answer to it completes Alice's send. -/
theorem acks_agree_greeting :
    ∃ reply : Packet,
      ((holding bobKeys aliceKeys.pub).onPacket Library.transparent { radio := .down }
        greetingArrived).air =
        (Dispatcher.send onTxResult Library.transparent .down (holding bobKeys aliceKeys.pub).air
          reply kPriorityAck 0 none).2 ∧
      reply.valid = true ∧
      ∀ (m' : Moment) (arrived : Packet), arrived.type = reply.type →
        arrived.payload = reply.payload → arrived.isFlood = true →
        Acknowledged alice (alice.onPacket Library.transparent m' arrived) greeting := by
  have halone : ∀ (self : LocalIdentity) (peer payload : Bytes),
      Undisturbed Library.transparent (holding self peer) peer payload := by
    intro self peer payload c hc hother
    exact absurd (congrArg Contact.pubkey (List.mem_singleton.mp hc)) hother
  have hhashes : HashesDistinct alice.air.client := by
    have honly : alice.air.client.pending = [greeting] := by decide +kernel
    intro p hp other hother hne
    rw [honly] at hp hother
    exact absurd (by rw [List.mem_singleton.mp hp, List.mem_singleton.mp hother]) hne
  have hsent : TxEvent.queued greetingSent ∈ alice.air.trace := by
    have honly : alice.air.trace = [.queued greetingSent] := rfl
    rw [honly]
    exact List.mem_singleton_self _
  have hreachable : alice.Reachable Library.transparent := ⟨_, _, _, _, _, _, _, _, _, _, _, rfl⟩
  have hpeers : Peers Library.transparent alice (holding bobKeys aliceKeys.pub)
      (List.replicate 32 3) :=
    ⟨by decide +kernel, by decide +kernel, by decide +kernel, by decide +kernel⟩
  have harrives : Arrives greetingSent.packet greetingArrived :=
    ⟨rfl, rfl, ⟨greetingArrived.encode, by decide +kernel⟩, .inl rfl⟩
  have hwaits : greeting ∈ alice.air.client.pending := by decide +kernel
  obtain ⟨-, reply, hair, -, hvalid, hreplied⟩ := acks_agree Library.transparent_lawful hreachable
    hpeers hhashes hwaits rfl rfl hsent rfl harrives (halone _ _ _) { radio := .down }
  refine ⟨reply, hair, hvalid (.inl rfl), fun m' arrived htype hpayload hflood => ?_⟩
  exact hreplied m' arrived htype hpayload (.inr (.inl hflood)) (halone aliceKeys bobKeys.pub _)

end Node

end Coreletd.Mesh
