/-
# What a relay sends on

The policy is MeshCore's, stated without the handlers: which packets may be
flooded on, which passed along their route, and what the copy looks like. The
handlers follow it but for one kind of packet. A group packet too short to be an
envelope is flooded on like any other, where every other type has such packets
dropped.
-/

import Coreletd.Mesh.Reception
import Coreletd.Proto.PacketCodec

namespace Coreletd.Mesh.Node

open Coreletd.Crypto
open Coreletd.Library
open Coreletd.Proto

variable {lib : Crypto.Library} {m : Moment} {n : Node} {p out : Packet}

/-! ## The policy -/

/-- The types MeshCore floods. -/
def Floodable (type : PayloadType) : Prop :=
  type ∈ [PayloadType.advert, .txtMsg, .ack, .path, .grpTxt, .grpData, .req, .response, .anonReq]

/-- The shortest payload that is an envelope of its type. -/
def envelopeSize : PayloadType → Nat
  | .advert => kPubKeySize + 4 + kSignatureSize
  | .ack => kAckHashSize
  | .txtMsg | .path | .req | .response => 2 + kCipherMacSize + 1
  | .anonReq => 1 + kPubKeySize + kCipherMacSize + 1
  | .grpTxt | .grpData => 1 + kCipherMacSize + 1
  | _ => 0

/-- An anonymous request for us opened under the key it brought along. -/
def OpenedAnonymously (lib : Crypto.Library) (n : Node) (p : Packet) : Prop :=
  ∃ env shared, AnonReqEnvelope.decode p.payload = some env ∧ env.destHash = n.identity.id ∧
    lib.sharedSecret n.identity.priv env.pubkey = some shared ∧
    (macAndDecrypt lib shared env.mac env.ciphertext).isSome = true

/-- When a flooded packet may be repeated, and as what. -/
structure MayFlood (lib : Crypto.Library) (n : Node) (p out : Packet) : Prop where
  flood : p.isFlood = true
  hops : p.hopCount < n.cfg.maxHops.toNat
  room : p.path.length + p.pathHashSize ≤ kMaxPathSize ∧ p.hopCount < 63
  kind : Floodable p.type
  formed : envelopeSize p.type ≤ p.payload.length
  advert : p.type = .advert → ∃ adv, Advert.decode p.payload = some adv ∧ adv.verify lib = true ∧
    adv.pubkey ≠ n.identity.pub
  ack : p.type = .ack → n.Unmatched (subview p.payload 0 kAckHashSize)
  unopened : p.type = .txtMsg ∨ p.type = .req ∨ p.type = .response →
    ∀ sender plaintext, ¬ OpenedTo lib n p sender plaintext
  anonymous : p.type = .anonReq → ¬ OpenedAnonymously lib n p
  path : p.type = .path → ∀ sender plaintext, OpenedTo lib n p sender plaintext →
    PathReturn.decode plaintext = none
  copy : out = { p with path := p.path ++ n.identity.pub.take p.pathHashSize }

/-- The next hop of a direct packet is us, by its path or, for a trace, by the
route in its payload. -/
def NamesUs (n : Node) (p : Packet) : Prop :=
  if p.type = .trace then
    tracePosition p + traceWidth p ≤ p.payload.length ∧
      subview p.payload (tracePosition p) (traceWidth p) = n.identity.pub.take (traceWidth p)
  else 0 < p.hopCount ∧ p.firstHop ≠ [] ∧ p.firstHop = n.identity.pub.take p.firstHop.length

/-- When a direct packet may be passed on, and as what. -/
structure MayPass (n : Node) (p out : Packet) : Prop where
  direct : p.isDirect = true
  notMultipart : p.type ≠ .multipart
  notZeroHop : ¬ (p.type = .control ∧ p.payload.headD 0 &&& 0x80 ≠ 0)
  named : NamesUs n p
  ack : p.type = .ack → kAckHashSize ≤ p.payload.length ∧
    n.Unmatched (subview p.payload 0 kAckHashSize)
  copy : out = if p.type = .trace then { p with path := p.path ++ [(clampSnr p).toUInt8] }
    else { p with path := p.path.drop p.pathHashSize }

/-- The copies of the packet itself among what a reception queued. -/
def retransmissions (lib : Crypto.Library) (m : Moment) (n : Node) (p : Packet) : List Packet :=
  (n.queuedBy lib m p).filter fun out =>
    out.route = p.route ∧ out.type = p.type ∧ out.payload = p.payload

/-- At most one copy goes on, with relaying on, and only of what may. -/
def RelayPolicy (lib : Crypto.Library) (m : Moment) (n : Node) (p : Packet) : Prop :=
  (n.retransmissions lib m p).length ≤ 1 ∧
  ∀ out ∈ n.retransmissions lib m p,
    n.cfg.relay = true ∧ (MayFlood lib n p out ∨ MayPass n p out)

/-- A group packet that is no envelope, and nothing but its contents against
repeating it. -/
structure BrokenGroup (n : Node) (p : Packet) : Prop where
  relay : n.cfg.relay = true
  kind : p.type = .grpTxt ∨ p.type = .grpData
  short : p.payload.length < envelopeSize p.type
  flood : p.isFlood = true
  hops : p.hopCount < n.cfg.maxHops.toNat
  room : p.path.length + p.pathHashSize ≤ kMaxPathSize ∧ p.hopCount < 63

/-! ## What the handlers ask for -/

theorem handleAdvert_asked (hasked : (n.handleAdvert lib m p).1 = true) :
    ∃ adv, Advert.decode p.payload = some adv ∧ adv.verify lib = true ∧
      adv.pubkey ≠ n.identity.pub := by
  have hcase : AdvertCase lib m n p (n.handleAdvert lib m p) := handleAdvert_case n p
  generalize n.handleAdvert lib m p = result at hasked hcase
  cases hcase with
  | ignored => simp at hasked
  | applied hdecode hverify hforeign => exact ⟨_, hdecode, hverify, hforeign⟩

/-- A text goes on that is an envelope and did not open. -/
theorem handleText_asked (hasked : (n.handleText lib m p).1 = true) :
    (DirectEnvelope.decode p.payload).isSome = true ∧
      ∀ sender plaintext, ¬ OpenedTo lib n p sender plaintext := by
  have hcase : TextCase lib m n p (n.handleText lib m p) := handleText_case n p
  generalize n.handleText lib m p = result at hasked hcase
  cases hcase with
  | elsewhere henvelope hclosed => exact ⟨henvelope, hclosed⟩
  | ignored => simp at hasked
  | accepted => simp at hasked

/-- A returned path goes on that is an envelope and did not open to a path. -/
theorem handlePath_asked (hasked : (n.handlePath lib m p).1 = true) :
    (DirectEnvelope.decode p.payload).isSome = true ∧
      ∀ sender plaintext, OpenedTo lib n p sender plaintext →
        PathReturn.decode plaintext = none := by
  have hcase : PathCase lib m n p (n.handlePath lib m p) := handlePath_case n p
  generalize n.handlePath lib m p = result at hasked hcase
  cases hcase with
  | elsewhere henvelope hclosed => exact ⟨henvelope, hclosed⟩
  | ignored => simp at hasked
  | learned => simp at hasked
  | offered => simp at hasked

theorem handleRequest_asked (htype : p.type ≠ .anonReq) (hasked : n.handleRequest lib p = true) :
    (DirectEnvelope.decode p.payload).isSome = true ∧
      ∀ sender plaintext, ¬ OpenedTo lib n p sender plaintext := by
  rw [handleRequest, if_neg htype] at hasked
  split at hasked
  · simp at hasked
  · next env hdecode =>
    rw [hdecode]
    refine ⟨rfl, not_openedTo hdecode fun hours => ?_⟩
    rw [if_neg (by simpa using hours)] at hasked
    simpa using hasked

theorem handleRequest_asked_anonymous (htype : p.type = .anonReq)
    (hasked : n.handleRequest lib p = true) :
    (AnonReqEnvelope.decode p.payload).isSome = true ∧ ¬ OpenedAnonymously lib n p := by
  rw [handleRequest, if_pos htype] at hasked
  split at hasked
  · simp at hasked
  · next env hdecode =>
    rw [hdecode]
    refine ⟨rfl, ?_⟩
    rintro ⟨env', shared, hdecode', hdest, hshared, hopened⟩
    obtain rfl : env = env' := Option.some.inj (hdecode.symm.trans hdecode')
    rw [if_neg (by simpa using hdest), hshared] at hasked
    simp [Option.isSome_iff_ne_none.mp hopened] at hasked

theorem handleAck_asked (htype : p.type = .ack) (hasked : (n.handleAck lib m p).1 = true) :
    kAckHashSize ≤ p.payload.length ∧ n.Unmatched (subview p.payload 0 kAckHashSize) := by
  rcases handleAck_cases (m := m) (n := n) htype with
    ⟨-, heq⟩ | ⟨hlong, hnone, -⟩ | ⟨-, -, hread, -⟩
  · rw [heq] at hasked
    simp at hasked
  · exact ⟨hlong, hnone⟩
  · rw [hasked] at hread
    simp at hread

theorem length_of_isSome {payload : Bytes}
    (henvelope : (DirectEnvelope.decode payload).isSome = true) :
    2 + kCipherMacSize + 1 ≤ payload.length := by
  obtain ⟨env, hdecode⟩ := Option.isSome_iff_exists.mp henvelope
  exact DirectEnvelope.length_of_decode hdecode

/-- What is asked to be flooded on is of a type that is flooded, and an envelope of
it unless it is a group's. -/
theorem formed_of_asked (hasked : (n.handle lib m p).1 = true) :
    Floodable p.type ∧
      (p.type = .grpTxt ∨ p.type = .grpData ∨ envelopeSize p.type ≤ p.payload.length) := by
  rw [handle] at hasked
  split at hasked
  · next htype =>
    obtain ⟨adv, hdecode, -⟩ := handleAdvert_asked hasked
    rw [htype]
    exact ⟨by simp [Floodable], .inr (.inr (Advert.length_of_decode hdecode))⟩
  · next htype =>
    rw [htype]
    exact ⟨by simp [Floodable], .inr (.inr (length_of_isSome (handleText_asked hasked).1))⟩
  · next htype =>
    have hlong := (handleAck_asked htype hasked).1
    rw [htype]
    exact ⟨by simp [Floodable], .inr (.inr hlong)⟩
  · next htype =>
    rw [htype]
    exact ⟨by simp [Floodable], .inr (.inr (length_of_isSome (handlePath_asked hasked).1))⟩
  · next htype =>
    rw [htype]
    exact ⟨by simp [Floodable], .inl rfl⟩
  · next htype =>
    have hlong := length_of_isSome (handleRequest_asked (by simp [htype]) hasked).1
    rw [htype]
    exact ⟨by simp [Floodable], .inr (.inr hlong)⟩
  · next htype =>
    have hlong := length_of_isSome (handleRequest_asked (by simp [htype]) hasked).1
    rw [htype]
    exact ⟨by simp [Floodable], .inr (.inr hlong)⟩
  · next htype =>
    obtain ⟨env, hdecode⟩ :=
      Option.isSome_iff_exists.mp (handleRequest_asked_anonymous htype hasked).1
    rw [htype]
    exact ⟨by simp [Floodable], .inr (.inr (AnonReqEnvelope.length_of_decode hdecode))⟩
  · next htype =>
    rw [htype]
    exact ⟨by simp [Floodable], .inr (.inl rfl)⟩
  · simp at hasked

/-- What `pushHop` appends, and when it has room. -/
theorem pushHop_eq_some (n : Node) (hout : p.pushHop n.identity.pub = some out) :
    (p.path.length + p.pathHashSize ≤ kMaxPathSize ∧ p.hopCount < 63) ∧
      out = { p with path := p.path ++ n.identity.pub.take p.pathHashSize } := by
  rw [Packet.pushHop] at hout
  split at hout
  · simp at hout
  · split at hout
    · simp at hout
    · next hlong =>
      split at hout
      · simp at hout
      · next hmany => exact ⟨⟨Nat.le_of_not_lt hlong, by omega⟩, (Option.some.inj hout).symm⟩

/-- Unless it is a broken group packet, what the code floods on may be. -/
theorem mayFlood_of_floodsOn (hrelay : n.cfg.relay = true) (hon : FloodsOn lib m n p out)
    (hgroup : ¬ BrokenGroup n p) : MayFlood lib n p out := by
  obtain ⟨hflood, hasked, hhops, hpushed⟩ := hon
  obtain ⟨hroom, hcopy⟩ := pushHop_eq_some n hpushed
  obtain ⟨hkind, hformed⟩ := formed_of_asked hasked
  have hlong : envelopeSize p.type ≤ p.payload.length := by
    by_contra hshort
    have hshort' := Nat.lt_of_not_le hshort
    rcases hformed with htxt | hdata | hlong
    · exact hgroup ⟨hrelay, .inl htxt, hshort', hflood, hhops, hroom⟩
    · exact hgroup ⟨hrelay, .inr hdata, hshort', hflood, hhops, hroom⟩
    · exact hshort hlong
  rw [handle] at hasked
  refine ⟨hflood, hhops, hroom, hkind, hlong, ?_, ?_, ?_, ?_, ?_, hcopy⟩
  · intro htype
    rw [htype] at hasked
    exact handleAdvert_asked hasked
  · intro htype
    rw [htype] at hasked
    exact (handleAck_asked htype hasked).2
  · rintro (htype | htype | htype)
    · rw [htype] at hasked
      exact (handleText_asked hasked).2
    · rw [htype] at hasked
      exact (handleRequest_asked (by simp [htype]) hasked).2
    · rw [htype] at hasked
      exact (handleRequest_asked (by simp [htype]) hasked).2
  · intro htype
    rw [htype] at hasked
    exact (handleRequest_asked_anonymous htype hasked).2
  · intro htype
    rw [htype] at hasked
    exact (handlePath_asked hasked).2

theorem mayPass_of_passesOn (hon : PassesOn lib m n p out) : MayPass n p out := by
  obtain ⟨hdirect, htrace, hcontrol, htransit, hunmatched, hnamed, hmultipart, hpopped⟩ := hon
  refine ⟨hdirect, hmultipart, hcontrol, ?_, fun htype => handleAck_asked htype (hunmatched htype),
    ?_⟩
  · rw [NamesUs, if_neg htrace]
    exact ⟨htransit, hnamed⟩
  · rw [if_neg htrace, hpopped, Packet.popHop]
    split
    · next hshort =>
      -- The next hop is not empty, so the path holds a whole hash.
      rw [Packet.firstHop, if_pos hshort] at hnamed
      exact absurd rfl hnamed.1
    · rfl

theorem mayPass_of_tracesOn (hon : TracesOn n p out) : MayPass n p out := by
  obtain ⟨hdirect, htrace, -, -, hroute, hnamed, hheard⟩ := hon
  refine ⟨hdirect, by simp [htrace], by simp [htrace], ?_, by simp [htrace], ?_⟩
  · rw [NamesUs, if_pos htrace]
    exact ⟨hroute, hnamed⟩
  · rw [if_pos htrace]
    exact hheard

/-- An answer is never a copy of what it answers. -/
theorem AnswerTo.not_copy (hanswer : AnswerTo p out) (htype : out.type = p.type) :
    out.route ≠ p.route := by
  intro hroute
  have hflood : out.isFlood = p.isFlood := by rw [Packet.isFlood, hroute, Packet.isFlood]
  cases hanswer with
  | pathReturn hkind _ hout _ => simp [hkind, hout] at htype
  | ack hkind _ hout => simp [hkind, hout] at htype
  | offer _ hflooded _ hdirect =>
      rw [Packet.isDirect_eq_not_isFlood, hflood, hflooded] at hdirect
      simp at hdirect

/-- A broken group packet is flooded on. -/
theorem retransmissions_of_brokenGroup (hp : p.FromAir) (hgroup : BrokenGroup n p) :
    ∃ out, n.retransmissions lib m p = [out] := by
  obtain ⟨hrelay, hkind, -, hflood, hhops, hroom⟩ := hgroup
  have hkey : p.pathHashSize ≤ n.identity.pub.length := by
    rw [n.identity.pub_length]
    exact hp.fits.size_le.trans (by decide)
  have hpushed := hp.pushHop_eq hkey hroom.1 hroom.2
  have hvalid := (hp.pushed hpushed).valid
  have hasked : (n.handle lib m p).1 = true := by
    rcases hkind with htype | htype <;> rw [handle, htype]
  have hdirect : p.isDirect = false := by rw [Packet.isDirect_eq_not_isFlood, hflood]; rfl
  have hhandled : Handled lib m n p (n.handle lib m p) := handled_handle
  have hlocal : n.onPacket lib m p = (n.handle lib m p).2.maybeRepeat lib m p := by
    rw [onPacket, hdirect, if_neg (by simp), if_neg (by simp), if_neg (by simp)]
    generalize n.handle lib m p = result at hasked ⊢
    rcases result with ⟨asked, n'⟩
    obtain rfl : asked = true := hasked
    rfl
  generalize n.handle lib m p = result at hasked hhandled hlocal
  cases hhandled with
  | onward hair hcfg =>
      refine ⟨{ p with path := p.path ++ n.identity.pub.take p.pathHashSize }, ?_⟩
      rw [← hcfg] at hrelay hhops
      rw [← identity_eq hair] at hpushed hvalid ⊢
      rw [retransmissions, queuedBy, hlocal, maybeRepeat_eq hrelay hflood hhops hpushed,
        takenOn_nodeTransmit (.of_eq hair), if_pos hvalid]
      simp
  | quiet hkept => simp at hasked
  | answered hkept hanswer => simp at hasked

/-- **The relay policy.** For every state of a node and every packet it decodes,
the policy is kept if and only if the packet is not a group packet too short to be
an envelope that nothing else keeps from being repeated. -/
theorem relay_policy_iff {raw : Bytes} {decoded : Packet}
    (hdecode : Packet.decode raw = some decoded) (rssi snrQ4 : Int) (lib : Crypto.Library)
    (m : Moment) (n : Node) :
    RelayPolicy lib m n { decoded with rssi, snrQ4 } ↔
      ¬ BrokenGroup n { decoded with rssi, snrQ4 } := by
  have hp : { decoded with rssi, snrQ4 }.FromAir :=
    (Packet.fromAir_of_decode hdecode).heard rssi snrQ4
  generalize { decoded with rssi, snrQ4 } = p at hp ⊢
  constructor
  · rintro ⟨-, hallowed⟩ hgroup
    obtain ⟨out, hout⟩ := retransmissions_of_brokenGroup (m := m) hp hgroup
    rcases (hallowed out (by rw [hout]; simp)).2 with hflood | hpass
    · exact absurd hflood.formed (Nat.not_le.mpr hgroup.short)
    · have hdirect := hpass.direct
      rw [Packet.isDirect_eq_not_isFlood, hgroup.flood] at hdirect
      simp at hdirect
  · intro hgroup
    have hfilter : ∀ out ∈ n.retransmissions lib m p, out ∈ n.queuedBy lib m p ∧
        out.route = p.route ∧ out.type = p.type := by
      intro out hout
      have hmem := List.mem_filter.mp hout
      exact ⟨hmem.1, by simpa using (of_decide_eq_true hmem.2).1,
        (of_decide_eq_true hmem.2).2.1⟩
    have hcount : (n.retransmissions lib m p).length ≤ (n.queuedBy lib m p).length :=
      List.length_filter_le _ _
    rcases queuedBy_cases (m := m) n p with hnone | ⟨out, hone, -, hreason⟩
    · rw [hnone] at hcount hfilter
      refine ⟨by simpa using hcount.trans (Nat.zero_le 1), fun out hout => ?_⟩
      exact absurd (hfilter out hout).1 (by simp)
    · rw [hone] at hcount hfilter
      refine ⟨by simpa using hcount, fun other hother => ?_⟩
      obtain ⟨hmem, hroute, htype⟩ := hfilter other hother
      obtain rfl := List.mem_singleton.mp hmem
      rcases hreason with hanswer | ⟨hrelay, hflood | hpass | htrace⟩
      · exact absurd hroute (hanswer.not_copy htype)
      · exact ⟨hrelay, .inl (mayFlood_of_floodsOn hrelay hflood hgroup)⟩
      · exact ⟨hrelay, .inr (mayPass_of_passesOn hpass)⟩
      · exact ⟨hrelay, .inr (mayPass_of_tracesOn htrace)⟩

/-! ## Two bytes on a channel -/

/-- A relay that knows nobody. -/
def relayNode : Node :=
  new 10 16 8
    { pub := List.replicate 32 7, priv := List.replicate 32 7, pub_length := by decide } {} 0
    { relay := true } {} {} fun _ => none

/-- A flooded group text of two bytes: a channel hash and half a MAC. -/
def stubBytes : Bytes := [0x15, 0x00, 0xAA, 0xBB]

def stub : Packet := { type := .grpTxt, payload := [0xAA, 0xBB] }

/-- The relay floods the two bytes on. -/
theorem relay_policy_stub :
    Packet.decode stubBytes = some stub ∧
      ¬ RelayPolicy Library.transparent { radio := .down } relayNode stub := by
  refine ⟨by decide +kernel, ?_⟩
  rintro ⟨-, hallowed⟩
  have hcopies : relayNode.retransmissions Library.transparent { radio := .down } stub =
      [{ stub with path := [7] }] := by decide +kernel
  rcases (hallowed _ (by rw [hcopies]; exact List.mem_singleton_self _)).2 with hflood | hpass
  · exact absurd hflood.formed (by decide)
  · exact absurd hpass.direct (by decide)

/-- Three more bytes make it an envelope, and the relay keeps the policy. -/
theorem relay_policy_envelope :
    RelayPolicy Library.transparent { radio := .down } relayNode
      { type := .grpTxt, payload := [0xAA, 0xBB, 0xCC, 0xDD, 0xEE] } := by
  have hdecode : Packet.decode [0x15, 0x00, 0xAA, 0xBB, 0xCC, 0xDD, 0xEE] =
      some { type := .grpTxt, payload := [0xAA, 0xBB, 0xCC, 0xDD, 0xEE] } := by decide +kernel
  refine (relay_policy_iff hdecode 0 0 Library.transparent { radio := .down } relayNode).mpr ?_
  intro hgroup
  exact absurd hgroup.short (by decide)

end Coreletd.Mesh.Node
