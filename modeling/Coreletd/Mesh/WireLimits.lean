/-
# What a reception builds fits the wire

A relayed packet gains a hop, loses one, or gains a reading, and an answer takes the
route of what it answers along. All of that stays within the limits of the codec, but
for one packet: a trace of 63 readings is given one more, and a path length counts no
further than 63.
-/

import Coreletd.Mesh.AckAgreement
import Coreletd.Mesh.Reception
import Coreletd.Mesh.StoredMail

namespace Coreletd.Mesh

open Coreletd.Crypto
open Coreletd.Proto

namespace Node

variable {lib : Crypto.Library} {m : Moment} {n : Node} {p : Packet}

/-! ## Handing over -/

/-- The reception of `p` ends by handing `out` to `Dispatcher::send`, of which nothing
was asked before. -/
def Handed (lib : Crypto.Library) (m : Moment) (n : Node) (p out : Packet) : Prop :=
  ∃ before priority delayMs, AirKept n before ∧
    n.onPacket lib m p = before.transmit lib m out priority delayMs

/-- A packet that travels: it is valid, so it is queued, and the next hop decodes it as
it is, the end of its path included. -/
structure Travels (lib : Crypto.Library) (m : Moment) (n : Node) (p out : Packet) : Prop where
  valid : out.valid = true
  queued : n.queuedBy lib m p = [out]
  arrives : ∃ again, Packet.decode out.encode = some again ∧ Packet.SameOnAir out again

/-- Everything that is handed over for a packet travels. -/
def FitsTheWire (lib : Crypto.Library) (m : Moment) (n : Node) (p : Packet) : Prop :=
  ∀ out, Handed lib m n p out → Travels lib m n p out

/-- Nothing is handed over from `n` to `n'`, or one packet that is as `P` says. -/
inductive Hands (lib : Crypto.Library) (m : Moment) (P : Packet → Prop) (n : Node) : Node → Prop
  | nothing {n' : Node} (hkept : AirKept n n') : Hands lib m P n n'
  | one {before : Node} {out : Packet} {priority : UInt8} {delayMs : UInt32}
      (hkept : AirKept n before) (hout : P out) :
      Hands lib m P n (before.transmit lib m out priority delayMs)

variable {P : Packet → Prop}

theorem Hands.refl (n : Node) : Hands lib m P n n := .nothing (.refl n)

theorem Hands.after {n' n'' : Node} (hhands : Hands lib m P n' n'') (hkept : AirKept n n') :
    Hands lib m P n n'' := by
  cases hhands with
  | nothing hquiet => exact .nothing (hkept.trans hquiet)
  | one hquiet hout => exact .one (hkept.trans hquiet) hout

/-! ## The answers -/

/-- The routes a node holds can be counted. -/
def RoutesCounted (n : Node) : Prop :=
  ∀ c ∈ n.contacts.contacts, c.pathKnown = true → c.outPath.length ≤ 63

/-- An ack goes along a stored route, or floods. -/
theorem fromAir_routed_ack {dest : Contact}
    (hroute : dest.pathKnown = true → dest.outPath.length ≤ 63) {ack : Bytes} (hne : ack ≠ [])
    (hack : ack.length ≤ 6) : (routed dest false { type := .ack, payload := ack }).FromAir := by
  have hpayload : ack.length ≤ kMaxPayloadSize := hack.trans (by decide)
  rw [routed]
  split
  next hknown =>
    have hshort := hroute (by simpa using hknown)
    exact ⟨(Via.fits_of_length hshort).pathFits rfl rfl, hne, hpayload, rfl⟩
  next => exact ⟨Via.fits_nil.pathFits rfl rfl, hne, hpayload, rfl⟩

/-- An answer carries little, and its route came off the air or can be counted. -/
theorem Answer.fromAir (hciphers : lib.Ciphers) (hroutes : RoutesCounted n) (hp : p.FromAir)
    {out : Packet} {delayMs : UInt32} (hanswer : Answer lib m n p out delayMs) : out.FromAir := by
  cases hanswer with
  | @returned self sender shared plaintext msg extraType _ _ hopened =>
      have hack := length_ackOf lib m n.identity sender plaintext msg
      exact fromAir_pathPacket hciphers (length_encode_pathReturn hp.fits extraType hack) (by simp)
  | @acked sender plaintext msg _ _ hopened hne =>
      exact fromAir_routed_ack (hroutes sender hopened.mem) hne
        (length_ackOf lib m n.identity sender plaintext msg)
  | offeredAgain _ _ hcontact hknown =>
      refine fromAir_pathPacket hciphers (length_encode_pathReturn hp.fits 0 (by simp)) ?_
      exact fun via hvia => Option.some.inj hvia ▸ Via.fits_of_length (hroutes _ hcontact hknown)
  | offered _ _ hret =>
      refine fromAir_pathPacket hciphers (length_encode_pathReturn hp.fits 0 (by simp)) ?_
      exact fun via hvia => Option.some.inj hvia ▸ PathReturn.pathFits_of_decode hret

theorem Reads.hands (hciphers : lib.Ciphers) (hroutes : RoutesCounted n) (hp : p.FromAir)
    {result : Bool × Node} (hreads : Reads lib m n p result) :
    Hands lib m Packet.FromAir n result.2 := by
  cases hreads with
  | onward hair => exact .nothing (.of_eq hair)
  | quiet hkept => exact .nothing hkept
  | answered hkept hanswer => exact .one hkept (hanswer.fromAir hciphers hroutes hp)

/-! ## The relayed packets -/

theorem SentOn.hands {before n' : Node} {may : Packet → Prop} (hsent : SentOn lib m before may n')
    (hfit : ∀ out, before.cfg.relay = true → may out → P out) : Hands lib m P before n' := by
  cases hsent with
  | nothing => exact .refl before
  | copy hrelay hmay => exact .one (.refl before) (hfit _ hrelay hmay)

/-- A trace that has as many readings as a path can count, and whose route names this
relay next. -/
structure FullTrace (n : Node) (p : Packet) : Prop where
  relay : n.cfg.relay = true
  direct : p.isDirect = true
  trace : p.type = .trace
  readings : p.pathHashSize = 1 ∧ p.path.length = 63
  onRoute : tracePosition p + traceWidth p ≤ p.payload.length
  named : subview p.payload (tracePosition p) (traceWidth p) =
    subview n.identity.pub 0 (traceWidth p)

/-- One more reading leaves a trace fit to travel, as long as it can be counted. -/
theorem fromAir_traced (hp : p.FromAir) (hsize : p.pathHashSize = 1) (hroom : p.path.length < 63)
    (reading : UInt8) : { p with path := p.path ++ [reading] }.FromAir := by
  have hlength : (p.path ++ [reading]).length ≤ 63 := by
    rw [List.length_append, List.length_singleton]
    exact hroom
  exact ⟨(Via.fits_of_length hlength).pathFits hsize rfl, hp.payload_ne, hp.payload_le, hp.version⟩

theorem hands_forwardTrace (hp : p.FromAir) (hdirect : p.isDirect = true) (htype : p.type = .trace)
    (hfull : ¬FullTrace n p) : Hands lib m Packet.FromAir n (n.forwardTrace lib m p) := by
  refine (sentOn_forwardTrace hdirect htype).hands fun out hrelay htraces => ?_
  obtain ⟨-, -, -, ⟨hsize, -⟩, hroute, hnamed, rfl⟩ := htraces
  have hcounted : p.path.length ≤ 63 := by
    have hhops := hp.fits.hops
    rwa [hsize, Nat.div_one] at hhops
  refine fromAir_traced hp hsize (lt_of_le_of_ne hcounted fun hreadings => ?_) _
  exact hfull ⟨hrelay, hdirect, htype, ⟨hsize, hreadings⟩, hroute, hnamed⟩

theorem hands_passOn (hciphers : lib.Ciphers) (hroutes : RoutesCounted n) (hp : p.FromAir)
    (hdirect : p.isDirect = true) (htrace : p.type ≠ .trace)
    (hcontrol : ¬(p.type = .control ∧ p.payload.headD 0 &&& 0x80 ≠ 0)) (hhops : 0 < p.hopCount) :
    Hands lib m Packet.FromAir n (n.passOn lib m p) := by
  rcases passOn_cases (m := m) (n := n) hdirect htrace hcontrol hhops with hsent | ⟨hack, -, -, heq⟩
  · refine hsent.hands fun out _ hpasses => ?_
    rw [hpasses.popped]
    exact hp.popped
  · rw [heq]
    exact (reads_handleAck hack).hands hciphers hroutes hp

/-- Whatever a reception hands over is a packet as the decoder returns them. -/
theorem hands_onPacket (hciphers : lib.Ciphers) (hroutes : RoutesCounted n) (hp : p.FromAir)
    (hfull : ¬FullTrace n p) : Hands lib m Packet.FromAir n (n.onPacket lib m p) := by
  have hway : Way lib m n p (n.onPacket lib m p) := onPacket_way n p
  generalize n.onPacket lib m p = n' at hway ⊢
  cases hway with
  | trace hdirect htype => exact hands_forwardTrace hp hdirect htype hfull
  | zeroHop => exact .refl n
  | transit hdirect htrace hcontrol hhops =>
    exact hands_passOn hciphers hroutes hp hdirect htrace hcontrol hhops
  | repeated _ hasked =>
    have hhandled : Handled lib m n p (n.handle lib m p) := handled_handle
    generalize n.handle lib m p = result at hasked hhandled
    cases hhandled with
    | onward hair =>
      refine Hands.after ((sentOn_maybeRepeat _ p).hands fun out _ hout => ?_) (.of_eq hair)
      exact hp.pushed hout.2.2
    | quiet => simp at hasked
    | answered => simp at hasked
  | kept => exact reads_handle.hands hciphers hroutes hp

/-! ## What was handed over -/

/-- A refused packet is counted, so it is no silence. -/
theorem transmit_ne_kept {before n' : Node} {out : Packet} {priority : UInt8} {delayMs : UInt32}
    (hbefore : AirKept n before) (hkept : AirKept n n') (hinvalid : out.valid = false) :
    before.transmit lib m out priority delayMs ≠ n' := by
  obtain ⟨client, hbefore⟩ := hbefore
  obtain ⟨client', hkept⟩ := hkept
  intro hsame
  have hcount := congrArg (·.air.stats.txDropped) hsame
  simp only [transmit, Dispatcher.send, hinvalid, Bool.not_false, if_true, hbefore, hkept] at hcount
  exact absurd hcount (Nat.succ_ne_self _)

/-- What was handed over is what is said of the reception, and it was queued. -/
theorem Hands.handed {out : Packet} (hhands : Hands lib m P n (n.onPacket lib m p))
    (hvalid : ∀ sent, P sent → sent.valid = true) (hhanded : Handed lib m n p out) :
    P out ∧ n.queuedBy lib m p = [out] := by
  obtain ⟨before, priority, delayMs, hkept, hout⟩ := hhanded
  have hqueued : n.queuedBy lib m p = if out.valid then [out] else [] := by
    rw [queuedBy, hout, takenOn_nodeTransmit hkept]
  rw [queuedBy] at hqueued ⊢
  generalize n.onPacket lib m p = after at hhands hout hqueued ⊢
  cases hhands with
  | nothing hquiet =>
    have hnone : Dispatcher.takenOnSince n.air after.air = [] :=
      Dispatcher.takenOnSince_of_append hquiet.takenOn
    have hinvalid : out.valid = false := by
      cases hcase : out.valid with
      | false => rfl
      | true => simp [hnone, hcase] at hqueued
    exact absurd hout.symm (transmit_ne_kept hkept hquiet hinvalid)
  | one hbefore hsent =>
    rw [takenOn_nodeTransmit hbefore, if_pos (hvalid _ hsent)] at hqueued ⊢
    split at hqueued
    next =>
      obtain rfl := (List.cons.inj hqueued).1
      exact ⟨hsent, rfl⟩
    next => simp at hqueued

/-- A trace with the reading it was heard at. -/
def traced (p : Packet) : Packet := { p with path := p.path ++ [(clampSnr p).toUInt8] }

/-- The trace that is full is given its 64th reading all the same. -/
theorem FullTrace.handed (hfull : FullTrace n p) : Handed lib m n p (traced p) := by
  obtain ⟨hrelay, hdirect, htype, ⟨hsize, hreadings⟩, hroute, hnamed⟩ := hfull
  refine ⟨n, kPriorityAdvert, directRetransmitDelay m (traced p), .refl n, ?_⟩
  rw [onPacket, hdirect, htype, if_pos (by decide), forwardTrace, hrelay]
  have hwidth : 0 < traceWidth p := by
    rw [traceWidth, Nat.one_shiftLeft]
    exact Nat.two_pow_pos _
  have hlong : ¬p.payload.length ≤ kTraceHeader := by
    rw [tracePosition] at hroute
    omega
  have hcounted : ¬(p.pathHashSize ≠ 1 ∨ kMaxPathSize ≤ p.path.length) := by
    rw [hsize, hreadings]
    decide
  rw [if_neg (by decide), if_neg hlong, if_neg hcounted]
  exact (if_neg (Nat.not_lt.mpr hroute)).trans (if_neg (not_not.mpr hnamed))

/-- 64 readings are more than a path length counts. -/
theorem FullTrace.invalid (hfull : FullTrace n p) : (traced p).valid = false := by
  obtain ⟨hsize, hreadings⟩ := hfull.readings
  have hhops : (traced p).hopCount = 64 := by
    simp [Packet.hopCount, traced, hsize, hreadings]
  rw [Packet.valid, hhops]
  split
  · rfl
  · split
    · rfl
    · exact if_pos (.inl (by decide))

/-- **What fits.** For every state of a node whose stored routes can be counted and every
packet it decodes, all that it hands over on the packet's account is valid, is queued and
decodes again, if and only if the packet is not a full trace that names the node. -/
theorem fits_the_wire_iff (hciphers : lib.Ciphers) (hroutes : RoutesCounted n) {raw : Bytes}
    {decoded : Packet} (hdecode : Packet.decode raw = some decoded) (rssi snrQ4 : Int)
    (m : Moment) :
    FitsTheWire lib m n { decoded with rssi, snrQ4 } ↔
      ¬FullTrace n { decoded with rssi, snrQ4 } := by
  have hp : { decoded with rssi, snrQ4 }.FromAir :=
    (Packet.fromAir_of_decode hdecode).heard rssi snrQ4
  generalize { decoded with rssi, snrQ4 } = p at hp ⊢
  constructor
  · intro hfits hfull
    have hvalid := (hfits _ hfull.handed).valid
    rw [hfull.invalid] at hvalid
    cases hvalid
  · intro hfull out hhanded
    have hhands := hands_onPacket (m := m) hciphers hroutes hp hfull
    obtain ⟨hout, hqueued⟩ := hhands.handed (fun _ hsent => hsent.valid) hhanded
    exact ⟨hout.valid, hqueued, Packet.decode_encode hout.version hout.payload_ne hout.valid⟩

/-! ## A trace over many hops -/

/-- A relay that the byte 1 of a route names. -/
def tracedRelay : Node := new 10 16 8 aliceKeys {} 0 { relay := true } {} {} fun _ => none

/-- A trace that was heard so many times, over a route that names the relay throughout. -/
def traceOver (readings : Nat) : Packet :=
  { type := .trace, route := .direct, path := List.replicate readings 40,
    payload := List.replicate kTraceHeader 0 ++ List.replicate (readings + 1) 1 }

/-- The 64th reading is given to a trace that then goes nowhere. -/
theorem full_trace_dropped :
    Packet.decode (traceOver 63).encode = some (traceOver 63) ∧
      ¬FitsTheWire Library.transparent { radio := .down } tracedRelay (traceOver 63) ∧
      tracedRelay.queuedBy Library.transparent { radio := .down } (traceOver 63) = [] := by
  have hfull : FullTrace tracedRelay (traceOver 63) :=
    ⟨rfl, rfl, rfl, by decide +kernel, by decide +kernel, by decide +kernel⟩
  refine ⟨by decide +kernel, fun hfits => ?_, by decide +kernel⟩
  have hvalid := (hfits _ hfull.handed).valid
  rw [hfull.invalid] at hvalid
  cases hvalid

/-- A trace of 62 readings goes on with 63. -/
theorem fits_the_wire_traced :
    FitsTheWire Library.transparent { radio := .down } tracedRelay (traceOver 62) := by
  refine (fits_the_wire_iff Library.transparent_lawful.ciphers (n := tracedRelay) ?_
    (by decide +kernel : Packet.decode (traceOver 62).encode = some (traceOver 62)) 0 0
    { radio := .down }).mpr ?_
  · rintro c hc
    cases hc
  · intro hfull
    exact absurd hfull.readings.2 (by decide +kernel)

end Node

end Coreletd.Mesh
