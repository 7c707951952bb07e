/-
# Delay against lifetime

A relay holds a routed packet back by up to its own airtime, and drops it when a
lifetime that only its priority decides has run out. At a slow setting the first
can be longer than the second.
-/

import Coreletd.Mesh.Reception
import Coreletd.Mesh.SentWhenDue

namespace Coreletd.Mesh

open Coreletd.Crypto
open Coreletd.Daemon
open Coreletd.Proto
open Coreletd.Radio

/-! ## What a reception hands over -/

namespace Node

variable {lib : Crypto.Library} {m : Moment} {n : Node} {p : Packet}

/-- Whatever the dispatcher took on between two nodes is as `P` says. -/
def Adds (P : Queued Nat → Prop) (n n' : Node) : Prop :=
  ∃ fresh, n'.air.takenOn = fresh ++ n.air.takenOn ∧ ∀ q ∈ fresh, P q

variable {P : Queued Nat → Prop}

theorem Adds.of_kept {n' : Node} (hkept : AirKept n n') : Adds P n n' :=
  ⟨[], hkept.takenOn, by simp⟩

theorem Adds.trans {n' n'' : Node} (hfirst : Adds P n n') (hsecond : Adds P n' n'') :
    Adds P n n'' := by
  obtain ⟨first, hfirst, hallFirst⟩ := hfirst
  obtain ⟨second, hsecond, hallSecond⟩ := hsecond
  refine ⟨second ++ first, by rw [hsecond, hfirst, List.append_assoc], fun q hq => ?_⟩
  exact (List.mem_append.mp hq).elim (hallSecond q) (hallFirst q)

theorem Adds.since {n' : Node} (hadds : Adds P n n') :
    ∀ q ∈ Dispatcher.takenOnSince n.air n'.air, P q := by
  obtain ⟨fresh, happend, hall⟩ := hadds
  rw [Dispatcher.takenOnSince_of_append happend]
  exact hall

theorem Adds.sent {air' : Air} {out : Packet} {priority : UInt8} {delayMs : UInt32}
    {onResult : Option Nat} (hair : air' = (Dispatcher.send ReliableSender.onTxResult lib m.radio
      n.air out priority delayMs onResult).2)
    (hentry : out.valid = true → P (n.air.entry out priority delayMs onResult)) :
    Adds P n { n with air := air' } := by
  refine ⟨_, by rw [hair]; exact Dispatcher.takenOn_send lib out priority delayMs onResult, ?_⟩
  intro q hq
  split at hq
  next hvalid =>
    obtain rfl := List.mem_singleton.mp hq
    exact hentry hvalid
  next => exact absurd hq List.not_mem_nil

theorem adds_transmit {out : Packet} {priority : UInt8} {delayMs : UInt32}
    (hentry : out.valid = true → P (n.air.entry out priority delayMs none)) :
    Adds P n (n.transmit lib m out priority delayMs) :=
  .sent rfl hentry

/-- What an answer is: urgent, at once or after the pause before a route is
offered again. -/
structure AnswerEntry (q : Queued Nat) : Prop where
  valid : q.packet.valid = true
  priority : q.priority = kPriorityAck
  delay : q.delayMs = 0 ∨ q.delayMs = kReturnPathRetryMs

theorem Answer.delay {out : Packet} {delayMs : UInt32} (hanswer : Answer lib m n p out delayMs) :
    delayMs = 0 ∨ delayMs = kReturnPathRetryMs := by
  cases hanswer with
  | returned => exact .inl rfl
  | acked => exact .inl rfl
  | offeredAgain => exact .inr rfl
  | offered => exact .inl rfl

/-- Reading a packet adds answers only. -/
theorem Reads.adds {result : Bool × Node} (hreads : Reads lib m n p result) :
    Adds AnswerEntry n result.2 := by
  cases hreads with
  | onward hair => exact .of_kept (.of_eq hair)
  | quiet hkept => exact .of_kept hkept
  | answered hkept hanswer =>
      exact Adds.trans (.of_kept hkept) (adds_transmit fun hvalid => ⟨hvalid, rfl, hanswer.delay⟩)

/-- A packet that a relay holds back by its airtime before it sends it on: a
direct one in transit, but for an ack, and a trace. -/
def Staggered (p : Packet) : Prop :=
  p.isDirect = true ∧ (p.type = .trace ∨ 0 < p.hopCount ∧ p.type ≠ .ack)

instance (p : Packet) : Decidable (Staggered p) := inferInstanceAs (Decidable (_ ∧ _))

/-- The bytes of a packet sent on: a trace grows by a reading, any other loses a
hop. -/
def onwardSize (p : Packet) : Nat :=
  if p.type = .trace then p.encode.length + 1 else p.popHop.encode.length

/-- The priority a packet is sent on with. -/
def onwardPriority (p : Packet) : UInt8 :=
  if p.type = .trace then kPriorityAdvert else kPriorityAck

/-- How a packet that is held back by its airtime is handed over. -/
structure HeldBack (m : Moment) (p : Packet) (q : Queued Nat) : Prop where
  size : q.packet.encode.length = onwardSize p
  priority : q.priority = onwardPriority p
  delay : q.delayMs = directRetransmitDelay m q.packet

/-- What is handed over on a packet's account. -/
structure HandedFor (m : Moment) (p : Packet) (q : Queued Nat) : Prop where
  valid : q.packet.valid = true
  urgency : 0 < q.priority.toNat
  staggered : Staggered p → HeldBack m p q
  prompt : ¬ Staggered p → q.delayMs.toNat < 10000 * q.priority.toNat

theorem AnswerEntry.handedFor {q : Queued Nat} (hanswer : AnswerEntry q)
    (hprompt : ¬ Staggered p) : HandedFor m p q := by
  refine ⟨hanswer.valid, by rw [hanswer.priority]; decide, fun h => absurd h hprompt, fun _ => ?_⟩
  rw [hanswer.priority]
  rcases hanswer.delay with hdelay | hdelay
  · rw [hdelay]
    decide
  · rw [hdelay]
    decide

theorem Adds.mono {Q : Queued Nat → Prop} {n' : Node} (hadds : Adds P n n')
    (himp : ∀ q, P q → Q q) : Adds Q n n' := by
  obtain ⟨fresh, happend, hall⟩ := hadds
  exact ⟨fresh, happend, fun q hq => himp q (hall q hq)⟩

theorem toNat_repeatDelay (stagger : UInt8) :
    ((100 : UInt32) + stagger.toUInt32 * 4).toNat = 100 + stagger.toNat * 4 := by
  have htop := stagger.toNat_lt
  rw [UInt32.toNat_add, UInt32.toNat_mul, UInt8.toNat_toUInt32,
    show (100 : UInt32).toNat = 100 from rfl,
    show (4 : UInt32).toNat = 4 from rfl]
  omega

/-- Whatever is handed over in one go is as it may be. -/
theorem Transmits.adds {May : Packet → UInt8 → UInt32 → Prop} {n' : Node}
    (hsent : Transmits lib m n May n')
    (hentry : ∀ out priority delayMs, May out priority delayMs → out.valid = true →
      P (n.air.entry out priority delayMs none)) : Adds P n n' := by
  cases hsent with
  | nothing => exact .of_kept (.refl n)
  | one hmay => exact adds_transmit (hentry _ _ _ hmay)

theorem adds_maybeRepeat (hprompt : ¬ Staggered p) :
    Adds (HandedFor m p) n (n.maybeRepeat lib m p) := by
  refine (transmits_maybeRepeat n p).adds fun out priority delayMs hout hvalid => ?_
  obtain ⟨-, -, -, -, rfl, rfl⟩ := hout
  refine ⟨hvalid, (by decide : 0 < kPriorityRepeat.toNat), fun h => absurd h hprompt, fun _ => ?_⟩
  have htop := m.stagger.toNat_lt
  show (100 + m.stagger.toUInt32 * 4 : UInt32).toNat < 10000 * kPriorityRepeat.toNat
  rw [toNat_repeatDelay, show kPriorityRepeat.toNat = 5 from rfl]
  omega

theorem adds_forwardTrace (hstaggered : Staggered p) (htrace : p.type = .trace) :
    Adds (HandedFor m p) n (n.forwardTrace lib m p) := by
  have hgrown : { p with path := p.path ++ [(clampSnr p).toUInt8] }.encode.length =
      onwardSize p := by
    rw [onwardSize, if_pos htrace, Packet.length_encode, Packet.length_encode,
      List.length_append, List.length_singleton]
    show 2 + (if p.hasTransportCodes then 4 else 0) + (p.path.length + 1) + p.payload.length = _
    omega
  refine (transmits_forwardTrace n p).adds fun out priority delayMs hout hvalid => ?_
  obtain ⟨-, -, -, -, -, rfl, rfl, rfl⟩ := hout
  refine ⟨hvalid, (by decide : 0 < kPriorityAdvert.toNat), fun _ => ⟨hgrown, ?_, rfl⟩,
    fun h => absurd hstaggered h⟩
  rw [onwardPriority, if_pos htrace]
  rfl

theorem adds_forwardDirect (hstaggered : Staggered p ↔ p.type ≠ .ack) (htrace : p.type ≠ .trace) :
    Adds (HandedFor m p) n (n.forwardDirect lib m p) := by
  refine (transmits_forwardDirect n p).adds fun out priority delayMs hout hvalid => ?_
  obtain ⟨-, -, -, rfl, rfl, rfl⟩ := hout
  refine ⟨hvalid, (by decide : 0 < kPriorityAck.toNat), fun h => ⟨?_, ?_, ?_⟩, fun h => ?_⟩
  · rw [onwardSize, if_neg htrace]
    rfl
  · rw [onwardPriority, if_neg htrace]
    rfl
  · exact if_neg (hstaggered.mp h)
  · have hack : p.type = .ack := not_not.mp fun hne => h (hstaggered.mpr hne)
    show (if p.type = .ack then (0 : UInt32) else directRetransmitDelay m p.popHop).toNat <
      10000 * kPriorityAck.toNat
    rw [if_pos hack]
    decide

/-- Everything a reception hands over has its delay from one of these. -/
theorem adds_onPacket (n : Node) (p : Packet) : Adds (HandedFor m p) n (n.onPacket lib m p) := by
  rw [onPacket]
  split
  · next htrace =>
    simp only [Bool.and_eq_true, decide_eq_true_eq] at htrace
    exact adds_forwardTrace ⟨htrace.1, .inl htrace.2⟩ htrace.2
  · next htrace =>
    split
    · exact .of_kept (.refl n)
    · split
      · next htransit =>
        simp only [Bool.and_eq_true, decide_eq_true_eq] at htransit htrace
        have hstaggered : Staggered p ↔ p.type ≠ .ack := by
          refine ⟨fun h hack => ?_, fun h => ⟨htransit.1, .inr ⟨htransit.2, h⟩⟩⟩
          rcases h.2 with htype | htype
          · exact htrace ⟨htransit.1, htype⟩
          · exact htype.2 hack
        have hother : p.type ≠ .trace := fun htype => htrace ⟨htransit.1, htype⟩
        rw [passOn]
        by_cases hack : p.type = .ack
        · have hread : Adds (HandedFor m p) n (n.handleAck lib m p).2 :=
            (reads_handleAck hack).adds.mono fun q hq => hq.handedFor fun h => hstaggered.mp h hack
          rw [if_pos hack]
          generalize n.handleAck lib m p = result at hread ⊢
          obtain ⟨_ | _, n'⟩ := result
          · exact hread
          · exact hread.trans (adds_forwardDirect hstaggered hother)
        · rw [if_neg hack]
          exact adds_forwardDirect hstaggered hother
      · next htransit =>
        simp only [Bool.and_eq_true, decide_eq_true_eq] at htransit htrace
        have hprompt : ¬ Staggered p := by
          rintro ⟨hdirect, htype | ⟨hhops, -⟩⟩
          · exact htrace ⟨hdirect, htype⟩
          · exact htransit ⟨hdirect, hhops⟩
        have hread : Adds (HandedFor m p) n (n.handle lib m p).2 :=
          reads_handle.adds.mono fun q hq => hq.handedFor hprompt
        generalize n.handle lib m p = result at hread ⊢
        obtain ⟨_ | _, n'⟩ := result
        · exact hread
        · exact hread.trans (adds_maybeRepeat hprompt)

theorem takenOn_hearing (raw : Bytes) (rssi snrQ4 : Int) :
    (n.hearing lib raw rssi snrQ4).air.takenOn = n.air.takenOn := by
  rw [Dispatcher.takenOn, hearing, (Dispatcher.quietly_onRadioRx lib n.air raw rssi snrQ4).trace]
  rfl

/-- Neither reading of the signal counts for what a packet is sent on as. -/
theorem onwardSize_heard (p : Packet) (rssi snrQ4 : Int) :
    onwardSize { p with rssi, snrQ4 } = onwardSize p := by
  have hpopped : { p with rssi, snrQ4 }.popHop.encode = p.popHop.encode := by
    rw [Packet.popHop, Packet.popHop]
    split <;> rfl
  rw [onwardSize, onwardSize, hpopped]
  rfl

/-- Everything a reception hands over is handed over for the packet it decodes to. -/
theorem handedFor_receive {raw : Bytes} {decoded : Packet}
    (hdecode : Packet.decode raw = some decoded)
    (n : Node) (rssi snrQ4 : Int) {q : Queued Nat}
    (hq : q ∈ Dispatcher.takenOnSince n.air (n.receive lib raw rssi snrQ4 m).air) :
    HandedFor m decoded q := by
  have hheard : Adds (HandedFor m decoded) n (n.hearing lib raw rssi snrQ4) :=
    ⟨[], takenOn_hearing raw rssi snrQ4, by simp⟩
  refine Adds.since (P := HandedFor m decoded) ?_ q hq
  rw [receive_eq, (Dispatcher.onRadioRx_decoded lib hdecode n.air rssi snrQ4).1]
  split
  · exact hheard
  · refine hheard.trans ((adds_onPacket _ _).mono fun q' hq' => ?_)
    refine ⟨hq'.valid, hq'.urgency, fun h => ⟨?_, (hq'.staggered h).priority,
      (hq'.staggered h).delay⟩, hq'.prompt⟩
    rw [(hq'.staggered h).size, onwardSize_heard]

/-- The share of its airtime that a packet is held back for is shorter than its
lifetime. -/
def InTime (m : Moment) (p : Packet) : Prop :=
  Staggered p →
    m.stagger.toNat * (m.radio.airtimeMs (onwardSize p)).toNat <
      255 * (10000 * (onwardPriority p).toNat)

instance (m : Moment) (p : Packet) : Decidable (InTime m p) :=
  inferInstanceAs (Decidable (_ → _))

theorem toNat_directRetransmitDelay {params : RadioParams} (haccepted : RadioAccepted params)
    (hairtime : m.radio.airtimeMs = params.airtimeMs) {out : Packet} (hvalid : out.valid = true) :
    (directRetransmitDelay m out).toNat =
      m.stagger.toNat * (m.radio.airtimeMs out.encode.length).toNat / 255 := by
  have hsize : out.encode.length ≤ 255 := Packet.length_encode_le_of_valid hvalid
  have hlimit : (m.radio.airtimeMs out.encode.length).toNat ≤ 900000 := by
    rw [hairtime]
    exact toNat_airtimeMs_le haccepted hsize
  have hstagger : m.stagger.toNat ≤ 255 := by
    have htop := m.stagger.toNat_lt
    omega
  -- The product stays below a word for every airtime the config allows.
  have hproduct : m.stagger.toNat * (m.radio.airtimeMs out.encode.length).toNat ≤ 255 * 900000 :=
    Nat.mul_le_mul hstagger hlimit
  rw [directRetransmitDelay, UInt32.toNat_div, UInt32.toNat_mul, UInt8.toNat_toUInt32,
    Nat.mod_eq_of_lt (by omega)]
  rfl

/-- How long a delay the config allows can get. -/
theorem HandedFor.delay_lt {params : RadioParams} (haccepted : RadioAccepted params)
    (hairtime : m.radio.airtimeMs = params.airtimeMs) {q : Queued Nat} (hq : HandedFor m p q) :
    q.delayMs.toNat < 10000000 := by
  by_cases hstaggered : Staggered p
  · have hlimit : (m.radio.airtimeMs q.packet.encode.length).toNat ≤ 900000 := by
      rw [hairtime]
      exact toNat_airtimeMs_le haccepted (Packet.length_encode_le_of_valid hq.valid)
    have hstagger : m.stagger.toNat ≤ 255 := by
      have htop := m.stagger.toNat_lt
      omega
    rw [(hq.staggered hstaggered).delay, toNat_directRetransmitDelay haccepted hairtime hq.valid]
    have hproduct : m.stagger.toNat * (m.radio.airtimeMs q.packet.encode.length).toNat ≤
        255 * 900000 := Nat.mul_le_mul hstagger hlimit
    omega
  · have hprompt := hq.prompt hstaggered
    have hpriority := q.priority.toNat_lt
    omega

/-- A packet outlives its delay just when the share of its airtime is short
enough. -/
theorem HandedFor.outlives_iff {params : RadioParams} (haccepted : RadioAccepted params)
    (hairtime : m.radio.airtimeMs = params.airtimeMs) {q : Queued Nat} (hq : HandedFor m p q) :
    q.delayMs.toNat < 10000 * q.priority.toNat ↔ InTime m p := by
  by_cases hstaggered : Staggered p
  · have hheld := hq.staggered hstaggered
    have hintime : InTime m p ↔ m.stagger.toNat * (m.radio.airtimeMs (onwardSize p)).toNat <
        255 * (10000 * (onwardPriority p).toNat) :=
      ⟨fun h => h hstaggered, fun h _ => h⟩
    rw [hintime, hheld.delay, toNat_directRetransmitDelay haccepted hairtime hq.valid, hheld.size,
      hheld.priority, Nat.div_lt_iff_lt_mul (by decide), Nat.mul_comm 255]
  · exact ⟨fun _ h => absurd h hstaggered, fun _ => hq.prompt hstaggered⟩

/-- **Delay against lifetime.** A packet that a reception hands over outlives its
delay just when the share of airtime it is held back for is short enough, and
then it goes out on an idle radio that has budget for it. -/
theorem forwarded_in_time_iff (lib : Crypto.Library) {params : RadioParams}
    (haccepted : RadioAccepted params) (hairtime : m.radio.airtimeMs = params.airtimeMs)
    (n : Node) {raw : Bytes} {decoded : Packet} (hdecode : Packet.decode raw = some decoded)
    (rssi snrQ4 : Int) {q : Queued Nat}
    (hq : q ∈ Dispatcher.takenOnSince n.air (n.receive lib raw rssi snrQ4 m).air) :
    (q.delayMs.toNat < 10000 * q.priority.toNat ↔ InTime m decoded) ∧
    ∀ {σ : Type} (call : Dispatcher.Handler Nat σ) (client : σ) (radio : RadioView), radio.Idle →
      radio.airtimeMs = params.airtimeMs →
      (Dispatcher.SentWhenDue lib call radio params.dutyCyclePct client q.packet q.priority
          q.delayMs ↔
        InTime m decoded ∧
          Affordable params.dutyCyclePct (params.airtimeMs q.packet.encode.length)) := by
  have hhanded := handedFor_receive hdecode n rssi snrQ4 hq
  have houtlives := hhanded.outlives_iff haccepted hairtime
  refine ⟨houtlives, ?_⟩
  intro σ call client radio hidle hradio
  have hpercent : 0 < params.dutyCyclePct := by
    have hduty := haccepted.dutyCycle
    rw [validDutyCycle, Bool.and_eq_true, decide_eq_true_eq] at hduty
    exact hduty.1
  have hdelay : q.delayMs.toNat < 2 ^ 31 :=
    (hhanded.delay_lt haccepted hairtime).trans (by norm_num)
  rw [Dispatcher.sentWhenDue_iff lib hpercent hidle client hhanded.valid hhanded.urgency hdelay,
    houtlives, hradio]

/-! ## A slow setting -/

deriving instance DecidableEq for Queued

/-- A narrow setting, at any spreading factor. -/
def narrowParams (sf : UInt8) : RadioParams := { freqMhz := 869.525, bwKhz := 31.25, sf }

/-- A relay that the byte 7 of a route names. -/
def routeRelay : Node :=
  new 10 16 8
    { pub := 7 :: List.replicate 31 7, priv := List.replicate 32 7, pub_length := by decide } {} 0
    { relay := true } {} {} fun _ => none

/-- A text on its way over two hops. -/
def routedText : Packet :=
  { type := .txtMsg, route := .direct, path := [7, 8], payload := List.replicate 90 1 }

/-- The moment the largest random byte is drawn. -/
def lastMoment (sf : UInt8) : Moment :=
  { radio := { airtimeMs := (narrowParams sf).airtimeMs }, stagger := 255 }

/-- What the relay takes on of it. -/
def heldText (sf : UInt8) : Queued Nat :=
  routeRelay.air.entry { routedText with path := [8] } kPriorityAck
    (directRetransmitDelay (lastMoment sf) { routedText with path := [8] }) none

theorem radioAccepted_narrow {sf : UInt8} (hsf : 5 ≤ sf ∧ sf ≤ 12) :
    RadioAccepted (narrowParams sf) :=
  ⟨(by decide +kernel : validFreq 869.525 = true),
    (by decide +kernel : supportedBandwidth 31.25 = true), hsf,
    (by decide : (5 : UInt8) ≤ 5 ∧ (5 : UInt8) ≤ 8),
    (by decide : kMinTxPowerDbm ≤ 22 ∧ 22 ≤ kMaxTxPowerDbm),
    (by decide +kernel : validDutyCycle 10 = true)⟩

/-- At spreading factor 12 the relay takes the text on for longer than it may
live, and never sends it. -/
theorem forwarded_too_late :
    RadioAccepted (narrowParams 12) ∧ Packet.decode routedText.encode = some routedText ∧
    Dispatcher.takenOnSince routeRelay.air
      (routeRelay.receive Library.transparent routedText.encode 0 0 (lastMoment 12)).air =
        [heldText 12] ∧
    ¬ (heldText 12).delayMs.toNat < 10000 * (heldText 12).priority.toNat ∧
    ¬ Dispatcher.SentWhenDue Library.transparent ReliableSender.onTxResult
      { airtimeMs := (narrowParams 12).airtimeMs } (narrowParams 12).dutyCyclePct
      routeRelay.air.client (heldText 12).packet (heldText 12).priority (heldText 12).delayMs := by
  have hlate : ¬ (heldText 12).delayMs.toNat < 10000 * (heldText 12).priority.toNat := by
    decide +kernel
  refine ⟨radioAccepted_narrow (by decide), by decide +kernel, by decide +kernel, hlate, ?_⟩
  rw [Dispatcher.sentWhenDue_iff _ (by decide +kernel) ⟨rfl, rfl, rfl, rfl, rfl⟩ _
    (by decide +kernel) (by decide) (by decide +kernel)]
  exact fun h => hlate h.1

/-- At spreading factor 7 it lives long enough. -/
theorem forwarded_in_time_fast :
    (heldText 7).delayMs.toNat < 10000 * (heldText 7).priority.toNat :=
  (forwarded_in_time_iff Library.transparent (radioAccepted_narrow (by decide)) (m := lastMoment 7)
    rfl routeRelay (by decide +kernel : Packet.decode routedText.encode = some routedText) 0 0
    (q := heldText 7)
    (by
      rw [show Dispatcher.takenOnSince routeRelay.air
        (routeRelay.receive Library.transparent routedText.encode 0 0 (lastMoment 7)).air =
          [heldText 7] by decide +kernel]
      exact List.mem_singleton_self _)).1.mpr (by decide +kernel)

end Node

end Coreletd.Mesh
