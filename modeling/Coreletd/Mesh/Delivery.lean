/-
# Delivered once, answered every time

A text is known by sender, time, kind and words, not by its attempt: retries are
copies of one message. The table of delivered messages remembers each for five
minutes from its last copy; a sweep takes out what is over, and only a table full
of live entries loses one early. So as long as copies keep coming within that
time, the first is handed to the app and no other. The answer to a copy does not
depend on the table at all.
-/

import Coreletd.Mesh.AckAgreement
import Coreletd.Mesh.Echo
import Coreletd.Mesh.Reception
import Mathlib.Data.List.Chain

namespace Coreletd.Mesh

open Coreletd.Crypto
open Coreletd.Library
open Coreletd.Library.SerialClock
open Coreletd.Proto
open ReliableSender

namespace Node

/-! ## The table -/

/-- The entries of one key. -/
def entriesOf (key : UInt64) (table : List (UInt64 × UInt32)) : List (UInt64 × UInt32) :=
  table.filter fun entry => entry.1 = key

section Table

variable {key other : UInt64} {expiry : UInt32} {table : List (UInt64 × UInt32)}

theorem any_iff_entriesOf : table.any (·.1 = key) = true ↔ entriesOf key table ≠ [] := by
  simp [entriesOf]

/-- Writing a key that occurs at most once leaves one entry of it. -/
theorem entriesOf_setDelivered (honce : (entriesOf key table).length ≤ 1) :
    entriesOf key (setDelivered key expiry table) = [(key, expiry)] := by
  rw [setDelivered]
  split
  · next hany =>
    obtain ⟨entry, hentry⟩ := List.length_eq_one_iff.mp
      (le_antisymm honce (List.length_pos_of_ne_nil (any_iff_entriesOf.mp hany)))
    have hkey : entry.1 = key := by
      have hmem : entry ∈ entriesOf key table := by simp [hentry]
      simpa using (List.mem_filter.mp hmem).2
    rw [entriesOf] at hentry ⊢
    rw [filter_modifyFirst (fun _ => by simp), hentry]
    simp [modifyFirst, hkey]
  · next hnone =>
    have hempty : entriesOf key table = [] := by
      by_contra hne
      exact hnone (any_iff_entriesOf.mpr hne)
    rw [entriesOf] at hempty ⊢
    rw [List.filter_append, hempty]
    simp

theorem entriesOf_setDelivered_other (hne : other ≠ key) :
    entriesOf key (setDelivered other expiry table) = entriesOf key table := by
  rw [setDelivered, entriesOf, entriesOf]
  split
  · refine filter_modifyFirst_of_disjoint ?_ table
    intro entry hentry
    have hother : entry.1 = other := by simpa using hentry
    simp [hother, hne]
  · rw [List.filter_append]
    simp [hne]

theorem length_setDelivered_le : (setDelivered key expiry table).length ≤ table.length + 1 := by
  rw [setDelivered]
  split
  · rw [length_modifyFirst]
    exact Nat.le_succ _
  · simp

theorem length_setDelivered_of_mem (hmem : entriesOf key table ≠ []) :
    (setDelivered key expiry table).length = table.length := by
  rw [setDelivered, if_pos (any_iff_entriesOf.mpr hmem), length_modifyFirst]

end Table

variable {lib : Crypto.Library} {m : Moment} {n n' : Node} {p : Packet}

theorem isDelivered_of_entry {key : UInt64} {deadline : Nat}
    (hentry : entriesOf key n.delivered = [(key, reading deadline)]) :
    n.isDelivered key = decide (0 < signed (reading deadline - n.air.nowMs)) := by
  have hfind : n.delivered.find? (·.1 = key) = some (key, reading deadline) := by
    rw [← List.head?_filter]
    exact congrArg List.head? hentry
  rw [isDelivered, hfind]

theorem isDelivered_of_none {key : UInt64} (hnone : entriesOf key n.delivered = []) :
    n.isDelivered key = false := by
  have hfind : n.delivered.find? (·.1 = key) = none := by
    rw [← List.head?_filter]
    exact congrArg List.head? hnone
  rw [isDelivered, hfind]

/-- A live entry survives the sweep. -/
theorem entriesOf_expireDelivered {key : UInt64} {deadline : Nat}
    (hentry : entriesOf key n.delivered = [(key, reading deadline)])
    (hlive : n.air.time < deadline) (hnear : deadline < n.air.time + 2 ^ 31) :
    entriesOf key n.expireDelivered.delivered = [(key, reading deadline)] := by
  have hahead : 0 < signed (reading deadline - n.air.nowMs) := signed_sub_pos_of_ahead hlive hnear
  rw [entriesOf] at hentry ⊢
  rw [expireDelivered, List.filter_comm, hentry]
  simp [hahead]

theorem entriesOf_expireDelivered_nil {key : UInt64} (hnone : entriesOf key n.delivered = []) :
    entriesOf key n.expireDelivered.delivered = [] := by
  rw [entriesOf] at hnone ⊢
  rw [expireDelivered, List.filter_comm, hnone]
  rfl

/-- With room for a live entry nothing live is given up. -/
theorem makeRoom_cases (hroom : n.expireDelivered.delivered.length < kMaxDelivered) (first : Nat) :
    n.makeRoom first = n ∨ n.makeRoom first = n.expireDelivered := by
  rw [makeRoom]
  split
  · right
    exact if_neg (Nat.not_le.mpr hroom)
  · exact .inl rfl

theorem length_makeRoom (hbound : n.delivered.length ≤ kMaxDelivered) (first : Nat) :
    (n.makeRoom first).delivered.length + 1 ≤ kMaxDelivered := by
  rw [makeRoom]
  split
  · have hswept : n.expireDelivered.delivered.length ≤ n.delivered.length :=
      List.length_filter_le _ _
    dsimp only
    split
    · next hfull =>
      have hpos : 0 < n.expireDelivered.delivered.length := lt_of_lt_of_le (by decide) hfull
      rw [List.length_eraseIdx_of_lt (Nat.mod_lt _ hpos)]
      omega
    · omega
  · omega

/-! ## Accepting a copy -/

/-- What the app is handed. -/
def storedFrom (p : Packet) (sender : Contact) (msg : TextMessage) : StoredMessage :=
  { senderPubkey := sender.pubkey
    timestamp := msg.timestamp
    txtType := msg.txtType
    text := msg.body
    snrQ4 := clampSnr p
    pathLen := companionPathLen p }

/-- A copy of a message that was delivered refreshes its entry and does no more. -/
theorem deliver_known {sender : Contact} {msg : TextMessage}
    (hknown : n.isDelivered (deliveryKey lib sender msg) = true) :
    n.deliver lib m p sender msg = n.refresh (deliveryKey lib sender msg) := by
  rw [deliver, firstDelivery, hknown]
  rfl

/-- A copy of any other is entered and stored. -/
theorem deliver_new {sender : Contact} {msg : TextMessage}
    (hnew : n.isDelivered (deliveryKey lib sender msg) = false) :
    n.deliver lib m p sender msg =
      storeMessage m ((n.makeRoom m.first).refresh (deliveryKey lib sender msg))
        (storedFrom p sender msg) := by
  rw [deliver, firstDelivery, hnew]
  rfl

/-- The table as it is when a message is entered. -/
def tableFor (lib : Crypto.Library) (m : Moment) (n : Node) (sender : Contact)
    (msg : TextMessage) : List (UInt64 × UInt32) :=
  if n.isDelivered (deliveryKey lib sender msg) then n.delivered
  else (n.makeRoom m.first).delivered

theorem delivered_deliver (sender : Contact) (msg : TextMessage) :
    (n.deliver lib m p sender msg).delivered =
      setDelivered (deliveryKey lib sender msg) (reading (n.air.time + 300000))
        (n.tableFor lib m sender msg) := by
  have hexpiry : n.air.nowMs + kDeliveredTtlMs = reading (n.air.time + 300000) :=
    reading_add_word _ _
  rw [tableFor]
  cases hknown : n.isDelivered (deliveryKey lib sender msg) with
  | true =>
      rw [deliver_known hknown, refresh, hexpiry]
      rfl
  | false =>
      have hair : (n.makeRoom m.first).air = n.air := by rw [makeRoom_eq]
      rw [deliver_new hknown, storeMessage, refresh, hair, hexpiry]
      rfl

/-- The table of `n`, or that table swept. -/
def Swept (n : Node) (table : List (UInt64 × UInt32)) : Prop :=
  table = n.delivered ∨ table = n.expireDelivered.delivered

theorem swept_tableFor (hroom : n.expireDelivered.delivered.length < kMaxDelivered)
    (sender : Contact) (msg : TextMessage) : Swept n (n.tableFor lib m sender msg) := by
  rw [tableFor]
  split
  · exact .inl rfl
  · rcases makeRoom_cases hroom m.first with heq | heq
    · rw [heq]
      exact .inl rfl
    · rw [heq]
      exact .inr rfl

/-- The table never outgrows its bound. -/
theorem length_deliver (hbound : n.delivered.length ≤ kMaxDelivered) (sender : Contact)
    (msg : TextMessage) : (n.deliver lib m p sender msg).delivered.length ≤ kMaxDelivered := by
  rw [delivered_deliver, tableFor]
  split
  · next hknown =>
    have hmem : entriesOf (deliveryKey lib sender msg) n.delivered ≠ [] := by
      intro hnone
      rw [isDelivered_of_none hnone] at hknown
      exact Bool.false_ne_true hknown
    rw [length_setDelivered_of_mem hmem]
    exact hbound
  · exact length_setDelivered_le.trans (length_makeRoom hbound m.first)

/-! ## Texts and their copies -/

/-- A direct text, as its sender would have to change it to make it another. -/
structure Text where
  sender : Bytes
  timestamp : UInt32
  txtType : UInt8
  text : Bytes
  deriving DecidableEq

/-- The key a text is delivered under. -/
def Text.key (lib : Crypto.Library) (t : Text) : UInt64 :=
  deliveryKey lib { pubkey := t.sender }
    { timestamp := t.timestamp, txtType := t.txtType, text := t.text }

/-- One copy of a text, opened. -/
structure Copy where
  packet : Packet
  sender : Contact
  plaintext : Bytes
  msg : TextMessage

/-- Which text it is a copy of: attempt and route make no difference. -/
def Copy.text (c : Copy) : Text :=
  { sender := c.sender.pubkey
    timestamp := c.msg.timestamp
    txtType := c.msg.txtType
    text := c.msg.text }

theorem key_text (c : Copy) : c.text.key lib = deliveryKey lib c.sender c.msg := rfl

/-- What `handleText` gets out of a packet: a text to us that opens under the key of
a contact and is of a supported type. -/
def opened (lib : Crypto.Library) (n : Node) (p : Packet) : Option Copy :=
  (DirectEnvelope.decode p.payload).bind fun env =>
    if env.destHash ≠ n.identity.id then none
    else
      (n.decryptFrom lib env.srcHash env.mac env.ciphertext).bind fun (sender, plaintext) =>
        (TextMessage.decode plaintext).bind fun msg =>
          if msg.txtType ≠ kTxtPlain ∧ msg.txtType ≠ kTxtCliData ∧
              msg.txtType ≠ kTxtSignedPlain then none
          else some { packet := p, sender, plaintext, msg }

/-- The copy an event brings, if the packet gets as far as `handleText`. -/
def copyIn (lib : Crypto.Library) (n : Node) : Event → Option Copy
  | .received raw rssi snrQ4 _ =>
      (Dispatcher.onRadioRx lib n.air raw rssi snrQ4).1.bind fun p =>
        if p.type = .txtMsg ∧ (p.isFlood = true ∨ p.hopCount = 0) then n.opened lib p else none
  | _ => none

/-- The time of a copy of the text, if the event brings one. -/
def copyTime (lib : Crypto.Library) (t : Text) (n : Node) (event : Event) : List Nat :=
  if (n.copyIn lib event).any (·.text = t) then [n.air.time] else []

/-- When copies of a text came in the course of a run. -/
def copyTimes (lib : Crypto.Library) (t : Text) : Node → List Event → List Nat
  | _, [] => []
  | n, event :: events =>
      copyTime lib t n event ++ copyTimes lib t (n.step lib event) events

/-- What `opened` gets out of a packet is what `handleText` accepts. -/
theorem opened_eq_some {c : Copy} : n.opened lib p = some c ↔
    c.packet = p ∧ OpenedTo lib n p c.sender c.plaintext ∧
      TextMessage.decode c.plaintext = some c.msg ∧ KnownText c.msg.txtType := by
  constructor
  · intro hopened
    rw [opened] at hopened
    obtain ⟨env, hdecode, hopened⟩ := Option.bind_eq_some_iff.mp hopened
    split at hopened
    · simp at hopened
    · next hours =>
      obtain ⟨⟨sender, plaintext⟩, hfound, hopened⟩ := Option.bind_eq_some_iff.mp hopened
      obtain ⟨msg, hmsg, hopened⟩ := Option.bind_eq_some_iff.mp hopened
      split at hopened
      · simp at hopened
      · next hkind =>
        obtain rfl := Option.some.inj hopened
        refine ⟨rfl, ⟨env, hdecode, not_not.mp hours, hfound⟩, hmsg, ?_⟩
        rw [KnownText]
        tauto
  · obtain ⟨packet, sender, plaintext, msg⟩ := c
    rintro ⟨rfl, ⟨env, hdecode, hdest, hfound⟩, hmsg, hknown⟩
    dsimp only at hdecode hfound hmsg hknown ⊢
    rw [opened, hdecode, Option.bind_some, if_neg (not_not.mpr hdest), hfound, Option.bind_some]
    dsimp only
    rw [hmsg, Option.bind_some, if_neg]
    rw [KnownText] at hknown
    tauto

/-- `handleText` touches nothing unless the packet opens. -/
theorem handleText_of_closed (hclosed : n.opened lib p = none) :
    (n.handleText lib m p).2 = n := by
  have hcase : TextCase lib m n p (n.handleText lib m p) := handleText_case n p
  generalize n.handleText lib m p = result at hcase ⊢
  cases hcase with
  | elsewhere => rfl
  | ignored => rfl
  | @accepted sender plaintext msg hopened hmsg hknown =>
      have hsome : n.opened lib p = some { packet := p, sender, plaintext, msg } :=
        opened_eq_some.mpr ⟨rfl, hopened, hmsg, hknown⟩
      rw [hclosed] at hsome
      simp at hsome

/-- What is known of a copy that opened. -/
structure Opened (lib : Crypto.Library) (n : Node) (p : Packet) (c : Copy) : Prop where
  packet : c.packet = p
  shared : c.sender.sharedSecret lib n.identity ≠ []
  kind : c.msg.txtType = kTxtPlain ∨ c.msg.txtType = kTxtSignedPlain ∨
    c.msg.txtType = kTxtCliData
  accepts : ∀ m, n.handleText lib m p = (false, n.acceptText lib m p c.sender c.plaintext c.msg)

/-- Only a contact with a usable key opens anything. -/
theorem OpenedTo.shared {sender : Contact} {plaintext : Bytes}
    (hopened : OpenedTo lib n p sender plaintext) : sender.sharedSecret lib n.identity ≠ [] := by
  obtain ⟨env, -, -, hfound⟩ := hopened
  rw [decryptFrom] at hfound
  obtain ⟨c, -, hopens⟩ := List.exists_of_findSome?_eq_some hfound
  dsimp only at hopens
  split at hopens
  · simp at hopens
  · next hshared =>
    obtain ⟨opened, -, hsame⟩ := Option.map_eq_some_iff.mp hopens
    rw [← (Prod.mk.inj hsame).1]
    exact hshared

theorem opened_spec {c : Copy} (hopened : n.opened lib p = some c) : Opened lib n p c := by
  obtain ⟨hpacket, hopens, hmsg, hknown⟩ := opened_eq_some.mp hopened
  refine ⟨hpacket, hopens.shared, hknown.imp_right Or.symm, fun m => ?_⟩
  rw [handleText_opened hopens hmsg, if_pos hknown]

/-! ## What leaves the table alone -/

theorem delivered_handle (hclosed : p.type = .txtMsg → n.opened lib p = none) :
    (n.handle lib m p).2.delivered = n.delivered := by
  by_cases htext : p.type = .txtMsg
  · rw [handle, htext]
    exact congrArg Node.delivered (handleText_of_closed (hclosed htext))
  by_cases hgroup : p.type = .grpTxt
  · rw [handle, hgroup]
    have hcase : GroupTextCase m n (n.handleGroupText lib m p) := handleGroupText_case n p
    generalize n.handleGroupText lib m p = n' at hcase ⊢
    cases hcase with
    | ignored => rfl
    | stored => rfl
  · exact (mailKept_acts (acts_handle n fun hmail => hmail.elim htext hgroup)).delivered

theorem delivered_onPacket
    (hclosed : p.type = .txtMsg → p.isFlood = true ∨ p.hopCount = 0 → n.opened lib p = none) :
    (n.onPacket lib m p).delivered = n.delivered := by
  have hway : Way lib m n p (n.onPacket lib m p) := onPacket_way n p
  generalize n.onPacket lib m p = n' at hway ⊢
  cases hway with
  | trace => exact (mailKept_acts (p := p) (transmits_forwardTrace n p).acts).delivered
  | zeroHop => rfl
  | transit => exact (mailKept_acts (acts_passOn n)).delivered
  | repeated hhere =>
      exact (mailKept_acts (p := p) (transmits_maybeRepeat _ p).acts).delivered.trans
        (delivered_handle fun htype => hclosed htype hhere)
  | kept hhere => exact delivered_handle fun htype => hclosed htype hhere

/-! ## One step -/

theorem opened_congr (hcontacts : n'.contacts = n.contacts)
    (hidentity : n'.identity = n.identity) (p : Packet) : n'.opened lib p = n.opened lib p := by
  have hfound : n'.decryptFrom lib = n.decryptFrom lib := by
    funext srcHash mac ciphertext
    rw [decryptFrom, decryptFrom, hcontacts, hidentity]
  rw [opened, opened, hidentity, hfound]

theorem opened_hearing (raw : Bytes) (rssi snrQ4 : Int) (p : Packet) :
    (n.hearing lib raw rssi snrQ4).opened lib p = n.opened lib p := by
  have hidentity : (n.hearing lib raw rssi snrQ4).identity = n.identity :=
    congrArg ReliableSender.self (Dispatcher.quietly_onRadioRx lib n.air raw rssi snrQ4).client
  have hcontacts : (n.hearing lib raw rssi snrQ4).contacts = n.contacts := rfl
  exact opened_congr hcontacts hidentity p

/-- A copy is accepted, and opened as described. -/
theorem step_copy {raw : Bytes} {rssi snrQ4 : Int} {c : Copy}
    (hcopy : n.copyIn lib (.received raw rssi snrQ4 m) = some c) :
    Opened lib (n.hearing lib raw rssi snrQ4) c.packet c ∧
      n.step lib (.received raw rssi snrQ4 m) =
        (n.hearing lib raw rssi snrQ4).acceptText lib m c.packet c.sender c.plaintext c.msg := by
  rw [copyIn] at hcopy
  obtain ⟨p, hheard, hcopy⟩ := Option.bind_eq_some_iff.mp hcopy
  split at hcopy
  · next hhere =>
    rw [← opened_hearing raw rssi snrQ4] at hcopy
    have hspec : Opened lib _ p c := opened_spec hcopy
    obtain rfl := hspec.packet
    refine ⟨hspec, ?_⟩
    rw [step, receive_eq, hheard]
    dsimp only [Option.elim_some]
    rw [onPacket_local (by simp [hhere.1]) (by simp [hhere.1]) hhere.2, handle, hhere.1]
    dsimp only
    rw [hspec.accepts m]
  · exact absurd hcopy (by simp)

/-- Without a copy the table stays, or is swept. -/
theorem step_no_copy {event : Event} (hnone : n.copyIn lib event = none) :
    Swept n (n.step lib event).delivered := by
  cases event with
  | received raw rssi snrQ4 m =>
      left
      rw [step, receive_eq]
      rw [copyIn] at hnone
      cases hheard : (Dispatcher.onRadioRx lib n.air raw rssi snrQ4).1 with
      | none => rfl
      | some p =>
          rw [hheard, Option.bind_some] at hnone
          have hkept : ((n.hearing lib raw rssi snrQ4).onPacket lib m p).delivered =
              (n.hearing lib raw rssi snrQ4).delivered := by
            refine delivered_onPacket fun htype hhere => ?_
            rw [opened_hearing]
            rw [if_pos ⟨htype, hhere⟩] at hnone
            exact hnone
          exact hkept
  | sweepDelivered => exact .inr rfl
  | _ => exact .inl rfl

/-! ## Time -/

end Node

theorem Dispatcher.send_time {H σ : Type} {call : Handler H σ} {radio : RadioView}
    (lib : Crypto.Library) (d : Dispatcher H σ) (p : Packet) (priority : UInt8) (delayMs : UInt32)
    (onResult : Option H) :
    (d.send call lib radio p priority delayMs onResult).2.time = d.time := by
  rw [Dispatcher.send]
  split
  · rfl
  · rw [pump_time, enqueue_time]
    rfl

namespace Air

variable {lib : Crypto.Library} {radio : RadioView}

theorem sendAttempt_time (d : Air) (p : Pending) (dest : Contact) (forceFlood : Bool) :
    (sendAttempt lib radio d p dest forceFlood).2.time = d.time := by
  rw [sendAttempt]
  dsimp only
  split
  · rfl
  · rw [routeTo]
    generalize hpacket : routed dest (forceFlood || !dest.pathKnown) _ = packet
    generalize hnoted : d.client.noteAttempt p _ forceFlood = noted
    have htime : (Dispatcher.send onTxResult lib radio { d with client := noted } packet
        kPriorityDirect 0 (if p.id = 0 then none else some p.id)).2.time = d.time :=
      Dispatcher.send_time _ _ _ _ _ _
    generalize Dispatcher.send onTxResult lib radio { d with client := noted } packet
      kPriorityDirect 0 (if p.id = 0 then none else some p.id) = result at htime ⊢
    rcases result with ⟨_ | _, d'⟩ <;> exact htime

theorem sendFresh_time (d : Air) (acked : Bool) (dest : Contact) (text : Bytes) (txtType : UInt8)
    (timestamp : UInt32) :
    (sendFresh lib radio d acked dest text txtType timestamp).2.time = d.time := by
  rw [sendFresh]
  generalize fresh d.client acked dest text txtType timestamp = p
  have htime : (sendAttempt lib radio (if acked then register d p else d) p dest false).2.time =
      d.time := by
    rw [sendAttempt_time]
    split <;> rfl
  generalize sendAttempt lib radio (if acked then register d p else d) p dest false = result
    at htime ⊢
  rcases result with ⟨_ | _, d'⟩
  · dsimp only
    split <;> exact htime
  · exact htime

theorem send_time (d : Air) (dest : Contact) (text : Bytes) (txtType : UInt8)
    (timestamp : UInt32) : (send lib radio d dest text txtType timestamp).2.time = d.time := by
  rw [send]
  split
  · exact sendFresh_time _ _ _ _ _ _
  · split
    · rfl
    · split
      · rfl
      · exact sendFresh_time _ _ _ _ _ _

theorem onTimer_time (contacts : ContactStore) (d : Air) (id : Nat) :
    (onTimer lib radio contacts d id).time = d.time := by
  have hunless : ∀ result : Except SendError Bytes × Air,
      (eraseUnlessSent id result).time = result.2.time := by
    rintro ⟨_ | _, d'⟩ <;> rfl
  have hretry : ∀ d : Air, (onRetry lib radio contacts d id).time = d.time := by
    intro d
    rw [onRetry]
    split
    · rfl
    · dsimp only
      split
      · rfl
      · split
        · rfl
        · rw [hunless, sendAttempt_time]
  rw [onTimer]
  split
  · rfl
  · split
    · rfl
    · split
      · rfl
      · rw [hretry]

/-- Time only passes. -/
theorem time_le_step (o : Outgoing) (event : Outgoing.Event) :
    o.air.time ≤ (o.step lib event).air.time := by
  cases event with
  | send dest text txtType timestamp radio =>
      exact (send_time o.air dest text txtType timestamp).ge
  | timer id radio => exact (onTimer_time o.contacts o.air id).ge
  | complete ackHash => exact le_rfl
  | contacts store => exact le_rfl
  | other event =>
      exact (Dispatcher.keyStep lib onTxResult o.air 0 (Outgoing.unanswered event)).time_le

end Air

namespace Node

variable {lib : Crypto.Library} {m : Moment} {n : Node} {p : Packet}

theorem Follows.time_le {o o' : Outgoing} (hfollows : Follows lib o o') :
    o.air.time ≤ o'.air.time := by
  obtain ⟨events, rfl⟩ := hfollows
  have hstep : ∀ (o' : Outgoing) (event : Outgoing.Event), o.air.time ≤ o'.air.time →
      o.air.time ≤ (o'.step lib event).air.time :=
    fun o' event hle => hle.trans (Air.time_le_step o' event)
  exact run_invariant hstep le_rfl events

/-! ## What the table remembers -/

/-- A text with copies so far at `times`: without any the table has no entry, and
until five minutes after the last it has just the one that copy left. -/
structure Tracks (lib : Crypto.Library) (t : Text) (n : Node) (times : List Nat) : Prop where
  unseen : times = [] → entriesOf (t.key lib) n.delivered = []
  past : ∀ last ∈ times.getLast?, last ≤ n.air.time
  entry : ∀ last ∈ times.getLast?, n.air.time < last + 300000 →
    entriesOf (t.key lib) n.delivered = [(t.key lib, reading (last + 300000))]

variable {t : Text} {times : List Nat}

/-- A sweep takes nothing of that away. -/
theorem Tracks.swept (hn : Tracks lib t n times) {table : List (UInt64 × UInt32)}
    (hswept : Swept n table) :
    (times = [] → entriesOf (t.key lib) table = []) ∧
    ∀ last ∈ times.getLast?, n.air.time < last + 300000 →
      entriesOf (t.key lib) table = [(t.key lib, reading (last + 300000))] := by
  rcases hswept with rfl | rfl
  · exact ⟨hn.unseen, hn.entry⟩
  · refine ⟨fun hnone => entriesOf_expireDelivered_nil (hn.unseen hnone), fun last hlast hlive => ?_⟩
    have hpast : last ≤ n.air.time := hn.past last hlast
    exact entriesOf_expireDelivered (hn.entry last hlast hlive) hlive (by omega)

/-- Nothing came of the text, and time may have passed. -/
theorem Tracks.later (hn : Tracks lib t n times) {n' : Node} {table : List (UInt64 × UInt32)}
    (hswept : Swept n table) (htime : n.air.time ≤ n'.air.time)
    (htable : entriesOf (t.key lib) n'.delivered = entriesOf (t.key lib) table) :
    Tracks lib t n' times := by
  obtain ⟨hunseen, hentry⟩ := hn.swept hswept
  refine ⟨fun hnone => htable.trans (hunseen hnone), ?_, ?_⟩
  · exact fun last hlast => (hn.past last hlast).trans htime
  · exact fun last hlast hlive => htable.trans (hentry last hlast (by omega))

/-- The copies so far and the next one are less than five minutes apart. -/
def Close (times : List Nat) : Prop :=
  times.IsChain fun earlier later => later < earlier + 300000

/-- Whether a copy that comes now is known is whether there was one before. -/
theorem Tracks.isDelivered (hn : Tracks lib t n times) (hclose : Close (times ++ [n.air.time])) :
    n.isDelivered (t.key lib) = decide (times ≠ []) := by
  rcases List.eq_nil_or_concat times with rfl | ⟨older, last, rfl⟩
  · rw [isDelivered_of_none (hn.unseen rfl)]
    rfl
  · have hlast : last ∈ (older.concat last).getLast? := by simp
    have hlive : n.air.time < last + 300000 :=
      (List.isChain_append.mp hclose).2.2 last hlast n.air.time (by simp)
    have hpast : last ≤ n.air.time := hn.past last hlast
    have hahead : 0 < signed (reading (last + 300000) - n.air.nowMs) :=
      signed_sub_pos_of_ahead hlive (by omega)
    rw [isDelivered_of_entry (hn.entry last hlast hlive), decide_eq_true hahead]
    simp

/-- A copy was accepted: `heard` is the node as it was, with the dispatcher's and the
contact's notes of the packet, and the rest of the step is the delivery and the
reply. -/
structure Accepts (lib : Crypto.Library) (m : Moment) (n : Node) (c : Copy) (n' heard : Node) :
    Prop where
  time : heard.air.time = n.air.time
  table : heard.delivered = n.delivered
  inbox : heard.inbox = n.inbox
  files : heard.files = n.files
  eq : ∃ air, n' = { heard.deliver lib m c.packet c.sender c.msg with air }

theorem replyTo_eq (n : Node) (p : Packet) (sender : Contact) (ack : Bytes) :
    ∃ air, n.replyTo lib m p sender ack = { n with air } := by
  rw [replyTo]
  split
  · rw [sendPathReturn]
    split
    · exact ⟨n.air, rfl⟩
    · exact ⟨_, rfl⟩
  · split
    · exact ⟨_, rfl⟩
    · exact ⟨n.air, rfl⟩

theorem accepts_received {raw : Bytes} {rssi snrQ4 : Int} {c : Copy}
    (hcopy : n.copyIn lib (.received raw rssi snrQ4 m) = some c) :
    ∃ heard, Accepts lib m n c (n.step lib (.received raw rssi snrQ4 m)) heard := by
  let contacts : ContactStore :=
    n.contacts.touchSignal c.sender.pubkey m.unixNow c.packet.rssi c.packet.snrQ4
  refine ⟨{ n.hearing lib raw rssi snrQ4 with contacts }, ?_⟩
  refine ⟨(Dispatcher.quietly_onRadioRx lib n.air raw rssi snrQ4).time, rfl, rfl, rfl, ?_⟩
  rw [(step_copy hcopy).2, acceptText]
  exact replyTo_eq _ _ _ _

theorem accepts_step {event : Event} {c : Copy} (hcopy : n.copyIn lib event = some c) :
    ∃ m heard, Accepts lib m n c (n.step lib event) heard := by
  cases event with
  | received raw rssi snrQ4 m => exact ⟨m, accepts_received hcopy⟩
  | _ => exact absurd hcopy (by simp [copyIn])

/-- The side conditions: the table has room for a live entry, and no other text has
the key of this one. -/
structure Unconfused (lib : Crypto.Library) (t : Text) (n : Node) (event : Event) : Prop where
  room : n.expireDelivered.delivered.length < kMaxDelivered
  distinct : ∀ c ∈ n.copyIn lib event, c.text.key lib = t.key lib → c.text = t

theorem Tracks.step (hn : Tracks lib t n times) {event : Event}
    (hok : Unconfused lib t n event) (hclose : Close (times ++ copyTime lib t n event)) :
    Tracks lib t (n.step lib event) (times ++ copyTime lib t n event) := by
  have htime : n.air.time ≤ (n.step lib event).air.time := (follows_step n event).time_le
  cases hcopy : n.copyIn lib event with
  | none =>
      rw [copyTime, hcopy, if_neg (by simp), List.append_nil]
      exact hn.later (step_no_copy hcopy) htime rfl
  | some c =>
      obtain ⟨m, heard, haccepts⟩ := accepts_step hcopy
      -- The node the copy is entered in tells the same story as `n`.
      have hheard : Tracks lib t heard times :=
        hn.later (.inl rfl) haccepts.time.ge (by rw [haccepts.table])
      have hswept : Swept heard (heard.tableFor lib m c.sender c.msg) := by
        apply swept_tableFor
        have hroom := hok.room
        rw [expireDelivered] at hroom ⊢
        rw [haccepts.table, Dispatcher.nowMs, haccepts.time]
        exact hroom
      obtain ⟨air, heq⟩ := haccepts.eq
      have htable : (n.step lib event).delivered = setDelivered (c.text.key lib)
          (reading (n.air.time + 300000)) (heard.tableFor lib m c.sender c.msg) := by
        rw [heq, ← haccepts.time, key_text]
        exact delivered_deliver c.sender c.msg
      by_cases hsame : c.text = t
      · rw [copyTime, hcopy, if_pos (by simp [hsame])] at hclose ⊢
        obtain ⟨hunseen, hentry⟩ := hheard.swept hswept
        have honce : (entriesOf (t.key lib)
            (heard.tableFor lib m c.sender c.msg)).length ≤ 1 := by
          rcases List.eq_nil_or_concat times with rfl | ⟨older, last, rfl⟩
          · rw [hunseen rfl]
            exact Nat.zero_le 1
          · have hlive : n.air.time < last + 300000 :=
              (List.isChain_append.mp hclose).2.2 last (by simp) n.air.time (by simp)
            rw [hentry last (by simp) (by rw [haccepts.time]; exact hlive)]
            exact le_rfl
        have hone : entriesOf (t.key lib) (n.step lib event).delivered =
            [(t.key lib, reading (n.air.time + 300000))] := by
          rw [htable, hsame]
          exact entriesOf_setDelivered honce
        have hlast : ∀ last ∈ (times ++ [n.air.time]).getLast?, last = n.air.time := by simp
        refine ⟨by simp, fun last hmem => ?_, fun last hmem _ => ?_⟩
        · rw [hlast last hmem]
          exact htime
        · rw [hlast last hmem]
          exact hone
      · rw [copyTime, hcopy, if_neg (by simp [hsame]), List.append_nil]
        refine hheard.later hswept (haccepts.time.le.trans htime) ?_
        rw [htable]
        apply entriesOf_setDelivered_other
        exact fun hkey => hsame (hok.distinct c (by rw [hcopy]; rfl) hkey)

theorem copyTimes_append (t : Text) (events : List Event) (event : Event) : ∀ n : Node,
    copyTimes lib t n (events ++ [event]) =
      copyTimes lib t n events ++ copyTime lib t (run (step lib) n events) event := by
  induction events with
  | nil =>
      intro n
      simp [copyTimes]
  | cons first events ih =>
      intro n
      rw [List.cons_append, copyTimes, ih, copyTimes, run_cons, List.append_assoc]

theorem tracks_run (t : Text) (events : List Event) : ∀ (n : Node) (times : List Nat),
    Tracks lib t n times → Along (step lib) (Unconfused lib t) n events →
    Close (times ++ copyTimes lib t n events) →
    Tracks lib t (run (step lib) n events) (times ++ copyTimes lib t n events) := by
  induction events with
  | nil =>
      intro n times hn _ _
      rw [copyTimes, List.append_nil]
      exact hn
  | cons event events ih =>
      intro n times hn hok hclose
      rw [copyTimes, ← List.append_assoc] at hclose ⊢
      exact ih _ _ (hn.step hok.1 hclose.left_of_append) hok.2 hclose

/-- The table is bounded whatever comes. -/
theorem delivered_bounded_step (n : Node) (event : Event)
    (hbound : n.delivered.length ≤ kMaxDelivered) :
    (n.step lib event).delivered.length ≤ kMaxDelivered := by
  cases hcopy : n.copyIn lib event with
  | none =>
      rcases step_no_copy hcopy with hkept | hswept
      · rw [hkept]
        exact hbound
      · rw [hswept]
        exact (List.length_filter_le _ _).trans hbound
  | some c =>
      obtain ⟨m, heard, haccepts⟩ := accepts_step hcopy
      obtain ⟨air, heq⟩ := haccepts.eq
      rw [heq]
      exact length_deliver (by rw [haccepts.table]; exact hbound) c.sender c.msg

/-! ## Every copy is answered -/

/-- How a copy is answered, from the node that heard it: a plain or signed one with
its ack, once, and a CLI response with a route at most. -/
structure Answered (lib : Crypto.Library) (m : Moment) (heard : Node) (c : Copy) (n' : Node) :
    Prop where
  acked : c.msg.txtType = kTxtPlain ∨ c.msg.txtType = kTxtSignedPlain →
    ∃ ack, ack = ackOf lib m heard.identity c.sender c.plaintext c.msg ∧ ack ≠ [] ∧
      n'.air = (Dispatcher.send onTxResult lib m.radio heard.air
        (ackReply lib m heard.identity c.sender c.packet ack) kPriorityAck 0 none).2
  cliFlood : c.msg.txtType = kTxtCliData → c.packet.isFlood = true →
    ∃ ret, ret = pathReturn m c.packet 0 [] ∧ ret.extraType ≠ PayloadType.ack.toByte ∧
      n'.air = (Dispatcher.send onTxResult lib m.radio heard.air
        (pathPacket lib heard.identity c.sender (c.sender.sharedSecret lib heard.identity) ret none)
        kPriorityAck 0 none).2
  cliDirect : c.msg.txtType = kTxtCliData → c.packet.isFlood = false → n'.air = heard.air

/-- A flood is answered with the route it came by, whatever its ack. -/
theorem acceptText_flood {sender : Contact} {plaintext : Bytes} {msg : TextMessage}
    (hshared : sender.sharedSecret lib n.identity ≠ []) (hflood : p.isFlood = true) :
    ∃ ack, ack = ackOf lib m n.identity sender plaintext msg ∧
      (n.acceptText lib m p sender plaintext msg).air =
        (n.transmit lib m (pathPacket lib n.identity sender (sender.sharedSecret lib n.identity)
          (pathReturn m p (if ack = [] then 0 else PayloadType.ack.toByte) ack) none)
          kPriorityAck 0).air := by
  refine ⟨_, rfl, ?_⟩
  rw [acceptText_eq, replyTo, if_pos hflood, sendPathReturn, identity_eq
    (air_accepted n p sender msg), if_neg hshared, transmit, transmit]
  dsimp only
  rw [air_accepted]

theorem answered_acceptText {c : Copy} (hopened : Opened lib n c.packet c) :
    Answered lib m n c (n.acceptText lib m c.packet c.sender c.plaintext c.msg) := by
  refine ⟨fun hkind => ⟨_, rfl, ?_⟩, fun hcli hflood => ⟨_, rfl, ?_, ?_⟩, fun hcli hdirect => ?_⟩
  · have hack : ackOf lib m n.identity c.sender c.plaintext c.msg ≠ [] := by
      have hne : c.msg.txtType ≠ kTxtCliData := by
        rcases hkind with hkind | hkind <;> rw [hkind] <;> decide
      rw [ackOf, if_neg hne, ackPayload]
      simp
    exact ⟨hack, acceptText_air hopened.shared hack⟩
  · rw [pathReturn]
    dsimp only
    rw [if_pos rfl]
    decide
  · obtain ⟨ack, hack, hair⟩ : ∃ ack, ack = ackOf lib m n.identity c.sender c.plaintext c.msg ∧ _ :=
      acceptText_flood hopened.shared hflood
    obtain rfl : ack = [] := by rw [hack, ackOf, if_pos hcli]
    exact hair
  · rw [acceptText_eq, ackOf, if_pos hcli, replyTo, if_neg (by rw [hdirect]; simp),
    if_neg (by simp),
      air_accepted]

/-! ## Delivered once, answered every time -/

/-- The inbox and its file after a copy: the first is stored. -/
def inboxAfter (m : Moment) (n : Node) (c : Copy) (isFirst : Bool) : MessageInbox × FileSystem :=
  if isFirst then (n.inbox.store m.io n.files (storedFrom c.packet c.sender c.msg)).2
  else (n.inbox, n.files)

theorem inbox_accepts {c : Copy} {n' heard : Node} (haccepts : Accepts lib m n c n' heard) :
    (n'.inbox, n'.files) = inboxAfter m n c !heard.isDelivered (c.text.key lib) := by
  obtain ⟨air, rfl⟩ := haccepts.eq
  rw [key_text]
  cases hknown : heard.isDelivered (deliveryKey lib c.sender c.msg) with
  | true =>
      rw [deliver_known hknown, inboxAfter, ← haccepts.inbox, ← haccepts.files]
      rfl
  | false =>
      rw [deliver_new hknown, inboxAfter, ← haccepts.inbox, ← haccepts.files, makeRoom_eq]
      rfl

/-- A node as it is constructed. -/
def Started (n : Node) : Prop :=
  ∃ percent queueLimit pendingLimit self contacts time cfg channels inbox files,
    n = new percent queueLimit pendingLimit self contacts time cfg channels inbox files

/-- **Delivered once, answered every time.** In every run the table stays within its
bound, and every copy of a text is answered. As long as the table has room for a live
entry, no other text has the same key, and the copies of a text come less than five
minutes apart, the first is stored and no other. -/
theorem delivered_once_answered_always (lib : Crypto.Library) {start : Node}
    (hstart : start.Started)
    (events : List Event) :
    (run (step lib) start events).delivered.length ≤ kMaxDelivered ∧
    ∀ (raw : Bytes) (rssi snrQ4 : Int) (m : Moment) (c : Copy),
      (run (step lib) start events).copyIn lib (.received raw rssi snrQ4 m) = some c →
      Answered lib m ((run (step lib) start events).hearing lib raw rssi snrQ4) c
        (run (step lib) start (events ++ [.received raw rssi snrQ4 m])) ∧
      (Along (step lib) (Unconfused lib c.text) start events →
        Close (copyTimes lib c.text start (events ++ [.received raw rssi snrQ4 m])) →
        ((run (step lib) start (events ++ [.received raw rssi snrQ4 m])).inbox,
          (run (step lib) start (events ++ [.received raw rssi snrQ4 m])).files) =
          inboxAfter m (run (step lib) start events) c
            (decide (copyTimes lib c.text start events = []))) := by
  obtain ⟨percent, queueLimit, pendingLimit, self, contacts, time, cfg, channels, inbox, files,
    rfl⟩ := hstart
  generalize hstart : new percent queueLimit pendingLimit self contacts time cfg channels inbox
    files = start
  have hempty : start.delivered = [] := by rw [← hstart, new]
  refine ⟨run_invariant delivered_bounded_step (by simp [hempty]) events, ?_⟩
  intro raw rssi snrQ4 m c hcopy
  rw [run_append, run_cons, run_nil]
  refine ⟨?_, fun hok hclose => ?_⟩
  · obtain ⟨hopened, heq⟩ := step_copy hcopy
    rw [heq]
    exact answered_acceptText hopened
  · have htracks : Tracks lib c.text (run (step lib) start events)
        (copyTimes lib c.text start events) := by
      refine tracks_run c.text events start [] ⟨fun _ => by rw [hempty]; rfl, by simp, by simp⟩ hok ?_
      rw [copyTimes_append] at hclose
      exact hclose.left_of_append
    obtain ⟨heard, haccepts⟩ := accepts_received hcopy
    have hheard : Tracks lib c.text heard (copyTimes lib c.text start events) :=
      htracks.later (.inl rfl) haccepts.time.ge (by rw [haccepts.table])
    have hknown : heard.isDelivered (c.text.key lib) =
        decide (copyTimes lib c.text start events ≠ []) := by
      apply hheard.isDelivered
      rw [copyTimes_append, copyTime, hcopy, if_pos (by simp)] at hclose
      rw [haccepts.time]
      exact hclose
    rw [inbox_accepts haccepts, hknown]
    simp

/-! ## A text and its retry -/

/-- What Alice sends Bob at one of her attempts. -/
def attemptPacket (attempt : UInt8) : Packet :=
  { type := .txtMsg
    payload := (DirectEnvelope.sealWith Library.transparent bobKeys.id aliceKeys.id
      (List.replicate 32 3)
      { timestamp := 7, txtType := kTxtPlain, attempt,
        text := [104, 105] : TextMessage }.encode).encode }

/-- The first attempt, heard a second ago. -/
def heardOnce : List Event :=
  [.received (attemptPacket 0).encode 0 0 { radio := .down }, .sweepDelivered,
    .dispatcher (.tick 1000)]

def greetingText : Text :=
  { sender := aliceKeys.pub, timestamp := 7, txtType := kTxtPlain, text := [104, 105] }

/-- The retry is answered, and the inbox is left as the first attempt made it. -/
theorem delivered_once_retry :
    ∃ c : Copy, c.text = greetingText ∧
      Answered Library.transparent { radio := .down }
        ((run (step Library.transparent) (holding bobKeys aliceKeys.pub) heardOnce).hearing
          Library.transparent (attemptPacket 1).encode 0 0) c
        (run (step Library.transparent) (holding bobKeys aliceKeys.pub)
          (heardOnce ++ [.received (attemptPacket 1).encode 0 0 { radio := .down }])) ∧
      (run (step Library.transparent) (holding bobKeys aliceKeys.pub)
        (heardOnce ++ [.received (attemptPacket 1).encode 0 0 { radio := .down }])).inbox =
        (run (step Library.transparent) (holding bobKeys aliceKeys.pub) heardOnce).inbox := by
  have htext : ((run (step Library.transparent) (holding bobKeys aliceKeys.pub)
      heardOnce).copyIn Library.transparent (.received (attemptPacket 1).encode 0 0
        { radio := .down })).map Copy.text = some greetingText := by decide +kernel
  obtain ⟨c, hcopy, htext⟩ := Option.map_eq_some_iff.mp htext
  have hstart : (holding bobKeys aliceKeys.pub).Started := ⟨_, _, _, _, _, _, _, _, _, _, rfl⟩
  obtain ⟨hanswered, honce⟩ := (delivered_once_answered_always Library.transparent hstart
    heardOnce).2 _ _ _ _ c hcopy
  have hsame : ((holding bobKeys aliceKeys.pub).copyIn Library.transparent
      (.received (attemptPacket 0).encode 0 0 { radio := .down })).all
        (fun c => decide (c.text = greetingText)) = true := by decide +kernel
  have hok : Along (step Library.transparent) (Unconfused Library.transparent greetingText)
      (holding bobKeys aliceKeys.pub) heardOnce := by
    refine ⟨⟨by decide +kernel, fun first hfirst _ => ?_⟩, ⟨by decide +kernel, by simp [copyIn]⟩,
      ⟨by decide +kernel, by simp [copyIn]⟩, trivial⟩
    rw [Option.mem_def.mp hfirst] at hsame
    simpa using hsame
  have htimes : copyTimes Library.transparent greetingText (holding bobKeys aliceKeys.pub)
      (heardOnce ++ [.received (attemptPacket 1).encode 0 0 { radio := .down }]) = [0, 1000] := by
    decide +kernel
  have hearlier : copyTimes Library.transparent greetingText (holding bobKeys aliceKeys.pub)
      heardOnce = [0] := by decide +kernel
  refine ⟨c, htext, hanswered, ?_⟩
  rw [htext, htimes, hearlier] at honce
  have hkept := honce hok (by simp [Close])
  rw [inboxAfter, if_neg (by decide)] at hkept
  exact (Prod.mk.inj hkept).1

end Node

end Coreletd.Mesh
