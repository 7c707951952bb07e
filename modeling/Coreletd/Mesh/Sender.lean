/-
# Direct texts, retried until acknowledged

`ReliableSender` as the client of the dispatcher: an operation is identified by
a number, which is also the result handler its packets carry. An armed timer is
the reading it is due at, and belongs to its entry, so it goes with it. Three
lists are not in the source: every attempt handed to the dispatcher, oldest
first, the hash each operation was answered with, and the operations completed.
-/

import Coreletd.Mesh.Contacts
import Coreletd.Mesh.Dispatcher

namespace Coreletd.Mesh

open Coreletd.Crypto
open Coreletd.Library
open Coreletd.Library.SerialClock
open Coreletd.Proto

universe u v

/-- Along the contact's known path when there is one, by flooding otherwise. -/
def routed (dest : Contact) (forceFlood : Bool) (p : Packet) : Packet :=
  if dest.pathKnown && !forceFlood then
    { p with route := .direct, path := dest.outPath, pathHashSize := 1 }
  else { p with route := .flood, path := [] }

/-- Queue a packet for a contact. -/
def routeTo {H : Type u} {σ : Type v} (call : Dispatcher.Handler H σ) (lib : Crypto.Library)
    (radio : RadioView) (d : Dispatcher H σ) (p : Packet) (dest : Contact) (priority : UInt8)
    (forceFlood : Bool) (onResult : Option H) : Bool × Dispatcher H σ :=
  d.send call lib radio (routed dest forceFlood p) priority 0 onResult

/-- Why a send could not be started. -/
inductive SendError where
  | noSharedSecret
  | pendingFull
  | tooLong
  deriving DecidableEq, Repr

/-- A send that waits for its ack. -/
structure Pending where
  id : Nat
  /-- The first attempt's hash, which the caller was told to wait for. -/
  ackHash : Bytes := []
  acceptedAckHashes : List Bytes := []
  destPubkey : Bytes
  text : Bytes
  txtType : UInt8
  timestamp : UInt32
  attempt : UInt8 := 0
  timer : Option UInt32 := none
  deriving DecidableEq

/-- One attempt handed to the dispatcher. -/
structure Attempt where
  id : Nat
  attempt : UInt8
  forceFlood : Bool
  deriving DecidableEq, Repr

structure ReliableSender where
  self : LocalIdentity
  pendingLimit : Nat := 64
  pending : List Pending := []
  nextId : Nat := 1
  attempts : List Attempt := []
  answered : List (Nat × Bytes) := []
  completed : List Nat := []

/-- What a matched ack completed. -/
structure Completion where
  ackHash : Bytes
  destPubkey : Bytes
  deriving DecidableEq

def kRetryDelayMs (attempt : UInt8) : UInt32 :=
  match min attempt.toNat 2 with
  | 0 => 8000
  | 1 => 16000
  | _ => 32000

def kMaxAttempts : UInt8 := 4

namespace Pending

/-- What one attempt encrypts. The attempt number is on the wire. -/
def plaintext (p : Pending) : Bytes :=
  TextMessage.encode
    { timestamp := p.timestamp, txtType := p.txtType, attempt := p.attempt, text := p.text }

/-- Plain messages are acked against the sender's key, signed ones against the
recipient's. -/
def onAirHash (lib : Crypto.Library) (self : LocalIdentity) (p : Pending) : Bytes :=
  messageAckHash lib p.plaintext
    (if p.txtType = kTxtSignedPlain then p.destPubkey else self.pub)

/-- The sealed text of the present attempt. -/
def payload (lib : Crypto.Library) (self : LocalIdentity) (p : Pending) : Bytes :=
  (DirectEnvelope.sealWith lib (p.destPubkey.headD 0) self.id
    ((lib.sharedSecret self.priv p.destPubkey).getD []) p.plaintext).encode

/-- Every attempt is acceptable in reply; the first is the operation's identity. -/
def accept (hash : Bytes) (p : Pending) : Pending :=
  { p with
    ackHash := if p.attempt = 0 then hash else p.ackHash
    acceptedAckHashes := p.acceptedAckHashes ++ [hash] }

/-- The timer has fired. -/
def stop (p : Pending) : Pending := { p with timer := none }

def advance (p : Pending) : Pending := { p with attempt := p.attempt + 1 }

@[simp]
theorem stop_id (p : Pending) : p.stop.id = p.id := rfl

@[simp]
theorem advance_id (p : Pending) : p.advance.id = p.id := rfl

end Pending

namespace ReliableSender

def find (s : ReliableSender) (id : Nat) : Option Pending := s.pending.find? (·.id = id)

def erase (s : ReliableSender) (id : Nat) : ReliableSender :=
  { s with pending := s.pending.filter (·.id ≠ id) }

/-- Write through the pointer `find` returns. -/
def modify (s : ReliableSender) (id : Nat) (f : Pending → Pending) : ReliableSender :=
  { s with pending := modifyFirst (·.id = id) f s.pending }

/-- Arm an entry's timer, in place of any it had. -/
def arm (s : ReliableSender) (now : Nat) (id : Nat) (delayMs : UInt32) : ReliableSender :=
  s.modify id fun p => { p with timer := some (reading now + delayMs) }

def queueRetry (s : ReliableSender) (now : Nat) (id : Nat) : ReliableSender :=
  match s.find id with
  | none => s
  | some p => s.arm now id (kRetryDelayMs p.attempt)

/-- The result of an attempt. The retry delay begins once it is on the air; an
attempt that was dropped advances on the next pass of the event loop. -/
def onTxResult : Dispatcher.Handler Nat ReliableSender := fun now s id transmitted =>
  match s.find id with
  | none => s
  | some _ => if transmitted then s.queueRetry now id else s.arm now id 1

/-- The entry that accepts an ack, and what is left without it. -/
def complete (s : ReliableSender) (ackHash : Bytes) : Option Completion × ReliableSender :=
  let accepts := fun p : Pending => p.acceptedAckHashes.any (· = ackHash)
  match s.pending.find? accepts with
  | none => (none, s)
  | some p =>
      (some { ackHash := p.ackHash, destPubkey := p.destPubkey },
        { s with pending := s.pending.eraseP accepts, completed := p.id :: s.completed })

/-- Record an attempt in its entry. A send with no retry state has none. -/
def noteAttempt (s : ReliableSender) (p : Pending) (hash : Bytes) (forceFlood : Bool) :
    ReliableSender :=
  let s := if p.id = 0 then s else s.modify p.id (·.accept hash)
  { s with attempts := s.attempts ++ [{ id := p.id, attempt := p.attempt, forceFlood }] }

end ReliableSender

/-- The dispatcher with the sender as its client. -/
abbrev Air := Dispatcher Nat ReliableSender

namespace Air

section

variable (lib : Crypto.Library) (radio : RadioView)

/-- Build and hand over one attempt of `p`. -/
def sendAttempt (d : Air) (p : Pending) (dest : Contact) (forceFlood : Bool) :
    Except SendError Bytes × Air :=
  let self := d.client.self
  let shared := dest.sharedSecret lib self
  if shared = [] then (.error .noSharedSecret, d)
  else
    let plaintext := p.plaintext
    let ackKey := if p.txtType = kTxtSignedPlain then dest.pubkey else self.pub
    let ackHash := messageAckHash lib plaintext ackKey
    let d := { d with client := d.client.noteAttempt p ackHash forceFlood }
    let env := DirectEnvelope.sealWith lib dest.id self.id shared plaintext
    let packet : Packet := { type := .txtMsg, payload := env.encode }
    let flood := forceFlood || !dest.pathKnown
    let onResult := if p.id = 0 then none else some p.id
    match routeTo ReliableSender.onTxResult lib radio d packet dest kPriorityDirect flood onResult with
    | (false, d) => (.error .tooLong, d)
    | (true, d) => (.ok ackHash, d)

/-- A fresh operation; 0 marks one with no retry state. -/
def fresh (s : ReliableSender) (acked : Bool) (dest : Contact) (text : Bytes) (txtType : UInt8)
    (timestamp : UInt32) : Pending :=
  { id := if acked then s.nextId else 0, destPubkey := dest.pubkey, text, txtType, timestamp }

/-- Enter an operation in the table. -/
def register (d : Air) (p : Pending) : Air :=
  { d with client := { d.client with
      nextId := d.client.nextId + 1, pending := d.client.pending ++ [p] } }

/-- Put the answer of `send` on record. -/
def answer (id : Nat) (hash : Bytes) (d : Air) : Air :=
  { d with client := { d.client with answered := (id, hash) :: d.client.answered } }

/-- The end of `send`, for a message that is neither waiting already nor one too
many. It is registered before it is transmitted, because the result may come
before `sendAttempt` returns. -/
def sendFresh (d : Air) (acked : Bool) (dest : Contact) (text : Bytes) (txtType : UInt8)
    (timestamp : UInt32) : Except SendError Bytes × Air :=
  let p := fresh d.client acked dest text txtType timestamp
  match sendAttempt lib radio (if acked then register d p else d) p dest false with
  | (.error err, d) =>
      (.error err, if acked then { d with client := d.client.erase p.id } else d)
  | (.ok ackHash, d) => (.ok ackHash, answer p.id ackHash d)

/-- Send a text, retrying until acked. -/
def send (d : Air) (dest : Contact) (text : Bytes) (txtType : UInt8) (timestamp : UInt32) :
    Except SendError Bytes × Air :=
  if txtType = kTxtCliData then sendFresh lib radio d false dest text txtType timestamp
  else
    match d.client.pending.find? fun p =>
        p.destPubkey = dest.pubkey ∧ p.timestamp = timestamp ∧ p.txtType = txtType ∧
          p.text = text with
    | some duplicate => (.ok duplicate.ackHash, answer duplicate.id duplicate.ackHash d)
    | none =>
        if d.client.pendingLimit ≤ d.client.pending.length then (.error .pendingFull, d)
        else sendFresh lib radio d true dest text txtType timestamp

/-- An attempt that could not be handed over ends its operation. -/
def eraseUnlessSent (id : Nat) : Except SendError Bytes × Air → Air
  | (.error _, d) => { d with client := d.client.erase id }
  | (.ok _, d) => d

/-- The retry timer's callback. -/
def onRetry (contacts : ContactStore) (d : Air) (id : Nat) : Air :=
  match d.client.find id with
  | none => d
  | some p =>
      let p := p.advance
      let d : Air := { d with client := d.client.modify id Pending.advance }
      if kMaxAttempts ≤ p.attempt then { d with client := d.client.erase id }
      else
        match contacts.find p.destPubkey with
        | none => { d with client := d.client.erase id }
        | some dest =>
            let last := p.attempt = kMaxAttempts - 1
            eraseUnlessSent id (sendAttempt lib radio d p dest last)

/-- The timer of an entry coming due: a one-shot, so it is no longer armed. -/
def onTimer (contacts : ContactStore) (d : Air) (id : Nat) : Air :=
  match d.client.find id with
  | none => d
  | some p =>
      match p.timer with
      | none => d
      | some dueMs =>
          if 0 < signed (dueMs - d.nowMs) then d
          else
            onRetry lib radio contacts { d with client := d.client.modify id Pending.stop } id

end

end Air

/-- The sender's surroundings: the dispatcher it sends through and the contact
store it looks recipients up in. -/
structure Outgoing where
  air : Air
  contacts : ContactStore

namespace Outgoing

/-- What can happen. The contact store may become any other, and whatever else
uses the dispatcher leaves no result handler. -/
inductive Event where
  | send (dest : Contact) (text : Bytes) (txtType : UInt8) (timestamp : UInt32) (radio : RadioView)
  | timer (id : Nat) (radio : RadioView)
  | complete (ackHash : Bytes)
  | contacts (store : ContactStore)
  | other (event : Dispatcher.Event Nat)

/-- An event without a result handler. -/
def unanswered : Dispatcher.Event Nat → Dispatcher.Event Nat
  | .send p priority delayMs _ radio => .send p priority delayMs none radio
  | event => event

def step (lib : Crypto.Library) (o : Outgoing) : Event → Outgoing
  | .send dest text txtType timestamp radio =>
      { o with air := (o.air.send lib radio dest text txtType timestamp).2 }
  | .timer id radio => { o with air := o.air.onTimer lib radio o.contacts id }
  | .complete ackHash =>
      { o with air := { o.air with client := (o.air.client.complete ackHash).2 } }
  | .contacts store => { o with contacts := store }
  | .other event =>
      { o with air := o.air.step lib ReliableSender.onTxResult (unanswered event) }

/-- A sender over a dispatcher, as they are constructed. -/
def new (percent : ℚ) (queueLimit pendingLimit : Nat) (self : LocalIdentity)
    (contacts : ContactStore) (time : Nat) : Outgoing :=
  { air := Dispatcher.new percent queueLimit { self, pendingLimit } time, contacts }

end Outgoing

end Coreletd.Mesh
