/-
# Texts the app sends

`CMD_SEND_TXT_MSG` and the report that comes back for it. The session remembers
when it last answered such a command, and reports the time since then with every
ack. Two lists are not in the source: every answer with the operation it was
given for, and every report with the answers before it.
-/

import Coreletd.Companion.Frames
import Coreletd.Mesh.AckAgreement

namespace Coreletd.Companion

open Coreletd.Library
open Coreletd.Library.SerialClock
open Coreletd.Mesh

/-- What the command carries. -/
structure TextRequest where
  txtType : UInt8
  timestamp : UInt32
  keyPrefix : Bytes
  text : Bytes
  deriving DecidableEq

/-- txt_type(1) attempt(1) timestamp(4) pubkey_prefix(6) message. The attempt is
skipped: the node runs its own retry ladder. -/
def TextRequest.decode (args : Bytes) : Option TextRequest :=
  let (txtType, r) := (Reader.ofBytes args).u8
  let r := r.skip 1
  let (timestamp, r) := r.u32
  let (keyPrefix, r) := r.take 6
  if !r.ok then none else some { txtType, timestamp, keyPrefix, text := r.rest.1 }

/-- The first contact whose key starts with the prefix the app addressed. -/
def addressed (contacts : ContactStore) (keyPrefix : Bytes) : Option Contact :=
  contacts.contacts.find? fun c => 6 ≤ c.pubkey.length ∧ subview c.pubkey 0 6 = keyPrefix

def sendErrorCode : SendError → UInt8
  | .noSharedSecret => kErrBadState
  | .pendingFull => kErrTableFull
  | .tooLong => kErrIllegalArg

/-- The answer to a text that was sent: how it goes, its ack hash, and the time
the app is to wait. -/
def sentReply (target : Contact) (ack : Bytes) : Bytes :=
  [kRespSent, if target.pathKnown then 0 else 1] ++ ack ++
    putU32 (if target.pathKnown then 8000 else 30000)

/-- An answer to a command: when, for which operation, with which hash. -/
structure Answer where
  time : Nat
  id : Nat
  ackHash : Bytes
  deriving DecidableEq

/-- The report of an ack: when, of which operation, the frame, and the answers
given before it. -/
structure Confirmation where
  time : Nat
  id : Nat
  ackHash : Bytes
  frame : Bytes
  answers : List Answer
  deriving DecidableEq

structure TextSession where
  node : Node
  lastSendMs : Option UInt32 := none
  answers : List Answer := []
  confirmed : List Confirmation := []

namespace TextSession

/-- A session that has sent nothing. -/
def ofNode (node : Node) : TextSession := { node }

variable (lib : Crypto.Library)

/-- A text was sent. -/
def noteSent (s : TextSession) (id : Nat) (ack : Bytes) : TextSession :=
  { s with
    lastSendMs := some s.node.air.nowMs
    answers := { time := s.node.air.time, id, ackHash := ack } :: s.answers }

/-- The operation the last text was sent for. -/
def lastId (n : Node) : Nat := (n.air.client.answered.head?.map (·.1)).getD 0

def cmdSendTxtMsg (radio : RadioView) (s : TextSession) (args : Bytes) : Bytes × TextSession :=
  match TextRequest.decode args with
  | none => (respErr kErrIllegalArg, s)
  | some request =>
      match addressed s.node.contacts request.keyPrefix with
      | none => (respErr kErrNotFound, s)
      | some target =>
          match s.node.air.send lib radio target request.text request.txtType request.timestamp with
          | (.error err, air) => (respErr (sendErrorCode err),
            { s with node := { s.node with air } })
          | (.ok ack, air) =>
              let s := { s with node := { s.node with air } }
              (sentReply target ack, s.noteSent (lastId s.node) ack)

/-- The time since the last answer, or nothing when there was none. -/
def elapsedMs (s : TextSession) : UInt32 :=
  match s.lastSendMs with
  | none => 0
  | some last => s.node.air.nowMs - last

/-- What `on_ack` pushes. -/
def ackPush (s : TextSession) (ackHash : Bytes) : Bytes :=
  [kPushSendConfirmed] ++ ackHash ++ putU32 s.elapsedMs

/-- The entries a list has gained in front. -/
def gained {α : Type} (before after : List α) : List α :=
  after.take (after.length - before.length)

theorem gained_append {α : Type} (before added : List α) :
    gained before (added ++ before) = added := by
  rw [gained, List.length_append, Nat.add_sub_cancel]
  exact List.take_left

/-- Report what the node has completed since `before`. -/
def onAcks (before : Node) (s : TextSession) : TextSession :=
  let ids := gained before.air.client.completed s.node.air.client.completed
  let hashes := gained (Node.acksOf before.notices) (Node.acksOf s.node.notices)
  let reports := (ids.zip hashes).map fun (id, ackHash) =>
    { time := s.node.air.time, id, ackHash, frame := s.ackPush ackHash, answers := s.answers }
  { s with confirmed := reports ++ s.confirmed }

inductive Event where
  | sendTxtMsg (args : Bytes) (radio : RadioView)
  | node (event : Node.Event)

/-- A text is sent on a command, or again by its retry timer. -/
def step (s : TextSession) : Event → TextSession
  | .sendTxtMsg args radio => (s.cmdSendTxtMsg lib radio args).2
  | .node (.sendText ..) => s
  | .node event => onAcks s.node { s with node := s.node.step lib event }

end TextSession

end Coreletd.Companion
