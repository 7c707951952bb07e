/-
# The companion session

What an app's frames mean, as far as the inbox is concerned: collecting a message
pops it and answers with it. Every other command is answered by some other part
of the daemon, and nothing it does reaches the inbox; its answers are whatever
they are. A session is modelled together with the server it replies through and
the inbox it serves from.
-/

import Coreletd.Companion.Server
import Coreletd.Library.Runs
import Coreletd.Mesh.Inbox

namespace Coreletd.Companion

open Coreletd.Library
open Coreletd.Mesh

structure Session where
  server : Server := {}
  inbox : MessageInbox := {}
  files : FileSystem := fun _ => none
  /-- The app has sent `CMD_APP_START` on this connection. -/
  appStarted : Bool := false
  /-- What the other parts of the daemon will answer, one list of frames for each of
  their commands. -/
  answers : List (List Bytes) := []

/-- `data`, cut or filled up with zeros to a width. -/
def putPadded (data : Bytes) (width : Nat) : Bytes :=
  data.take width ++ List.replicate (width - min data.length width) 0

theorem length_putPadded (data : Bytes) (width : Nat) : (putPadded data width).length = width := by
  rw [putPadded, List.length_append, List.length_take, List.length_replicate]
  omega

theorem putPadded_of_le {data : Bytes} {width : Nat} (hfits : data.length ≤ width) :
    putPadded data width = data ++ List.replicate (width - data.length) 0 := by
  rw [putPadded, List.take_of_length_le hfits, Nat.min_eq_left hfits]

/-- A field that holds no zero is read up to its padding. -/
theorem fixedStr_putPadded {data : Bytes} {width : Nat} (hfits : data.length ≤ width)
    (hnul : 0 ∉ data) (rest : Bytes) :
    (Reader.ofBytes (putPadded data width ++ rest)).fixedStr width =
      (data, Reader.ofBytes rest) := by
  have hbytes : ∀ byte ∈ data, decide (byte ≠ 0) = true := fun byte hbyte =>
    decide_eq_true fun hzero => hnul (hzero ▸ hbyte)
  have htext : (putPadded data width).takeWhile (· ≠ 0) = data := by
    rw [putPadded_of_le hfits, List.takeWhile_append_of_pos hbytes, List.takeWhile_replicate]
    simp
  rw [Reader.fixedStr, Reader.take_append (length_putPadded data width)]
  dsimp only
  rw [htext]

/-- The answer that hands a message to the app. -/
def messageReply (msg : StoredMessage) : Bytes :=
  if msg.isChannel then
    [kRespChannelMsgRecvV3, msg.snrQ4.toUInt8, 0, 0, msg.channelIndex, msg.pathLen, msg.txtType] ++
      putU32 msg.timestamp ++ msg.text
  else
    [kRespContactMsgRecvV3, msg.snrQ4.toUInt8, 0, 0] ++
      putPadded (subview msg.senderPubkey 0 6) 6 ++ [msg.pathLen, msg.txtType] ++
      putU32 msg.timestamp ++ msg.text

namespace Session

def reply (s : Session) (payload : Bytes) : Session := { s with server := s.server.send payload }

/-- What the app did not ask for goes only to one that has introduced itself. -/
def push (s : Session) (payload : Bytes) : Session :=
  if s.appStarted then s.reply payload else s

/-- The next answer of some other part of the daemon. -/
def takeAnswer (s : Session) : List Bytes × Session :=
  (s.answers.headD [], { s with answers := s.answers.tail })

/-- The message is taken out of the queue before it is known what becomes of the
answer. -/
def cmdSyncNextMessage (s : Session) : Bytes × Session :=
  match s.inbox.pop with
  | (none, inbox) => ([kRespNoMoreMessages], { s with inbox })
  | (some msg, inbox) => (messageReply msg, { s with inbox })

/-- Introduce the app, then tell it of what is waiting. -/
def cmdAppStart (s : Session) : Session :=
  let (selfInfo, s) := { s with appStarted := true }.takeAnswer
  let s := selfInfo.foldl reply s
  if s.inbox.messages ≠ [] then s.push [kPushMsgWaiting] else s

def handleFrame (s : Session) : Bytes → Session
  | [] => s
  | cmd :: _ =>
      if cmd = kCmdAppStart then s.cmdAppStart
      else if cmd = kCmdSyncNextMessage then
        let (out, s) := s.cmdSyncNextMessage
        s.reply out
      else if cmd = kCmdHasConnection then
        s.reply (respOkWith (if s.server.connected then 1 else 0))
      else if cmd = kCmdLogout then s.reply respOk
      else if cmd ∈ kOtherCommands then
        let (out, s) := s.takeAnswer
        out.foldl reply s
      else s.reply (respErr kErrUnsupportedCmd)

/-! ## The client's socket -/

/-- One turn of the dispatch loop: the next frame of the reader, and whether to go on. -/
def dispatchOne (s : Session) : Bool × Session :=
  if !s.server.connected then (false, s)
  else
    match s.server.reader.next with
    | (none, reader) => (false, { s with server := { s.server with reader } })
    | (some frame, reader) =>
        (true, { s with server := { s.server with reader } }.handleFrame frame)

/-- Dispatch every complete frame; a handler may drop the client. There are no more
frames than bytes, so that many turns are enough. -/
def dispatch : Nat → Session → Session
  | 0, s => s
  | turns + 1, s =>
      match s.dispatchOne with
      | (false, s) => s
      | (true, s) => dispatch turns s

def feed (s : Session) (bytes : Bytes) : Session :=
  { s with server := { s.server with reader := s.server.reader.feed bytes } }

def dropClient (s : Session) : Session := { s with server := s.server.dropClient }

def kReadSize : Nat := 4096

/-- Read until there is nothing more, dispatching as we go. -/
def readAll (s : Session) : List ReadResult → Session
  | [] => s
  | .data bytes :: reads =>
      let s := s.feed bytes
      let s := dispatch (s.server.reader.buf.length + 1) s
      if !s.server.connected then s
      else if bytes.length < kReadSize then s
      else s.readAll reads
  | .closed :: _ => s.dropClient
  | .wouldBlock :: _ => s
  | .interrupted :: reads => s.readAll reads
  | .failed :: _ => s.dropClient

/-- What `poll` reported. -/
structure Revents where
  error : Bool := false
  output : Bool := false
  input : Bool := false
  hangUp : Bool := false

def onClientReady (s : Session) (revents : Revents) (reads : List ReadResult) : Session :=
  if revents.error then s.dropClient
  else
    let s := if revents.output then { s with server := s.server.flush } else s
    if !s.server.connected then s
    else
      let s := if revents.input then s.readAll reads else s
      if revents.hangUp then s.dropClient else s

end Session

end Coreletd.Companion
