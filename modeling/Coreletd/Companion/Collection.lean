/-
# Collecting messages

A run of the session, the server and the inbox, in steps as small as they come: a
poll callback is a run of these. A message should leave the queue only by eviction
or with its answer in a client's buffer. It is popped before the answer is known
to fit, so the exact condition is that every such answer does.
-/

import Coreletd.Companion.Session

namespace Coreletd.Companion

open Coreletd.Library
open Coreletd.Mesh

namespace Server

/-! ## What is appended -/

theorem dropClient_of_client {s : Server} {client : Nat} (hclient : s.client = some client) :
    s.dropClient = { s with
      client := none
      reader := {}
      outBuf := []
      watchesOut := false
      trace := .dropped client :: s.trace } := by
  simp [dropClient, hclient]

/-- Nobody is connected behind it. -/
theorem client_dropClient (s : Server) : s.dropClient.client = none := by
  cases hclient : s.client with
  | none => rw [dropClient, hclient, hclient]
  | some client => rw [dropClient_of_client hclient]

/-- Writing out only adds to the trace. -/
theorem flushWith_trace (s : Server) (kernel : List WriteResult) :
    s.trace <:+ (s.flushWith kernel).trace := by
  induction kernel generalizing s with
  | nil => exact List.suffix_refl _
  | cons result kernel ih =>
      rw [flushWith]
      split
      · exact List.suffix_refl _
      next client hclient =>
        split
        · exact List.suffix_refl _
        · cases result with
          | wrote more =>
              let trace := ServerEvent.wrote client (s.outBuf.take (more + 1)) :: s.trace
              exact (List.suffix_cons _ s.trace).trans
                (ih { s with outBuf := s.outBuf.drop (more + 1), trace })
          | wouldBlock => exact List.suffix_refl _
          | interrupted => exact ih s
          | failed =>
              have hclient' : ({ s with kernel } : Server).client = some client := hclient
              simp only [dropClient_of_client hclient']
              exact List.suffix_cons _ _

theorem flush_trace (s : Server) : s.trace <:+ s.flush.trace := s.flushWith_trace s.kernel

/-- The frame's bytes on top of what is buffered stay within the bound. -/
def Queues (s : Server) (payload : Bytes) : Prop :=
  s.outBuf.length + (frameResponse payload).length ≤ s.maxOutboundBytes

instance (s : Server) (payload : Bytes) : Decidable (s.Queues payload) :=
  inferInstanceAs (Decidable (_ ≤ _))

theorem hasCapacity_iff (s : Server) (payload : Bytes) :
    outboundBufferHasCapacity s.outBuf.length (frameResponse payload).length
      s.maxOutboundBytes = true ↔ s.Queues payload := by
  simp only [outboundBufferHasCapacity, Queues, Bool.and_eq_true, decide_eq_true_eq]
  omega

theorem send_queued {s : Server} {client : Nat} {payload : Bytes}
    (hclient : s.client = some client) (hqueues : s.Queues payload) :
    s.send payload = { s with
      outBuf := s.outBuf ++ frameResponse payload
      trace := .appended client (frameResponse payload) :: s.trace }.flush := by
  have hcapacity := (s.hasCapacity_iff payload).mpr hqueues
  simp [send, hclient, hcapacity]

/-- A frame that does not fit costs the client its connection. -/
theorem send_refused {s : Server} {client : Nat} {payload : Bytes}
    (hclient : s.client = some client) (hqueues : ¬ s.Queues payload) :
    s.send payload = s.dropClient := by
  have hcapacity := mt (s.hasCapacity_iff payload).mp hqueues
  simp [send, hclient, hcapacity]

/-- A frame for a connected client is appended just when it fits. -/
theorem send_appends_iff {s : Server} {client : Nat} {payload : Bytes}
    (hclient : s.client = some client) :
    .appended client (frameResponse payload) :: s.trace <:+ (s.send payload).trace ↔
      s.Queues payload := by
  constructor
  · intro hsuffix
    by_contra hqueues
    rw [send_refused hclient hqueues, dropClient_of_client hclient] at hsuffix
    have hequal := hsuffix.eq_of_length (by simp)
    simp at hequal
  · intro hqueues
    rw [send_queued hclient hqueues]
    let trace := ServerEvent.appended client (frameResponse payload) :: s.trace
    exact flush_trace { s with outBuf := s.outBuf ++ frameResponse payload, trace }

end Server

namespace Session

/-! ## Runs -/

/-- What happens to a session. -/
inductive Event where
  /-- A connection, and whether it could be made non-blocking. -/
  | accept (nonblocking : Bool)
  /-- Bytes read from the client. -/
  | feed (bytes : Bytes)
  /-- One turn of the dispatch loop. -/
  | frame
  | writable
  | hangUp
  /-- A message was received and stored. -/
  | stored (msg : StoredMessage) (io : SaveIo)
  /-- Something else the app is told of. -/
  | push (payload : Bytes)
  /-- The state writer's flush. -/
  | flushState (io : SaveIo)
  /-- How the next writes will go, and what the other parts of the daemon will
  answer. -/
  | outside (kernel : List WriteResult) (answers : List (List Bytes))

def step (s : Session) : Event → Session
  | .accept nonblocking =>
      { s with
        server := s.server.acceptClient nonblocking
        appStarted := s.appStarted && !nonblocking }
  | .feed bytes => s.feed bytes
  | .frame => s.dispatchOne.2
  | .writable => { s with server := s.server.flush }
  | .hangUp => s.dropClient
  | .stored msg io =>
      let (_, inbox, files) := s.inbox.store io s.files msg
      { s with inbox, files }.push [kPushMsgWaiting]
  | .push payload => s.push payload
  | .flushState io =>
      if s.inbox.dirty then
        let (_, inbox, files) := s.inbox.save io s.files
        { s with inbox, files }
      else s
  | .outside kernel answers => { s with server := { s.server with kernel }, answers }

theorem dispatch_eq_run (turns : Nat) (s : Session) :
    ∃ events, dispatch turns s = run step s events := by
  induction turns generalizing s with
  | zero => exact ⟨[], rfl⟩
  | succ turns ih =>
      obtain ⟨events, hevents⟩ := ih s.dispatchOne.2
      rw [dispatch]
      split
      next stopped hone => exact ⟨[.frame], by simp [step, hone]⟩
      next next hone =>
        rw [hone] at hevents
        exact ⟨.frame :: events, by rw [run_cons, step, hone, hevents]⟩

theorem readAll_eq_run (reads : List ReadResult) (s : Session) :
    ∃ events, s.readAll reads = run step s events := by
  induction reads generalizing s with
  | nil => exact ⟨[], rfl⟩
  | cons result reads ih =>
      cases result with
      | data bytes =>
          obtain ⟨dispatched, hdispatched⟩ :=
            dispatch_eq_run ((s.feed bytes).server.reader.buf.length + 1) (s.feed bytes)
          have hfed : run step s (.feed bytes :: dispatched) =
              dispatch ((s.feed bytes).server.reader.buf.length + 1) (s.feed bytes) := by
            rw [run_cons, hdispatched, step]
          simp only [readAll]
          split
          · exact ⟨_, hfed.symm⟩
          · split
            · exact ⟨_, hfed.symm⟩
            · obtain ⟨events, hevents⟩ := ih (run step s (.feed bytes :: dispatched))
              exact ⟨.feed bytes :: dispatched ++ events, by rw [run_append, ← hevents, hfed]⟩
      | closed => exact ⟨[.hangUp], rfl⟩
      | wouldBlock => exact ⟨[], rfl⟩
      | interrupted => exact ih s
      | failed => exact ⟨[.hangUp], rfl⟩

/-- A poll callback is a run of the small steps. -/
theorem onClientReady_eq_run (s : Session) (revents : Revents) (reads : List ReadResult) :
    ∃ events, s.onClientReady revents reads = run step s events := by
  rw [onClientReady]
  split
  · exact ⟨[.hangUp], rfl⟩
  · obtain ⟨flushed, hflushed⟩ : ∃ events,
        (if revents.output then { s with server := s.server.flush } else s) =
          run step s events := by
      split
      · exact ⟨[.writable], rfl⟩
      · exact ⟨[], rfl⟩
    simp only [hflushed]
    split
    · exact ⟨flushed, rfl⟩
    · obtain ⟨read, hread⟩ : ∃ events,
          (if revents.input then (run step s flushed).readAll reads else run step s flushed) =
            run step (run step s flushed) events := by
        split
        · exact readAll_eq_run reads _
        · exact ⟨[], rfl⟩
      rw [hread, ← run_append]
      split
      · exact ⟨flushed ++ read ++ [.hangUp], by rw [run_append _ _ (flushed ++ read)]; rfl⟩
      · exact ⟨flushed ++ read, rfl⟩

/-! ## What leaves the queue -/

/-- What an event adds to the queue. -/
def arrivals : Event → List StoredMessage
  | .stored msg _ => [msg]
  | _ => []

theorem arrivals_frame : arrivals .frame = [] := rfl

/-- The frame that a turn of the dispatch loop would handle. -/
def nextFrame (s : Session) : Option Bytes :=
  if s.server.connected then s.server.reader.next.1 else none

/-- The event handles a `CMD_SYNC_NEXT_MESSAGE`. -/
def Syncs (s : Session) (event : Event) : Prop :=
  event = .frame ∧ ∃ args, s.nextFrame = some (kCmdSyncNextMessage :: args)

/-- The answer to `CMD_SYNC_NEXT_MESSAGE`. -/
def syncReply (s : Session) : Bytes := s.cmdSyncNextMessage.1

/-- A store pushed these, the oldest, out of a queue that was over its limit. -/
def Evicted (s : Session) (event : Event) (gone : List StoredMessage) : Prop :=
  arrivals event ≠ [] ∧
    gone.length = (s.inbox.messages ++ arrivals event).length - s.inbox.limit

/-- The complete frame that hands the message over was appended to the buffer of the
connected client. -/
def Collected (s s' : Session) (gone : List StoredMessage) : Prop :=
  ∃ msg client, gone = [msg] ∧ s.server.client = some client ∧
    .appended client (frameResponse (messageReply msg)) :: s.server.trace <:+ s'.server.trace

/-- Nothing is lost from the queue in a step: what leaves it was evicted or collected,
and what cannot be handed over stays. -/
def Accounted (s : Session) (event : Event) (s' : Session) : Prop :=
  (∃ gone, s.inbox.messages ++ arrivals event = gone ++ s'.inbox.messages ∧
      (gone = [] ∨ Evicted s event gone ∨ Collected s s' gone)) ∧
    (Syncs s event → ¬ s.server.Queues s.syncReply → s'.inbox.messages = s.inbox.messages)

/-- The bytes on the wire that hand a message over. -/
def handoverLength (msg : StoredMessage) : Nat :=
  3 + (if msg.isChannel then 11 else 16) + msg.text.length

/-- When a `CMD_SYNC_NEXT_MESSAGE` finds a message, the outbound buffer has room for
it. -/
def Fits (s : Session) (event : Event) : Prop :=
  Syncs s event → ∀ msg, s.inbox.messages.head? = some msg →
    s.server.outBuf.length + handoverLength msg ≤ s.server.maxOutboundBytes

theorem length_messageReply (msg : StoredMessage) :
    (frameResponse (messageReply msg)).length = handoverLength msg := by
  rw [length_frameResponse, messageReply, handoverLength]
  split <;> simp [length_putPadded, putU32] <;> omega

theorem push_inbox (s : Session) (payload : Bytes) : (s.push payload).inbox = s.inbox := by
  rw [push]
  split <;> rfl

theorem foldl_reply_inbox (frames : List Bytes) (s : Session) :
    (frames.foldl reply s).inbox = s.inbox := by
  induction frames generalizing s with
  | nil => rfl
  | cons frame frames ih => exact ih (s.reply frame)

theorem cmdAppStart_inbox (s : Session) : s.cmdAppStart.inbox = s.inbox := by
  simp only [cmdAppStart, takeAnswer, apply_ite inbox, push_inbox, foldl_reply_inbox, ite_self]

theorem cmdSyncNextMessage_eq (s : Session) :
    s.cmdSyncNextMessage.2 = { s with inbox := s.inbox.pop.2 } := by
  rw [cmdSyncNextMessage]
  split
  next hpop => rw [hpop]
  next hpop => rw [hpop]

theorem syncReply_eq (s : Session) :
    s.syncReply = s.inbox.pop.1.elim [kRespNoMoreMessages] messageReply := by
  rw [syncReply, cmdSyncNextMessage]
  split
  next hpop => rw [hpop]; rfl
  next hpop => rw [hpop]; rfl

theorem syncReply_cons {s : Session} {msg : StoredMessage} {messages : List StoredMessage}
    (hmessages : s.inbox.messages = msg :: messages) : s.syncReply = messageReply msg := by
  simp [syncReply_eq, MessageInbox.pop, hmessages]

theorem handleFrame_sync (s : Session) (args : Bytes) :
    s.handleFrame (kCmdSyncNextMessage :: args) = s.cmdSyncNextMessage.2.reply s.syncReply := by
  rw [handleFrame, if_neg (by decide), if_pos rfl]
  rfl

/-- No other command reaches the inbox. -/
theorem handleFrame_inbox (s : Session) {frame : Bytes}
    (hframe : ∀ args, frame ≠ kCmdSyncNextMessage :: args) :
    (s.handleFrame frame).inbox = s.inbox := by
  cases frame with
  | nil => rfl
  | cons cmd args =>
      have hcmd : cmd ≠ kCmdSyncNextMessage := fun hcmd => hframe args (by rw [hcmd])
      rw [handleFrame, if_neg hcmd]
      split
      · exact s.cmdAppStart_inbox
      · split
        · rfl
        · split
          · rfl
          · split
            · exact foldl_reply_inbox _ _
            · rfl

/-- One turn of the dispatch loop, as far as the inbox goes. -/
theorem dispatchOne_sync {s : Session} {args : Bytes}
    (hframe : s.nextFrame = some (kCmdSyncNextMessage :: args)) :
    ∃ client, s.server.client = some client ∧
      s.dispatchOne.2.inbox = s.inbox.pop.2 ∧
      s.dispatchOne.2.server =
        { s.server with reader := s.server.reader.next.2 }.send s.syncReply := by
  rw [nextFrame] at hframe
  split at hframe
  next hconnected =>
    obtain ⟨client, hclient⟩ := Option.isSome_iff_exists.mp hconnected
    refine ⟨client, hclient, ?_⟩
    have hnext : s.server.reader.next =
        (some (kCmdSyncNextMessage :: args), s.server.reader.next.2) := Prod.ext hframe rfl
    rw [dispatchOne, hconnected, hnext]
    simp only [Bool.not_true, Bool.false_eq_true, if_false, handleFrame_sync, reply,
      cmdSyncNextMessage_eq]
    refine ⟨trivial, ?_⟩
    rw [syncReply_eq s, syncReply_eq]
  next => simp at hframe

theorem dispatchOne_inbox {s : Session}
    (hframe : ∀ args, s.nextFrame ≠ some (kCmdSyncNextMessage :: args)) :
    s.dispatchOne.2.inbox = s.inbox := by
  rw [dispatchOne]
  split
  · rfl
  next hconnected =>
    split
    · rfl
    next frame reader hnext =>
      refine handleFrame_inbox _ fun args hequal => hframe args ?_
      have hconnected' : s.server.connected = true := by simpa using hconnected
      rw [nextFrame, if_pos hconnected', hnext, hequal]

/-! Answering writes no file either. -/

theorem push_files (s : Session) (payload : Bytes) : (s.push payload).files = s.files := by
  rw [push]
  split <;> rfl

theorem foldl_reply_files (frames : List Bytes) (s : Session) :
    (frames.foldl reply s).files = s.files := by
  induction frames generalizing s with
  | nil => rfl
  | cons frame frames ih => exact ih (s.reply frame)

theorem handleFrame_files (s : Session) (frame : Bytes) :
    (s.handleFrame frame).files = s.files := by
  cases frame with
  | nil => rfl
  | cons cmd args =>
      rw [handleFrame]
      split
      · rw [cmdAppStart]
        dsimp only [takeAnswer]
        split
        · rw [push_files, foldl_reply_files]
        · exact foldl_reply_files _ _
      · split
        · show s.cmdSyncNextMessage.2.files = s.files
          rw [cmdSyncNextMessage_eq]
        · split
          · rfl
          · split
            · rfl
            · split
              · exact foldl_reply_files _ _
              · rfl

theorem dispatchOne_files (s : Session) : s.dispatchOne.2.files = s.files := by
  rw [dispatchOne]
  split
  · rfl
  · split
    · rfl
    · exact handleFrame_files _ _

/-- An event that neither stores nor hands over leaves the queue alone. -/
theorem step_messages {s : Session} {event : Event} (harrivals : arrivals event = [])
    (hsyncs : ¬ Syncs s event) : (s.step event).inbox.messages = s.inbox.messages := by
  cases event with
  | accept nonblocking => rfl
  | feed bytes => rfl
  | frame =>
      have hinbox := dispatchOne_inbox fun args hframe => hsyncs ⟨rfl, args, hframe⟩
      rw [step, hinbox]
  | writable => rfl
  | hangUp => rfl
  | stored msg io => simp [arrivals] at harrivals
  | push payload => rw [step, push_inbox]
  | flushState io =>
      rw [step]
      split
      · simp only [MessageInbox.save_eq]
      · rfl
  | outside kernel answers => rfl

theorem stored_of_arrivals {event : Event} (harrivals : arrivals event ≠ []) :
    ∃ msg io, event = .stored msg io := by
  cases event with
  | stored msg io => exact ⟨msg, io, rfl⟩
  | _ => exact absurd rfl harrivals

theorem step_stored_messages (s : Session) (msg : StoredMessage) (io : SaveIo) :
    (s.step (.stored msg io)).inbox.messages =
      (s.inbox.messages ++ [msg]).drop
        ((s.inbox.messages ++ [msg]).length - s.inbox.limit) := by
  rw [step]
  simp only [push_inbox]
  exact MessageInbox.store_messages io s.inbox s.files msg

/-- Handing over: the message is gone either way, and only an answer that fits says
where to. -/
theorem accounted_sync_iff {s : Session} {args : Bytes}
    (hframe : s.nextFrame = some (kCmdSyncNextMessage :: args)) :
    Accounted s .frame (s.step .frame) ↔ Fits s .frame := by
  have hsyncs : Syncs s .frame := ⟨rfl, args, hframe⟩
  obtain ⟨client, hclient, hinbox, hserver⟩ := dispatchOne_sync hframe
  have hsends : .appended client (frameResponse s.syncReply) :: s.server.trace <:+
      (s.step .frame).server.trace ↔ s.server.Queues s.syncReply := by
    rw [step, hserver]
    have hclient' : ({ s.server with reader := s.server.reader.next.2 } : Server).client =
        some client := hclient
    exact Server.send_appends_iff hclient'
  cases hmessages : s.inbox.messages with
  | nil =>
      have hafter : (s.step .frame).inbox.messages = [] := by
        rw [step, hinbox, MessageInbox.pop, hmessages]
        exact hmessages
      refine iff_of_true ⟨⟨[], ?_, .inl rfl⟩, fun _ _ => ?_⟩ fun _ msg hwaiting => ?_
      · rw [hmessages, hafter]; rfl
      · rw [hmessages, hafter]
      · simp [hmessages] at hwaiting
  | cons msg messages =>
      have hafter : (s.step .frame).inbox.messages = messages := by
        rw [step, hinbox, MessageInbox.pop, hmessages]
      have hreply := syncReply_cons hmessages
      have hqueues_iff : s.server.Queues s.syncReply ↔
          s.server.outBuf.length + handoverLength msg ≤ s.server.maxOutboundBytes := by
        rw [hreply, Server.Queues, length_messageReply]
      constructor
      · rintro ⟨⟨gone, hgone, hleft⟩, -⟩ - waiting hwaiting
        obtain rfl : msg = waiting := by simpa [hmessages] using hwaiting
        rw [hmessages, hafter, arrivals_frame, List.append_nil] at hgone
        have hone : gone = [msg] := List.append_cancel_right hgone.symm
        subst hone
        rcases hleft with hnone | ⟨harrivals, -⟩ | ⟨msg', client', hequal, hclient', happended⟩
        · simp at hnone
        · exact absurd rfl harrivals
        · obtain rfl : msg = msg' := by simpa using hequal
          obtain rfl : client' = client := by simpa [hclient] using hclient'.symm
          rw [← hreply] at happended
          exact hqueues_iff.mp (hsends.mp happended)
      · intro hfits
        have hqueues := hqueues_iff.mpr (hfits hsyncs msg (by simp [hmessages]))
        refine ⟨⟨[msg], ?_, .inr (.inr ⟨msg, client, rfl, hclient, ?_⟩)⟩, fun _ hnot =>
          absurd hqueues hnot⟩
        · rw [hmessages, hafter, arrivals_frame, List.append_nil]; rfl
        · rw [← hreply]
          exact hsends.mpr hqueues

/-- A step loses nothing exactly when the answer fits, if the step has one to give. -/
theorem accounted_iff_fits (s : Session) (event : Event) :
    Accounted s event (s.step event) ↔ Fits s event := by
  by_cases hsyncs : Syncs s event
  · obtain ⟨rfl, args, hframe⟩ := hsyncs
    exact accounted_sync_iff hframe
  · refine iff_of_true ⟨?_, fun hsyncs' => absurd hsyncs' hsyncs⟩ fun hsyncs' =>
      absurd hsyncs' hsyncs
    by_cases harrivals : arrivals event = []
    · exact ⟨[], by rw [harrivals, step_messages harrivals hsyncs]; simp, .inl rfl⟩
    · obtain ⟨msg, io, rfl⟩ := stored_of_arrivals harrivals
      refine ⟨(s.inbox.messages ++ [msg]).take
        ((s.inbox.messages ++ [msg]).length - s.inbox.limit), ?_, .inr (.inl ⟨harrivals, ?_⟩)⟩
      · rw [step_stored_messages, arrivals, List.take_append_drop]
      · simp [arrivals]

/-- In a run no message is lost on its way to the app, just when every answer that
hands one over fits the outbound buffer. -/
theorem collection_loses_nothing (start : Session) (events : List Event) :
    Along step (fun s event => Accounted s event (s.step event)) start events ↔
      Along step Fits start events :=
  along_congr accounted_iff_fits start events

/-! ## A client that does not drain its socket -/

/-- A message from a contact. -/
def letter : StoredMessage :=
  { senderPubkey := List.replicate 32 7, timestamp := 1, text := List.replicate 90 0x61 }

/-- The app has introduced itself and reads nothing; the letter waits. -/
structure Deaf (s : Session) (buffered : Nat) : Prop where
  started : s.appStarted = true
  client : ∃ client, s.server.client = some client
  kernel : s.server.kernel = []
  reader : s.server.reader = {}
  limit : s.server.maxOutboundBytes = 256 * 1024
  waiting : s.inbox.messages = [letter]
  buffered : s.server.outBuf.length = buffered

theorem Deaf.push {s : Session} {buffered : Nat} {payload : Bytes} (hdeaf : Deaf s buffered)
    (hroom : buffered + (payload.length + 3) ≤ 256 * 1024) :
    Deaf (s.step (.push payload)) (buffered + (payload.length + 3)) := by
  obtain ⟨client, hclient⟩ := hdeaf.client
  have hqueues : s.server.Queues payload := by
    rw [Server.Queues, length_frameResponse, hdeaf.buffered, hdeaf.limit]
    exact hroom
  have hsent : s.step (.push payload) = { s with server := s.server.send payload } := by
    rw [step, Session.push, if_pos hdeaf.started, reply]
  rw [hsent, Server.send_queued hclient hqueues, Server.flush]
  simp only [hdeaf.kernel, Server.flushWith]
  exact {
    started := hdeaf.started
    client := ⟨client, hclient⟩
    kernel := rfl
    reader := hdeaf.reader
    limit := hdeaf.limit
    waiting := hdeaf.waiting
    buffered := by rw [List.length_append, length_frameResponse, hdeaf.buffered] }

/-- Pushing to a client that reads nothing fills its buffer. -/
theorem Deaf.run_push {s : Session} {buffered : Nat} {payload : Bytes} (pushes : Nat)
    (hdeaf : Deaf s buffered) (hroom : buffered + pushes * (payload.length + 3) ≤ 256 * 1024) :
    Deaf (run step s (List.replicate pushes (.push payload)))
      (buffered + pushes * (payload.length + 3)) := by
  induction pushes generalizing s buffered with
  | zero => simpa using hdeaf
  | succ pushes ih =>
      rw [Nat.succ_mul, Nat.add_comm (pushes * _), ← Nat.add_assoc] at hroom ⊢
      rw [List.replicate_succ, run_cons]
      exact ih (hdeaf.push (by omega)) hroom

/-- The app connects, introduces itself, and is told of a message. -/
def introduction : List Event :=
  [.outside [] [[5 :: List.replicate 57 0]], .accept true,
    .feed [kFrameToDevice, 1, 0, kCmdAppStart], .frame, .stored letter {}]

theorem introduction_deaf : Deaf (run step {} introduction) 65 where
  started := by decide +kernel
  client := ⟨0, by decide +kernel⟩
  kernel := by decide +kernel
  reader := by decide +kernel
  limit := by decide +kernel
  waiting := by decide +kernel
  buffered := by decide +kernel

/-- A packet of the largest size, as it is passed on to the app. -/
def rawPacket : Bytes := 0x88 :: List.replicate 257 0

/-- The app hears of a thousand packets and reads nothing, then asks for the
message. -/
def deafRun : List Event :=
  introduction ++ List.replicate 1004 (.push rawPacket) ++
    [.feed [kFrameToDevice, 1, 0, kCmdSyncNextMessage], .frame]

theorem Deaf.not_fits {s : Session} {buffered : Nat} (hdeaf : Deaf s buffered)
    (hfull : 256 * 1024 < buffered + handoverLength letter) :
    ¬ Fits (s.step (.feed [kFrameToDevice, 1, 0, kCmdSyncNextMessage])) .frame := by
  intro hfits
  obtain ⟨client, hclient⟩ := hdeaf.client
  have hframe : (s.step (.feed [kFrameToDevice, 1, 0, kCmdSyncNextMessage])).nextFrame =
      some [kCmdSyncNextMessage] := by
    simp only [nextFrame, step, feed, Server.connected, hclient, hdeaf.reader, Option.isSome_some,
      if_true]
    decide
  have hroom := hfits ⟨rfl, [], hframe⟩ letter (by simp [step, feed, hdeaf.waiting])
  simp only [step, feed, hdeaf.buffered, hdeaf.limit] at hroom
  omega

/-- The message is gone, and so is the client that asked for it. -/
theorem deafRun_loses_letter :
    ¬ Along step (fun s event => Accounted s event (s.step event)) {} deafRun := by
  intro haccounted
  have hlength : rawPacket.length = 258 := by
    rw [rawPacket, List.length_cons, List.length_replicate]
  have hdeaf := introduction_deaf.run_push 1004 (by rw [hlength]; omega)
  rw [deafRun, along_append, run_append] at haccounted
  obtain ⟨-, -, hframe, -⟩ := haccounted
  have hletter : handoverLength letter = 109 := by simp [handoverLength, letter]
  exact hdeaf.not_fits (by rw [hlength, hletter]; omega) ((accounted_iff_fits _ _).mp hframe)

end Session

end Coreletd.Companion
