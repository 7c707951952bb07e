/-
# Answers and pushes

A frame whose code is 0x80 or above is one that the app did not ask for. What a
session puts into a client's buffer is an answer, or else a push, and a push only
once the app has introduced itself; and introducing itself tells the app of what is
waiting.
-/

import Coreletd.Companion.CleanStream

namespace Coreletd.Companion

open Coreletd.Library
open Coreletd.Mesh

/-- The first code of the pushes. -/
def kFirstPush : UInt8 := 0x80

/-- Not a push. -/
def Quiet (payload : Bytes) : Prop := ∀ code, payload.head? = some code → code < kFirstPush

/-- A push, on the wire. -/
def IsPush (frame : Bytes) : Prop := ∃ code, frame[3]? = some code ∧ kFirstPush ≤ code

theorem isPush_frameResponse (payload : Bytes) :
    IsPush (frameResponse payload) ↔ ¬ Quiet payload := by
  have hcode : (frameResponse payload)[3]? = payload.head? := by
    simp [frameResponse, putU16, List.head?_eq_getElem?]
  simp [IsPush, Quiet, hcode]

theorem quiet_cons {code : UInt8} (hcode : code < kFirstPush) (rest : Bytes) :
    Quiet (code :: rest) := by
  rintro _ ⟨⟩
  exact hcode

theorem quiet_messageReply (msg : StoredMessage) : Quiet (messageReply msg) := by
  rw [messageReply]
  split <;> exact quiet_cons (by decide) _

namespace Server

/-! ## What a server appends -/

/-- What is new on the trace, with no new client: appended were some of the payloads
`may` names, for the client that was connected. -/
structure Appends (may : Bytes → Prop) (s s' : Server) : Prop where
  trace : ∃ fresh, s'.trace = fresh ++ s.trace ∧
    ∀ client frame, ServerEvent.appended client frame ∈ fresh →
      s.client = some client ∧ ∃ payload, may payload ∧ frame = frameResponse payload
  client : s'.client = s.client ∨ s'.client = none
  numbers : s'.nextClient = s.nextClient

variable {may : Bytes → Prop} {s s' s'' : Server}

theorem Appends.of_eq (htrace : s'.trace = s.trace) (hclient : s'.client = s.client)
    (hnumbers : s'.nextClient = s.nextClient) : Appends may s s' :=
  ⟨⟨[], htrace, by simp⟩, .inl hclient, hnumbers⟩

theorem Appends.trans (hfirst : Appends may s s') (hsecond : Appends may s' s'') :
    Appends may s s'' := by
  obtain ⟨fresh, htrace, hfresh⟩ := hfirst.trace
  obtain ⟨fresh', htrace', hfresh'⟩ := hsecond.trace
  refine ⟨⟨fresh' ++ fresh, by rw [htrace', htrace, List.append_assoc], ?_⟩, ?_,
    hsecond.numbers.trans hfirst.numbers⟩
  · intro client frame hmem
    rcases List.mem_append.mp hmem with hlater | hearlier
    · obtain ⟨hclient, hpayload⟩ := hfresh' client frame hlater
      refine ⟨?_, hpayload⟩
      rcases hfirst.client with hsame | hnone
      · rw [← hsame, hclient]
      · rw [hnone] at hclient
        cases hclient
    · exact hfresh client frame hearlier
  · rcases hsecond.client with hsame | hnone
    · rw [hsame]
      exact hfirst.client
    · exact .inr hnone

theorem appends_dropClient (s : Server) : Appends may s s.dropClient := by
  cases hclient : s.client with
  | none =>
      rw [dropClient, hclient]
      exact .of_eq rfl rfl rfl
  | some client =>
      rw [dropClient_of_client hclient]
      exact ⟨⟨[.dropped client], rfl, by simp⟩, .inr rfl, rfl⟩

theorem appends_flushWith (s : Server) (kernel : List WriteResult) :
    Appends may s (s.flushWith kernel) := by
  induction kernel generalizing s with
  | nil => exact .of_eq rfl rfl rfl
  | cons result kernel ih =>
      rw [flushWith]
      split
      · exact .of_eq rfl rfl rfl
      next client hclient =>
        split
        · exact .of_eq rfl rfl rfl
        · cases result with
          | wrote more =>
              let trace := ServerEvent.wrote client (s.outBuf.take (more + 1)) :: s.trace
              have hwrote : Appends may s { s with outBuf := s.outBuf.drop (more + 1), trace } :=
                ⟨⟨[.wrote client (s.outBuf.take (more + 1))], rfl, by simp⟩, .inl rfl, rfl⟩
              exact hwrote.trans (ih _)
          | wouldBlock => exact .of_eq rfl rfl rfl
          | interrupted => exact ih s
          | failed =>
              have hkernel : Appends may s { s with kernel } := .of_eq rfl rfl rfl
              exact hkernel.trans (appends_dropClient _)

theorem appends_flush (s : Server) : Appends may s s.flush := s.appends_flushWith s.kernel

theorem appends_send (s : Server) {payload : Bytes} (hmay : may payload) :
    Appends may s (s.send payload) := by
  cases hclient : s.client with
  | none =>
      rw [send, hclient]
      exact .of_eq rfl rfl rfl
  | some client =>
      by_cases hqueues : s.Queues payload
      · rw [send_queued hclient hqueues]
        have happended : Appends may s { s with
            outBuf := s.outBuf ++ frameResponse payload
            trace := .appended client (frameResponse payload) :: s.trace } := by
          refine ⟨⟨[.appended client (frameResponse payload)], rfl, ?_⟩, .inl rfl, rfl⟩
          intro other frame hmem
          obtain ⟨rfl, rfl⟩ : other = client ∧ frame = frameResponse payload := by
            simpa using hmem
          exact ⟨hclient, payload, hmay, rfl⟩
        exact happended.trans (appends_flush _)
      · rw [send_refused hclient hqueues]
        exact s.appends_dropClient

/-- Unless the client is lost over it, what is sent is appended. -/
theorem send_tells {client : Nat} (hclient : s.client = some client) (payload : Bytes) :
    (s.send payload).client = none ∨
      ∃ after, (s.send payload).trace =
        after ++ .appended client (frameResponse payload) :: s.trace := by
  by_cases hqueues : s.Queues payload
  · obtain ⟨after, hafter⟩ := (send_appends_iff hclient).mpr hqueues
    exact .inr ⟨after, hafter.symm⟩
  · rw [send_refused hclient hqueues, dropClient_of_client hclient]
    exact .inl rfl

/-! ## What is written was appended -/

/-- The bytes that an event of the trace put into a client's buffer. -/
def queuedBy (client : Nat) : ServerEvent → Bytes
  | .appended current frame => if current = client then frame else []
  | _ => []

/-- Everything queued for a client so far. -/
def queuedFor (client : Nat) (s : Server) : Bytes := s.trace.reverse.flatMap (queuedBy client)

theorem queuedFor_of_appends (happends : Appends (fun _ => False) s s') (client : Nat) :
    s'.queuedFor client = s.queuedFor client := by
  obtain ⟨fresh, htrace, hfresh⟩ := happends.trace
  have hnothing : fresh.reverse.flatMap (queuedBy client) = [] := by
    rw [List.flatMap_eq_nil_iff]
    intro event hmem
    cases event with
    | appended current frame =>
        obtain ⟨-, payload, hnone, -⟩ := hfresh current frame (List.mem_reverse.mp hmem)
        exact absurd hnone id
    | _ => rfl
  rw [queuedFor, htrace, List.reverse_append, List.flatMap_append, hnothing, List.append_nil,
    queuedFor]

/-- What was written to a client is the first of what was queued for it, and as long as
it is connected the rest waits in the buffer. -/
structure Delivers (s : Server) : Prop where
  numbered : ∀ client, s.client = some client → client < s.nextClient
  unseen : ∀ client, s.nextClient ≤ client → s.writtenTo client = [] ∧ s.queuedFor client = []
  written : ∀ client, s.writtenTo client <+: s.queuedFor client
  waiting : ∀ client, s.client = some client →
    s.writtenTo client ++ s.outBuf = s.queuedFor client

theorem Delivers.dropClient (hs : s.Delivers) : s.dropClient.Delivers := by
  have hdropped : Appends (fun _ => False) s s.dropClient := s.appends_dropClient
  have hqueued := queuedFor_of_appends hdropped
  have hwritten := s.writtenTo_dropClient
  cases hclient : s.client with
  | none => rwa [Server.dropClient, hclient]
  | some current =>
      have hnobody : s.dropClient.client = none := by rw [dropClient_of_client hclient]
      refine ⟨fun client h => ?_, fun client hunseen => ?_, fun client => ?_, fun client h => ?_⟩
      · rw [hnobody] at h
        cases h
      · rw [hqueued, hwritten]
        refine hs.unseen client ?_
        rwa [hdropped.numbers] at hunseen
      · rw [hqueued, hwritten]
        exact hs.written client
      · rw [hnobody] at h
        cases h

theorem Delivers.flush (hs : s.Delivers) : s.flush.Delivers := by
  obtain ⟨bytes, hflushed⟩ := flush_flushed s
  have hqueued := queuedFor_of_appends s.appends_flush
  have hwritten := hflushed.written
  -- a client that is gone had what was taken of its buffer
  have hfront : ∀ client, s.flush.writtenTo client <+: s.queuedFor client := by
    intro client
    rw [hwritten]
    split
    next hcurrent =>
      rw [← hs.waiting client hcurrent]
      exact (List.prefix_append_right_inj _).mpr hflushed.taken
    next =>
      rw [List.append_nil]
      exact hs.written client
  refine ⟨fun client hclient => ?_, fun client hunseen => ?_, fun client => ?_,
    fun client hclient => ?_⟩
  · rw [hflushed.numbers]
    obtain ⟨hsame, -⟩ | ⟨hnone, -⟩ := hflushed.kept
    · exact hs.numbered client (hsame ▸ hclient)
    · rw [hnone] at hclient
      cases hclient
  · rw [hflushed.numbers] at hunseen
    have hnothing := hs.unseen client hunseen
    have hfront' := hfront client
    rw [hnothing.2, List.prefix_nil] at hfront'
    rw [hqueued]
    exact ⟨hfront', hnothing.2⟩
  · rw [hqueued]
    exact hfront client
  · obtain ⟨hsame, -, hrest⟩ | ⟨hnone, -⟩ := hflushed.kept
    · rw [hsame] at hclient
      rw [hqueued, hwritten, if_pos hclient, List.append_assoc, hrest]
      exact hs.waiting client hclient
    · rw [hnone] at hclient
      cases hclient

theorem Delivers.append (hs : s.Delivers) {current : Nat} (hcurrent : s.client = some current)
    (frame : Bytes) :
    Delivers { s with
      outBuf := s.outBuf ++ frame, trace := .appended current frame :: s.trace } := by
  have hwritten (client : Nat) : ({ s with
      outBuf := s.outBuf ++ frame, trace := .appended current frame :: s.trace } :
        Server).writtenTo client = s.writtenTo client := by
    simp [writtenTo, wroteTo]
  have hqueued (client : Nat) : ({ s with
      outBuf := s.outBuf ++ frame, trace := .appended current frame :: s.trace } :
        Server).queuedFor client =
          s.queuedFor client ++ if current = client then frame else [] := by
    simp [queuedFor, queuedBy]
  refine ⟨hs.numbered, fun client hunseen => ?_, fun client => ?_, fun client hclient => ?_⟩
  · have hother : current ≠ client := by
      rintro rfl
      exact absurd (hs.numbered current hcurrent) (Nat.not_lt.mpr hunseen)
    rw [hwritten, hqueued, if_neg hother, List.append_nil]
    exact hs.unseen client hunseen
  · rw [hwritten, hqueued]
    exact (hs.written client).trans (List.prefix_append _ _)
  · obtain rfl : current = client := Option.some.inj (hcurrent.symm.trans hclient)
    rw [hwritten, hqueued, if_pos rfl, ← hs.waiting current hcurrent, List.append_assoc]

theorem Delivers.send (hs : s.Delivers) (payload : Bytes) : (s.send payload).Delivers := by
  cases hclient : s.client with
  | none => rwa [Server.send, hclient]
  | some current =>
      by_cases hqueues : s.Queues payload
      · rw [send_queued hclient hqueues]
        exact (hs.append hclient _).flush
      · rw [send_refused hclient hqueues]
        exact hs.dropClient

theorem Delivers.acceptClient (hs : s.Delivers) (nonblocking : Bool) :
    (s.acceptClient nonblocking).Delivers := by
  have hdropped := hs.dropClient
  rw [Server.acceptClient]
  generalize s.dropClient = s at hdropped ⊢
  split
  · exact hdropped
  · let s' : Server := { s with
      client := some s.nextClient
      nextClient := s.nextClient + 1
      reader := {}
      outBuf := []
      trace := .accepted s.nextClient :: s.trace }
    have hwritten (client : Nat) : s'.writtenTo client = s.writtenTo client := by
      simp [s', writtenTo, wroteTo]
    have hqueued (client : Nat) : s'.queuedFor client = s.queuedFor client := by
      simp [s', queuedFor, queuedBy]
    show s'.Delivers
    refine ⟨fun client hclient => ?_, fun client hunseen => ?_, fun client => ?_,
      fun client hclient => ?_⟩
    · obtain rfl := Option.some.inj hclient
      exact Nat.lt_succ_self _
    · rw [hwritten, hqueued]
      exact hdropped.unseen client (Nat.le_of_succ_le hunseen)
    · rw [hwritten, hqueued]
      exact hdropped.written client
    · -- the new client has the next number, which has no history
      obtain ⟨hnothing, hnone⟩ := hdropped.unseen client (Option.some.inj hclient).le
      rw [hwritten, hqueued, hnothing, hnone]
      rfl

theorem Delivers.step (hs : s.Delivers) (event : Event) : (s.step event).Delivers := by
  cases event with
  | accept nonblocking => exact hs.acceptClient nonblocking
  | send payload => exact hs.send payload
  | read bytes =>
      rw [Server.step]
      split
      · exact ⟨hs.numbered, hs.unseen, hs.written, hs.waiting⟩
      · exact hs
  | next =>
      rw [Server.step]
      split
      · exact ⟨hs.numbered, hs.unseen, hs.written, hs.waiting⟩
      · exact hs
  | writable => exact hs.flush
  | drop => exact hs.dropClient
  | kernel results => exact ⟨hs.numbered, hs.unseen, hs.written, hs.waiting⟩

theorem Delivers.run (hs : s.Delivers) (events : List Event) :
    (Library.run Server.step s events).Delivers :=
  run_invariant (fun _ event hs => hs.step event) hs events

end Server

namespace Session

/-! ## What a session says -/

/-- With no new client and no new introduction: answers, and pushes to an app that has
introduced itself; and no message is new. -/
structure Speaks (s s' : Session) : Prop where
  server : s.server.Appends (fun payload => Quiet payload ∨ s.appStarted = true) s'.server
  appStarted : s'.appStarted = s.appStarted
  messages : s'.inbox.messages <:+ s.inbox.messages

variable {s s' s'' : Session}

theorem Speaks.refl (s : Session) : Speaks s s :=
  ⟨.of_eq rfl rfl rfl, rfl, List.suffix_rfl⟩

theorem Speaks.trans (hfirst : Speaks s s') (hsecond : Speaks s' s'') : Speaks s s'' := by
  refine ⟨hfirst.server.trans ?_, hsecond.appStarted.trans hfirst.appStarted,
    hsecond.messages.trans hfirst.messages⟩
  have hsame := hsecond.server
  rwa [hfirst.appStarted] at hsame

theorem Speaks.of_server {server : Server}
    (hserver : s.server.Appends (fun payload => Quiet payload ∨ s.appStarted = true) server) :
    Speaks s { s with server } := ⟨hserver, rfl, List.suffix_rfl⟩

theorem speaks_reply (s : Session) {payload : Bytes} (hquiet : Quiet payload) :
    Speaks s (s.reply payload) := .of_server (s.server.appends_send (.inl hquiet))

theorem speaks_push (s : Session) (payload : Bytes) : Speaks s (s.push payload) := by
  rw [push]
  split
  next hstarted => exact .of_server (s.server.appends_send (.inr hstarted))
  next => exact .refl s

theorem speaks_replies {frames : List Bytes} (hquiet : ∀ frame ∈ frames, Quiet frame)
    (s : Session) : Speaks s (frames.foldl reply s) := by
  induction frames generalizing s with
  | nil => exact .refl s
  | cons frame frames ih =>
      obtain ⟨hframe, hframes⟩ := List.forall_mem_cons.mp hquiet
      exact (s.speaks_reply hframe).trans (ih hframes _)

/-- The answers of the rest of the daemon are answers. -/
def QuietAnswers (s : Session) : Prop := ∀ frame ∈ s.answers.headD [], Quiet frame

/-- Taking in an introduction: the app is answered, and told of what is waiting. -/
theorem cmdAppStart_says (hquiet : s.QuietAnswers) :
    ∃ answered, Speaks { s with appStarted := true } answered ∧
      s.cmdAppStart = if answered.inbox.messages ≠ [] then answered.push [kPushMsgWaiting]
        else answered := by
  let introduced : Session := { s with appStarted := true, answers := s.answers.tail }
  have htaken : Speaks { s with appStarted := true } introduced :=
    ⟨.of_eq rfl rfl rfl, rfl, List.suffix_rfl⟩
  exact ⟨_, htaken.trans (speaks_replies hquiet introduced), rfl⟩

/-- Every other frame is answered. -/
theorem speaks_handleFrame (hquiet : s.QuietAnswers) {frame : Bytes}
    (hframe : frame.head? ≠ some kCmdAppStart) : Speaks s (s.handleFrame frame) := by
  cases frame with
  | nil => exact .refl s
  | cons cmd args =>
      have hcmd : cmd ≠ kCmdAppStart := fun hcmd => hframe (by rw [hcmd]; rfl)
      rw [handleFrame, if_neg hcmd]
      split
      next hsync =>
        have hpopped : Speaks s s.cmdSyncNextMessage.2 := by
          rw [cmdSyncNextMessage_eq]
          refine ⟨.of_eq rfl rfl rfl, rfl, ?_⟩
          dsimp only
          rw [MessageInbox.pop]
          split
          · exact List.suffix_rfl
          next hmessages =>
            rw [hmessages]
            exact List.suffix_cons _ _
        have hanswer : Quiet s.syncReply := by
          rw [syncReply_eq]
          cases s.inbox.pop.1 with
          | none => exact quiet_cons (by decide) _
          | some msg => exact quiet_messageReply msg
        exact hpopped.trans (speaks_reply _ hanswer)
      · split
        · exact s.speaks_reply (quiet_cons (by decide) _)
        · split
          · exact s.speaks_reply (quiet_cons (by decide) _)
          · split
            · have htaken : Speaks s { s with answers := s.answers.tail } :=
                ⟨.of_eq rfl rfl rfl, rfl, List.suffix_rfl⟩
              exact htaken.trans (speaks_replies hquiet _)
            · exact s.speaks_reply (quiet_cons (by decide) _)

/-- The session with the next frame taken off its reader. -/
def advanced (s : Session) : Session :=
  { s with server := { s.server with reader := s.server.reader.next.2 } }

theorem speaks_advanced (s : Session) : Speaks s s.advanced :=
  ⟨.of_eq rfl rfl rfl, rfl, List.suffix_rfl⟩

theorem dispatchOne_eq {frame : Bytes} (hframe : s.nextFrame = some frame) :
    s.dispatchOne.2 = s.advanced.handleFrame frame := by
  rw [nextFrame] at hframe
  split at hframe
  next hconnected =>
    have hnext : s.server.reader.next = (some frame, s.server.reader.next.2) := Prod.ext hframe rfl
    rw [dispatchOne, hconnected, hnext]
    rfl
  next => cases hframe

theorem speaks_dispatchOne_idle (hframe : s.nextFrame = none) : Speaks s s.dispatchOne.2 := by
  rw [nextFrame] at hframe
  rw [dispatchOne]
  split at hframe
  next hconnected =>
    have hnext : s.server.reader.next = (none, s.server.reader.next.2) := Prod.ext hframe rfl
    rw [hconnected, hnext]
    exact s.speaks_advanced
  next hconnected =>
    rw [if_pos (by simpa using hconnected)]
    exact .refl s

/-- A turn of the dispatch loop says no more than its answers, unless it takes in an
introduction. -/
theorem speaks_frame (hquiet : s.QuietAnswers)
    (hframe : ∀ args, s.nextFrame ≠ some (kCmdAppStart :: args)) :
    Speaks s (s.step .frame) := by
  rw [step]
  cases hnext : s.nextFrame with
  | none => exact speaks_dispatchOne_idle hnext
  | some frame =>
      have hquiet' : s.advanced.QuietAnswers := hquiet
      rw [dispatchOne_eq hnext]
      refine s.speaks_advanced.trans (speaks_handleFrame hquiet' fun hcmd => ?_)
      cases frame with
      | nil => cases hcmd
      | cons cmd args =>
          obtain rfl := Option.some.inj hcmd
          exact hframe args hnext

end Session

end Coreletd.Companion
