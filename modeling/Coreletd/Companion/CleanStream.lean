/-
# A clean stream for every client

The server in steps as small as they come, and what every run of it keeps for each
connection: what is on the wire and what waits behind it are the frames sent while
it was current, and the frames dispatched for it are those of its own bytes.
-/

import Coreletd.Companion.Collection
import Coreletd.Companion.Deframing

namespace Coreletd.Companion

open Coreletd.Library

namespace Server

/-! ## Runs -/

/-- What happens to a server. -/
inductive Event where
  /-- A connection, and whether it could be made non-blocking. -/
  | accept (nonblocking : Bool)
  | send (payload : Bytes)
  /-- Bytes read from the client. -/
  | read (bytes : Bytes)
  /-- The dispatch loop takes the next frame of the reader. -/
  | next
  | writable
  /-- The peer closed or hung up, the socket failed, or we shut down. -/
  | drop
  /-- How the next writes will go. -/
  | kernel (results : List WriteResult)

def step (s : Server) : Event → Server
  | .accept nonblocking => s.acceptClient nonblocking
  | .send payload => s.send payload
  | .read bytes => if s.connected then { s with reader := s.reader.feed bytes } else s
  | .next => if s.connected then { s with reader := s.reader.next.2 } else s
  | .writable => s.flush
  | .drop => s.dropClient
  | .kernel results => { s with kernel := results }

/-- The payload sent by a step while `client` was connected. -/
def sentTo (client : Nat) (s : Server) : Event → List Bytes
  | .send payload => if s.client = some client then [payload] else []
  | _ => []

/-- The bytes read from `client` by a step. -/
def receivedFrom (client : Nat) (s : Server) : Event → Bytes
  | .read bytes => if s.client = some client then bytes else []
  | _ => []

/-- The frame a step takes off the reader while `client` is connected. -/
def takenFor (client : Nat) (s : Server) : Event → List Bytes
  | .next => if s.client = some client then s.reader.next.1.toList else []
  | _ => []

/-- The frame a step hands to the frame handler for `client`: none that is empty. -/
def dispatchedFor (client : Nat) (s : Server) (event : Event) : List Bytes :=
  (takenFor client s event).filter (· ≠ [])

/-- The bytes an event of the trace put on a client's wire. -/
def wroteTo (client : Nat) : ServerEvent → Bytes
  | .wrote writer bytes => if writer = client then bytes else []
  | _ => []

/-- Everything written to a client so far. -/
def writtenTo (client : Nat) (s : Server) : Bytes := s.trace.reverse.flatMap (wroteTo client)

/-! ## Writing out -/

/-- Writing out took `bytes` off the front of the buffer; the client may be lost over
it. -/
structure Flushed (s s' : Server) (bytes : Bytes) : Prop where
  limit : s'.maxOutboundBytes = s.maxOutboundBytes
  numbers : s'.nextClient = s.nextClient
  written : ∀ client, s'.writtenTo client =
    s.writtenTo client ++ if s.client = some client then bytes else []
  taken : bytes <+: s.outBuf
  kept : (s'.client = s.client ∧ s'.reader = s.reader ∧ bytes ++ s'.outBuf = s.outBuf) ∨
    (s'.client = none ∧ s'.outBuf = [])

theorem Flushed.refl (s : Server) {s' : Server} (hlimit : s'.maxOutboundBytes = s.maxOutboundBytes)
    (hnumbers : s'.nextClient = s.nextClient) (htrace : s'.trace = s.trace)
    (hclient : s'.client = s.client) (hreader : s'.reader = s.reader)
    (hbuf : s'.outBuf = s.outBuf) : Flushed s s' [] where
  limit := hlimit
  numbers := hnumbers
  written client := by simp [writtenTo, htrace]
  taken := List.nil_prefix
  kept := .inl ⟨hclient, hreader, hbuf⟩

theorem writtenTo_dropClient (s : Server) (client : Nat) :
    s.dropClient.writtenTo client = s.writtenTo client := by
  rw [dropClient]
  split
  · rfl
  · simp [writtenTo, wroteTo]

theorem flushWith_flushed (s : Server) (kernel : List WriteResult) :
    ∃ bytes, Flushed s (s.flushWith kernel) bytes := by
  induction kernel generalizing s with
  | nil => exact ⟨[], .refl s rfl rfl rfl rfl rfl rfl⟩
  | cons result kernel ih =>
      rw [flushWith]
      split
      · exact ⟨[], .refl s rfl rfl rfl rfl rfl rfl⟩
      next current hclient =>
        split
        · exact ⟨[], .refl s rfl rfl rfl rfl rfl rfl⟩
        · cases result with
          | wrote more =>
              let first := s.outBuf.take (more + 1)
              let outBuf := s.outBuf.drop (more + 1)
              let trace := ServerEvent.wrote current first :: s.trace
              obtain ⟨bytes, hflushed⟩ := ih { s with outBuf, trace }
              have hsplit : first ++ outBuf = s.outBuf := List.take_append_drop _ _
              refine ⟨first ++ bytes, hflushed.limit, hflushed.numbers, fun client => ?_, ?_, ?_⟩
              · rw [hflushed.written]
                by_cases hcurrent : s.client = some client
                · obtain rfl : current = client := Option.some.inj (hclient.symm.trans hcurrent)
                  simp [writtenTo, wroteTo, trace, hclient]
                · have hother : current ≠ client := fun h => hcurrent (h ▸ hclient)
                  simp [writtenTo, wroteTo, trace, hcurrent, hother]
              · rw [← hsplit]
                exact (List.prefix_append_right_inj first).mpr hflushed.taken
              · obtain ⟨hsame, hreader, hrest⟩ | hlost := hflushed.kept
                · exact .inl ⟨hsame, hreader, by rw [List.append_assoc, hrest, hsplit]⟩
                · exact .inr hlost
          | wouldBlock => exact ⟨[], .refl s rfl rfl rfl rfl rfl rfl⟩
          | interrupted => exact ih s
          | failed =>
              have hclient' : ({ s with kernel } : Server).client = some current := hclient
              refine ⟨[], ?_, ?_, fun client => ?_, List.nil_prefix, .inr ?_⟩
              · simp [dropClient_of_client hclient']
              · simp [dropClient_of_client hclient']
              · simp only [writtenTo_dropClient, ite_self, List.append_nil]
                rfl
              · simp [dropClient_of_client hclient']

theorem flush_flushed (s : Server) :
    ∃ bytes, Flushed s s.flush bytes := flushWith_flushed s s.kernel

/-! ## What a run keeps -/

/-- The buffer is bounded, and the connected client is one of those numbered so far. -/
structure Sound (s : Server) : Prop where
  bounded : s.outBuf.length ≤ s.maxOutboundBytes
  numbered : ∀ current, s.client = some current → current < s.nextClient

/-- What a connection has seen, given the payloads sent and the bytes received while it
was current and the frames taken for it. -/
structure Clean (client : Nat) (s : Server) (sent : List Bytes) (received : Bytes)
    (taken : List Bytes) : Prop where
  /-- A number that was not given out yet has no history. -/
  unseen : s.nextClient ≤ client →
    s.writtenTo client = [] ∧ sent = [] ∧ received = [] ∧ taken = []
  written : s.writtenTo client <+: sent.flatMap frameResponse
  queued : s.client = some client →
    s.writtenTo client ++ s.outBuf = sent.flatMap frameResponse
  own : taken <+: (drain FrameReader.scan received).1
  pending : s.client = some client → drain FrameReader.scan received =
    (taken ++ (drain FrameReader.scan s.reader.buf).1, (drain FrameReader.scan s.reader.buf).2)

variable {client : Nat} {s : Server} {sent taken : List Bytes} {received : Bytes}

theorem Sound.dropClient (hsound : s.Sound) : s.dropClient.Sound := by
  cases hclient : s.client with
  | none => rwa [Server.dropClient, hclient]
  | some current =>
      rw [dropClient_of_client hclient]
      exact ⟨Nat.zero_le _, fun current hnone => by cases hnone⟩

theorem Clean.dropClient (hclean : Clean client s sent received taken) :
    Clean client s.dropClient sent received taken := by
  cases hclient : s.client with
  | none => rwa [Server.dropClient, hclient]
  | some current =>
      have hwritten := s.writtenTo_dropClient client
      rw [dropClient_of_client hclient] at hwritten ⊢
      refine ⟨fun hunseen => ?_, ?_, fun hnone => ?_, hclean.own, fun hnone => ?_⟩
      · rw [hwritten]
        exact hclean.unseen hunseen
      · rw [hwritten]
        exact hclean.written
      · cases hnone
      · cases hnone

/-- A step that takes the server to one with `bytes` of its buffer written. -/
theorem Sound.flushed {s' : Server} {bytes : Bytes} (hsound : s.Sound)
    (hflushed : Flushed s s' bytes) : s'.Sound := by
  obtain ⟨hclient, -, hrest⟩ | ⟨hclient, hempty⟩ := hflushed.kept
  · refine ⟨?_, fun current hcurrent => ?_⟩
    · have hlength := congrArg List.length hrest
      rw [List.length_append] at hlength
      have hbounded := hsound.bounded
      rw [hflushed.limit]
      omega
    · rw [hflushed.numbers]
      exact hsound.numbered current (hclient ▸ hcurrent)
  · refine ⟨by rw [hempty]; exact Nat.zero_le _, fun current hcurrent => ?_⟩
    rw [hclient] at hcurrent
    cases hcurrent

theorem Clean.flushed {s' : Server} {bytes : Bytes} (hclean : Clean client s sent received taken)
    (hsound : s.Sound) (hflushed : Flushed s s' bytes) : Clean client s' sent received taken := by
  by_cases hcurrent : s.client = some client
  · have hwritten := hflushed.written client
    rw [if_pos hcurrent] at hwritten
    have hqueued := hclean.queued hcurrent
    refine ⟨fun hunseen => ?_, ?_, fun hcurrent' => ?_, hclean.own, fun hcurrent' => ?_⟩
    · rw [hflushed.numbers] at hunseen
      exact absurd (hsound.numbered client hcurrent) (Nat.not_lt.mpr hunseen)
    · rw [hwritten, ← hqueued]
      exact (List.prefix_append_right_inj _).mpr hflushed.taken
    · obtain ⟨-, -, hrest⟩ | ⟨hnone, -⟩ := hflushed.kept
      · rw [hwritten, List.append_assoc, hrest, hqueued]
      · rw [hnone] at hcurrent'
        cases hcurrent'
    · obtain ⟨-, hreader, -⟩ | ⟨hnone, -⟩ := hflushed.kept
      · rw [hreader]
        exact hclean.pending hcurrent
      · rw [hnone] at hcurrent'
        cases hcurrent'
  · have hwritten : s'.writtenTo client = s.writtenTo client := by
      rw [hflushed.written, if_neg hcurrent, List.append_nil]
    have hnot : s'.client ≠ some client := by
      obtain ⟨hsame, -⟩ | ⟨hnone, -⟩ := hflushed.kept
      · rwa [hsame]
      · rw [hnone]
        exact Option.some_ne_none client |>.symm
    refine ⟨fun hunseen => ?_, ?_, fun hcurrent' => absurd hcurrent' hnot, hclean.own,
      fun hcurrent' => absurd hcurrent' hnot⟩
    · rw [hwritten]
      exact hclean.unseen (hflushed.numbers ▸ hunseen)
    · rw [hwritten]
      exact hclean.written

/-- A payload that fits goes behind what is queued. -/
theorem Clean.append {payload : Bytes} {current : Nat}
    (hclean : Clean client s sent received taken) (hsound : s.Sound) :
    Clean client
      { s with
        outBuf := s.outBuf ++ frameResponse payload
        trace := .appended current (frameResponse payload) :: s.trace }
      (sent ++ sentTo client s (.send payload)) received taken := by
  have hwritten (outBuf : Bytes) : ({ s with
      outBuf, trace := .appended current (frameResponse payload) :: s.trace } : Server).writtenTo
        client = s.writtenTo client := by
    simp [writtenTo, wroteTo]
  by_cases hcurrent : s.client = some client
  · refine ⟨fun hunseen => ?_, ?_, fun _ => ?_, hclean.own, fun _ => hclean.pending hcurrent⟩
    · exact absurd (hsound.numbered client hcurrent) (Nat.not_lt.mpr hunseen)
    · rw [hwritten, List.flatMap_append]
      exact hclean.written.trans (List.prefix_append _ _)
    · rw [hwritten, sentTo, if_pos hcurrent, List.flatMap_append, ← hclean.queued hcurrent]
      simp
  · rw [sentTo, if_neg hcurrent, List.append_nil]
    refine ⟨fun hunseen => ?_, ?_, fun h => absurd h hcurrent, hclean.own,
      fun h => absurd h hcurrent⟩
    · rw [hwritten]
      exact hclean.unseen hunseen
    · rw [hwritten]
      exact hclean.written

/-- What is sent to a client that is lost over it stays off the wire. -/
theorem Clean.refuse (hclean : Clean client s sent received taken) (hsound : s.Sound)
    (payload : Bytes) :
    Clean client s.dropClient (sent ++ sentTo client s (.send payload)) received taken := by
  have hdropped := hclean.dropClient
  by_cases hcurrent : s.client = some client
  · refine ⟨fun hunseen => ?_, ?_, fun hclient => ?_, hclean.own, fun hclient => ?_⟩
    · rw [dropClient_of_client hcurrent] at hunseen
      exact absurd (hsound.numbered client hcurrent) (Nat.not_lt.mpr hunseen)
    · rw [List.flatMap_append]
      exact hdropped.written.trans (List.prefix_append _ _)
    · simp [dropClient_of_client hcurrent] at hclient
    · simp [dropClient_of_client hcurrent] at hclient
  · rwa [sentTo, if_neg hcurrent, List.append_nil]

theorem Sound.append {payload : Bytes} {trace : List ServerEvent} (hsound : s.Sound)
    (hqueues : s.Queues payload) :
    ({ s with outBuf := s.outBuf ++ frameResponse payload, trace } : Server).Sound :=
  ⟨by simpa [Queues] using hqueues, hsound.numbered⟩

theorem send_sound (hsound : s.Sound) (payload : Bytes) : (s.send payload).Sound := by
  cases hclient : s.client with
  | none => rwa [send, hclient]
  | some current =>
      by_cases hqueues : s.Queues payload
      · rw [send_queued hclient hqueues]
        let outBuf := s.outBuf ++ frameResponse payload
        let trace := ServerEvent.appended current (frameResponse payload) :: s.trace
        obtain ⟨bytes, hflushed⟩ := flush_flushed { s with outBuf, trace }
        exact (hsound.append hqueues).flushed hflushed
      · rw [send_refused hclient hqueues]
        exact hsound.dropClient

theorem step_sound (hsound : s.Sound) (event : Event) : (s.step event).Sound := by
  cases event with
  | accept nonblocking =>
      rw [step, acceptClient]
      have hdropped := hsound.dropClient
      split
      · exact hdropped
      · refine ⟨Nat.zero_le _, fun current hcurrent => ?_⟩
        obtain rfl : s.dropClient.nextClient = current := Option.some.inj hcurrent
        exact Nat.lt_succ_self _
  | send payload => exact send_sound hsound payload
  | read bytes =>
      rw [step]
      split
      · exact ⟨hsound.bounded, hsound.numbered⟩
      · exact hsound
  | next =>
      rw [step]
      split
      · exact ⟨hsound.bounded, hsound.numbered⟩
      · exact hsound
  | writable =>
      obtain ⟨bytes, hflushed⟩ := flush_flushed s
      exact hsound.flushed hflushed
  | drop => exact hsound.dropClient
  | kernel results => exact ⟨hsound.bounded, hsound.numbered⟩

theorem run_sound (hsound : s.Sound) (events : List Event) : (run step s events).Sound := by
  have hstep : ∀ s event, Sound s → Sound (step s event) := fun _ event h => step_sound h event
  exact run_invariant hstep hsound events

theorem dropClient_limit (s : Server) : s.dropClient.maxOutboundBytes = s.maxOutboundBytes := by
  rw [Server.dropClient]
  split <;> rfl

theorem flush_limit (s : Server) : s.flush.maxOutboundBytes = s.maxOutboundBytes := by
  obtain ⟨bytes, hflushed⟩ := flush_flushed s
  exact hflushed.limit

theorem step_limit (s : Server) (event : Event) :
    (s.step event).maxOutboundBytes = s.maxOutboundBytes := by
  cases event with
  | accept nonblocking =>
      rw [step, acceptClient]
      split <;> exact s.dropClient_limit
  | send payload =>
      rw [step, send]
      split
      · rfl
      · simp only
        split
        · exact s.dropClient_limit
        · exact flush_limit _
  | read bytes =>
      rw [step]
      split <;> rfl
  | next =>
      rw [step]
      split <;> rfl
  | writable => exact s.flush_limit
  | drop => exact s.dropClient_limit
  | kernel results => rfl

/-- The bound is set once. -/
theorem run_limit (s : Server) (events : List Event) :
    (run step s events).maxOutboundBytes = s.maxOutboundBytes := by
  induction events generalizing s with
  | nil => rfl
  | cons event events ih => exact (ih _).trans (s.step_limit event)

theorem send_clean (hsound : s.Sound) (hclean : Clean client s sent received taken)
    (payload : Bytes) :
    Clean client (s.send payload) (sent ++ sentTo client s (.send payload)) received taken := by
  cases hclient : s.client with
  | none =>
      rw [send, hclient, sentTo, hclient, if_neg (Option.some_ne_none client).symm,
        List.append_nil]
      exact hclean
  | some current =>
      by_cases hqueues : s.Queues payload
      · rw [send_queued hclient hqueues]
        let outBuf := s.outBuf ++ frameResponse payload
        let trace := ServerEvent.appended current (frameResponse payload) :: s.trace
        obtain ⟨bytes, hflushed⟩ := flush_flushed { s with outBuf, trace }
        exact (hclean.append hsound).flushed (hsound.append hqueues) hflushed
      · rw [send_refused hclient hqueues]
        exact hclean.refuse hsound payload

theorem accept_clean (hclean : Clean client s sent received taken)
    (nonblocking : Bool) : Clean client (s.acceptClient nonblocking) sent received taken := by
  have hdropped := hclean.dropClient
  rw [acceptClient]
  split
  · exact hdropped
  · have hwritten (current : Nat) : ({ s.dropClient with
        client := some current
        nextClient := s.dropClient.nextClient + 1
        reader := {}
        outBuf := []
        trace := .accepted current :: s.dropClient.trace } : Server).writtenTo client =
          s.dropClient.writtenTo client := by
      simp [writtenTo, wroteTo]
    refine ⟨fun hunseen => ?_, ?_, fun hcurrent => ?_, hdropped.own, fun hcurrent => ?_⟩
    · rw [hwritten]
      exact hdropped.unseen (Nat.le_of_succ_le hunseen)
    · rw [hwritten]
      exact hdropped.written
    · -- the new client has the next number, which has no history
      obtain ⟨hnothing, rfl, -, -⟩ := hdropped.unseen (Option.some.inj hcurrent).le
      rw [hwritten, hnothing]
      rfl
    · obtain ⟨-, -, rfl, rfl⟩ := hdropped.unseen (Option.some.inj hcurrent).le
      rfl

/-- Only the reader of the connected client matters. -/
theorem Clean.reader {received' : Bytes} {taken' : List Bytes} (reader : FrameReader)
    (hclean : Clean client s sent received taken) (hsound : s.Sound)
    (hpending : s.client = some client → drain FrameReader.scan received' =
      (taken' ++ (drain FrameReader.scan reader.buf).1, (drain FrameReader.scan reader.buf).2))
    (hother : s.client ≠ some client → received' = received ∧ taken' = taken) :
    Clean client { s with reader } sent received' taken' := by
  by_cases hcurrent : s.client = some client
  · refine ⟨fun hunseen => ?_, hclean.written, hclean.queued, ?_, hpending⟩
    · exact absurd (hsound.numbered client hcurrent) (Nat.not_lt.mpr hunseen)
    · rw [hpending hcurrent]
      exact List.prefix_append _ _
  · obtain ⟨rfl, rfl⟩ := hother hcurrent
    exact ⟨hclean.unseen, hclean.written, hclean.queued, hclean.own, hpending⟩

/-- A server without a connection has no client at all. -/
theorem client_ne_of_not_connected (hnone : ¬ s.connected = true) : s.client ≠ some client := by
  intro hclient
  simp [connected, hclient] at hnone

theorem read_clean (hsound : s.Sound) (hclean : Clean client s sent received taken)
    (bytes : Bytes) :
    Clean client (s.step (.read bytes)) sent (received ++ receivedFrom client s (.read bytes))
      taken := by
  rw [step, receivedFrom]
  split
  · refine hclean.reader _ hsound (fun hcurrent => ?_) fun hother => ?_
    · rw [if_pos hcurrent, FrameReader.incremental_scan.drain_append, hclean.pending hcurrent,
        FrameReader.feed, FrameReader.incremental_scan.drain_append s.reader.buf]
      simp
    · rw [if_neg hother, List.append_nil]
      exact ⟨rfl, rfl⟩
  next hnone =>
    rw [if_neg (client_ne_of_not_connected hnone), List.append_nil]
    exact hclean

/-- Taking a frame moves it from the reader to what was taken. -/
theorem drain_next (reader : FrameReader) :
    drain FrameReader.scan reader.buf =
      (reader.next.1.toList ++ (drain FrameReader.scan reader.next.2.buf).1,
        (drain FrameReader.scan reader.next.2.buf).2) := by
  have hnext : FrameReader.scan reader.buf = (reader.next.1, reader.next.2.buf) := rfl
  cases hframe : reader.next.1 with
  | none =>
      rw [hframe] at hnext
      rw [drain_none hnext, drain_none (FrameReader.incremental_scan.waits hnext)]
      rfl
  | some frame =>
      rw [hframe] at hnext
      rw [FrameReader.incremental_scan.drain_some hnext]
      rfl

theorem next_clean (hsound : s.Sound) (hclean : Clean client s sent received taken) :
    Clean client (s.step .next) sent received (taken ++ takenFor client s .next) := by
  rw [step, takenFor]
  split
  · refine hclean.reader _ hsound (fun hcurrent => ?_) fun hother => ?_
    · rw [if_pos hcurrent, hclean.pending hcurrent, drain_next s.reader]
      simp
    · rw [if_neg hother, List.append_nil]
      exact ⟨rfl, rfl⟩
  next hnone =>
    rw [if_neg (client_ne_of_not_connected hnone), List.append_nil]
    exact hclean

/-- One step keeps every connection's stream clean. -/
theorem step_clean (hsound : s.Sound) (hclean : Clean client s sent received taken)
    (event : Event) :
    Clean client (s.step event) (sent ++ sentTo client s event)
      (received ++ receivedFrom client s event) (taken ++ takenFor client s event) := by
  cases event with
  | accept nonblocking =>
      simpa [step, sentTo, receivedFrom, takenFor] using accept_clean hclean nonblocking
  | send payload => simpa [step, receivedFrom, takenFor] using send_clean hsound hclean payload
  | read bytes => simpa [sentTo, takenFor] using read_clean hsound hclean bytes
  | next => simpa [sentTo, receivedFrom] using next_clean hsound hclean
  | writable =>
      obtain ⟨bytes, hflushed⟩ := flush_flushed s
      simpa [step, sentTo, receivedFrom, takenFor] using hclean.flushed hsound hflushed
  | drop => simpa [step, sentTo, receivedFrom, takenFor] using hclean.dropClient
  | kernel results =>
      simp only [step, sentTo, receivedFrom, takenFor, List.append_nil]
      exact ⟨hclean.unseen, hclean.written, hclean.queued, hclean.own, hclean.pending⟩

/-- So does a run. -/
theorem run_clean (hsound : s.Sound) (hclean : Clean client s sent received taken)
    (events : List Event) :
    Clean client (run step s events) (sent ++ collect step (sentTo client) s events)
      (received ++ collect step (receivedFrom client) s events)
      (taken ++ collect step (takenFor client) s events) := by
  induction events generalizing s sent received taken with
  | nil => simpa [collect] using hclean
  | cons event events ih =>
      have hrun := ih (step_sound hsound event) (step_clean hsound hclean event)
      simpa [collect] using hrun

theorem collect_dispatchedFor (client : Nat) (s : Server) (events : List Event) :
    collect step (dispatchedFor client) s events =
      (collect step (takenFor client) s events).filter (· ≠ []) := by
  induction events generalizing s with
  | nil => rfl
  | cons event events ih => rw [collect, collect, List.filter_append, ih, dispatchedFor]

/-- Every client of every run sees a clean stream. What was written to it is a prefix of
the frames of what was sent while it was connected; as long as it is, what is queued is
the rest of them; the queue keeps to its bound; and the frames handled for it are
those of the bytes it sent. -/
theorem clean_streams (limit : Nat) (kernel : List WriteResult) (events : List Event)
    (client : Nat) :
    let start : Server := { maxOutboundBytes := limit, kernel }
    let s := run step start events
    let sent := (collect step (sentTo client) start events).flatMap frameResponse
    let received := collect step (receivedFrom client) start events
    s.writtenTo client <+: sent ∧
      (s.client = some client → s.writtenTo client ++ s.outBuf = sent) ∧
      s.outBuf.length ≤ limit ∧
      collect step (dispatchedFor client) start events <+:
        (({} : FrameReader).feed received).drain.1.filter (· ≠ []) := by
  intro start s sent received
  have hnobody : ∀ current, start.client ≠ some current := fun current => by
    exact (Option.some_ne_none current).symm
  have hsound : start.Sound := ⟨Nat.zero_le _, fun current h => absurd h (hnobody current)⟩
  have hstart : Clean client start [] [] [] :=
    { unseen := fun _ => ⟨rfl, rfl, rfl, rfl⟩
      written := List.nil_prefix
      queued := fun h => absurd h (hnobody client)
      own := List.nil_prefix
      pending := fun h => absurd h (hnobody client) }
  have hclean := run_clean hsound hstart events
  simp only [List.nil_append] at hclean
  have hbounded := (run_sound hsound events).bounded
  rw [run_limit] at hbounded
  refine ⟨hclean.written, hclean.queued, hbounded, ?_⟩
  rw [collect_dispatchedFor]
  exact hclean.own.filter _

end Server

namespace Session

/-! ## The session's callbacks are runs of the server -/

/-- What became of the server is a run of its small steps. -/
def Serves (s s' : Session) : Prop := ∃ events, s'.server = run Server.step s.server events

theorem Serves.of_eq {s s' : Session} (hserver : s'.server = s.server) : Serves s s' :=
  ⟨[], hserver⟩

theorem Serves.trans {s s' s'' : Session} (hfirst : Serves s s') (hsecond : Serves s' s'') :
    Serves s s'' := by
  obtain ⟨first, hfirst⟩ := hfirst
  obtain ⟨second, hsecond⟩ := hsecond
  exact ⟨first ++ second, by rw [run_append, ← hfirst, hsecond]⟩

theorem serves_reply (s : Session) (payload : Bytes) : Serves s (s.reply payload) :=
  ⟨[.send payload], rfl⟩

theorem serves_push (s : Session) (payload : Bytes) : Serves s (s.push payload) := by
  rw [push]
  split
  · exact s.serves_reply payload
  · exact .of_eq rfl

theorem serves_replies (frames : List Bytes) (s : Session) : Serves s (frames.foldl reply s) := by
  induction frames generalizing s with
  | nil => exact .of_eq rfl
  | cons frame frames ih => exact (s.serves_reply frame).trans (ih _)

theorem serves_cmdAppStart (s : Session) : Serves s s.cmdAppStart := by
  have hintroduced : Serves s (({ s with appStarted := true } : Session).takeAnswer.2) := .of_eq rfl
  have hreplied := hintroduced.trans (serves_replies (s.answers.headD []) _)
  rw [cmdAppStart]
  simp only
  split
  · exact hreplied.trans (serves_push _ _)
  · exact hreplied

theorem serves_handleFrame (s : Session) (frame : Bytes) : Serves s (s.handleFrame frame) := by
  cases frame with
  | nil => exact .of_eq rfl
  | cons cmd args =>
      rw [handleFrame]
      split
      · exact s.serves_cmdAppStart
      · split
        · have hpopped : Serves s s.cmdSyncNextMessage.2 := by
            rw [cmdSyncNextMessage_eq]
            exact .of_eq rfl
          exact hpopped.trans (serves_reply _ _)
        · split
          · exact serves_reply _ _
          · split
            · exact serves_reply _ _
            · split
              · have htaken : Serves s s.takeAnswer.2 := .of_eq rfl
                exact htaken.trans (serves_replies _ _)
              · exact serves_reply _ _

/-- A turn of the dispatch loop takes the reader's next frame, then handles it. -/
theorem serves_dispatchOne (s : Session) : Serves s s.dispatchOne.2 := by
  rw [dispatchOne]
  split
  · exact .of_eq rfl
  next hconnected =>
    have hconnected' : s.server.connected = true := by simpa using hconnected
    have hnext : s.server.step .next = { s.server with reader := s.server.reader.next.2 } := by
      rw [Server.step, if_pos hconnected']
    split
    next reader hreader =>
      refine ⟨[.next], ?_⟩
      rw [run_cons, run_nil, hnext, hreader]
    next frame reader hreader =>
      have htaken : Serves s { s with server := { s.server with reader } } := by
        refine ⟨[.next], ?_⟩
        rw [run_cons, run_nil, hnext, hreader]
      exact htaken.trans (serves_handleFrame _ frame)

theorem serves_dispatch (turns : Nat) (s : Session) : Serves s (dispatch turns s) := by
  induction turns generalizing s with
  | zero => exact .of_eq rfl
  | succ turns ih =>
      have hone := s.serves_dispatchOne
      rw [dispatch]
      split
      next stopped hstopped =>
        rw [hstopped] at hone
        exact hone
      next next hnext =>
        rw [hnext] at hone
        exact hone.trans (ih next)

theorem serves_dropClient (s : Session) : Serves s s.dropClient := ⟨[.drop], rfl⟩

/-- Bytes are read only from a client that is connected. -/
theorem serves_readAll (reads : List ReadResult) {s : Session}
    (hconnected : s.server.connected = true) : Serves s (s.readAll reads) := by
  induction reads generalizing s with
  | nil => exact .of_eq rfl
  | cons result reads ih =>
      cases result with
      | data bytes =>
          have hfed : Serves s (s.feed bytes) := by
            refine ⟨[.read bytes], ?_⟩
            rw [run_cons, run_nil, Server.step, if_pos hconnected]
            rfl
          have hdispatched := hfed.trans
            (serves_dispatch ((s.feed bytes).server.reader.buf.length + 1) (s.feed bytes))
          simp only [readAll]
          split
          · exact hdispatched
          next hstill =>
            split
            · exact hdispatched
            · exact hdispatched.trans (ih (by simpa using hstill))
      | closed => exact s.serves_dropClient
      | wouldBlock => exact .of_eq rfl
      | interrupted => exact ih hconnected
      | failed => exact s.serves_dropClient

/-- Whatever a poll callback does to the server is a run of the small steps, so what
every run of these keeps holds of the session's server. -/
theorem serves_onClientReady (s : Session) (revents : Revents) (reads : List ReadResult) :
    Serves s (s.onClientReady revents reads) := by
  have hflushed : Serves s (if revents.output then { s with server := s.server.flush } else s) := by
    split
    · exact ⟨[.writable], rfl⟩
    · exact .of_eq rfl
  rw [onClientReady]
  generalize (if revents.output then { s with server := s.server.flush } else s) = flushed
    at hflushed ⊢
  split
  · exact s.serves_dropClient
  · simp only
    split
    · exact hflushed
    next hstill =>
      have hread : Serves s (if revents.input then flushed.readAll reads else flushed) := by
        split
        · exact hflushed.trans (serves_readAll reads (by simpa using hstill))
        · exact hflushed
      split
      · exact hread.trans (serves_dropClient _)
      · exact hread

end Session

end Coreletd.Companion
