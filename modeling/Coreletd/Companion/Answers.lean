/-
# What answers a command

An app tells the answer to one command from the answer to the next by their order
alone, so it matters how many frames a command is answered with. Here is what may answer
each command, and what a server is left with once a session has answered one: the
answer's frames in the client's buffer, in order, or the first few of them and no client.
-/

import Coreletd.Companion.CleanStream
import Coreletd.Companion.Commands
import Coreletd.Companion.Pushes

namespace Coreletd.Companion

open Coreletd.Library
open Coreletd.Mesh

/-! ## The answers there are -/

/-- The codes that a frame answering a command may have. -/
def answerCodes (cmd : UInt8) : List UInt8 :=
  if cmd = kCmdAppStart then [kRespSelfInfo]
  else if cmd = kCmdDeviceQuery then [kRespDeviceInfo]
  else if cmd = kCmdGetDeviceTime then [kRespCurrTime]
  else if cmd ∈ [kCmdSendSelfAdvert, kCmdHasConnection, kCmdLogout] then [kRespOk]
  else if cmd = kCmdGetContactByKey then [kRespContact, kRespErr]
  else if cmd ∈ [kCmdShareContact, kCmdExportContact] then [kRespExportContact, kRespErr]
  else if cmd = kCmdSendTxtMsg then [kRespSent, kRespErr]
  else if cmd = kCmdSyncNextMessage then
    [kRespNoMoreMessages, kRespContactMsgRecvV3, kRespChannelMsgRecvV3]
  else if cmd = kCmdGetChannel then [kRespChannelInfo, kRespErr]
  else if cmd = kCmdGetBatteryVoltage then [kRespBatteryVoltage]
  else if cmd = kCmdGetTuningParams then [kRespTuningParams]
  else if cmd ∈ kOtherCommands then [kRespOk, kRespErr]
  else [kRespErr]

/-- The frames that may answer a frame: none where it is empty, the contacts between a
frame that counts them and one that ends them, and one frame otherwise. -/
inductive Answers : Bytes → List Bytes → Prop where
  | empty : Answers [] []
  | listing {args : Bytes} (listed : List Contact) (newest : UInt32) :
      Answers (kCmdGetContacts :: args)
        ([[kRespContactsStart] ++ putU32 (UInt32.ofNat listed.length)] ++
          listed.map (contactFrame kRespContact) ++ [[kRespEndOfContacts] ++ putU32 newest])
  | one {cmd : UInt8} {args : Bytes} {code : UInt8} (hcmd : cmd ≠ kCmdGetContacts)
      (hcode : code ∈ answerCodes cmd) (rest : Bytes) : Answers (cmd :: args) [code :: rest]

instance (payload : Bytes) : Decidable (Quiet payload) :=
  decidable_of_iff (payload.head?.all (· < kFirstPush) = true) <| by
    rw [Quiet]
    cases payload.head? <;> simp

instance (frame : Bytes) : Decidable (IsPush frame) :=
  decidable_of_iff (frame[3]?.any (kFirstPush ≤ ·) = true) <| by
    rw [IsPush]
    cases frame[3]? <;> simp

/-- No code that answers is a push's. -/
theorem answerCodes_quiet {cmd code : UInt8} (hcode : code ∈ answerCodes cmd) :
    code < kFirstPush := by
  have hite : ∀ {condition : Prop} [Decidable condition] {first second : List UInt8},
      first.all (· < kFirstPush) = true → second.all (· < kFirstPush) = true →
      (if condition then first else second).all (· < kFirstPush) = true := by
    intro condition _ first second hfirst hsecond
    split
    · exact hfirst
    · exact hsecond
  have hall : (answerCodes cmd).all (· < kFirstPush) = true := by
    unfold answerCodes
    refine hite rfl (hite rfl (hite rfl (hite rfl (hite rfl (hite rfl (hite rfl ?_))))))
    exact hite rfl (hite rfl (hite rfl (hite rfl (hite rfl rfl))))
  exact of_decide_eq_true (List.all_eq_true.mp hall code hcode)

theorem not_quiet_cons {code : UInt8} (hcode : kFirstPush ≤ code) (rest : Bytes) :
    ¬ Quiet (code :: rest) := fun hquiet => absurd (hquiet code rfl) (UInt8.not_lt.mpr hcode)

/-- A command that no session knows has one answer. -/
theorem answerCodes_unsupported {cmd : UInt8} (hstart : cmd ≠ kCmdAppStart)
    (hsync : cmd ≠ kCmdSyncNextMessage) (hconnection : cmd ≠ kCmdHasConnection)
    (hlogout : cmd ≠ kCmdLogout) (hother : cmd ∉ kOtherCommands) :
    answerCodes cmd = [kRespErr] := by
  have hne : ∀ known ∈ kOtherCommands, cmd ≠ known := fun known hmem heq => hother (heq ▸ hmem)
  have hplain : cmd ∉ [kCmdSendSelfAdvert, kCmdHasConnection, kCmdLogout] := by
    simp [hne kCmdSendSelfAdvert (by decide), hconnection, hlogout]
  have hexport : cmd ∉ [kCmdShareContact, kCmdExportContact] := by
    simp [hne kCmdShareContact (by decide), hne kCmdExportContact (by decide)]
  rw [answerCodes, if_neg hstart, if_neg (hne kCmdDeviceQuery (by decide)),
    if_neg (hne kCmdGetDeviceTime (by decide)), if_neg hplain,
    if_neg (hne kCmdGetContactByKey (by decide)), if_neg hexport,
    if_neg (hne kCmdSendTxtMsg (by decide)), if_neg hsync,
    if_neg (hne kCmdGetChannel (by decide)), if_neg (hne kCmdGetBatteryVoltage (by decide)),
    if_neg (hne kCmdGetTuningParams (by decide)), if_neg hother]

namespace Answers

variable {cmd : UInt8}

/-- The answer says what is wrong. -/
theorem error (hcmd : cmd ≠ kCmdGetContacts) (hcode : kRespErr ∈ answerCodes cmd) (args : Bytes)
    (code : UInt8) : Answers (cmd :: args) [respErr code] := .one hcmd hcode _

theorem ok (hcmd : cmd ≠ kCmdGetContacts) (hcode : kRespOk ∈ answerCodes cmd) (args : Bytes) :
    Answers (cmd :: args) [respOk] := .one hcmd hcode _

/-- An answer is not a push. -/
theorem quiet {frame : Bytes} {answers : List Bytes} (hanswers : Answers frame answers) :
    ∀ answer ∈ answers, Quiet answer := by
  cases hanswers with
  | empty => exact fun answer hmem => by cases hmem
  | listing listed newest =>
      intro answer hmem
      rcases List.mem_append.mp hmem with hfirst | hend
      · rcases List.mem_append.mp hfirst with hstart | hcontact
        · obtain rfl := List.mem_singleton.mp hstart
          exact quiet_cons (by decide) _
        · obtain ⟨c, -, rfl⟩ := List.mem_map.mp hcontact
          exact quiet_cons (by decide) _
      · obtain rfl := List.mem_singleton.mp hend
        exact quiet_cons (by decide) _
  | one hcmd hcode rest =>
      intro answer hmem
      obtain rfl := List.mem_singleton.mp hmem
      exact quiet_cons (answerCodes_quiet hcode) rest

theorem filter_quiet {frame : Bytes} {answers : List Bytes}
    (hanswers : Answers frame answers) : answers.filter (Quiet ·) = answers :=
  List.filter_eq_self.mpr fun answer hmem => decide_eq_true (hanswers.quiet answer hmem)

end Answers

/-! ## Frames in a buffer -/

namespace Server

/-- The frame that an event of the trace put into a client's buffer. -/
def appendedBy (client : Nat) : ServerEvent → List Bytes
  | .appended current frame => if current = client then [frame] else []
  | _ => []

/-- The frames put into a client's buffer so far, first frame first. -/
def appendedTo (client : Nat) (s : Server) : List Bytes :=
  s.trace.reverse.flatMap (appendedBy client)

/-- Those that answer the client. -/
def answersTo (client : Nat) (s : Server) : List Bytes :=
  (s.appendedTo client).filter (¬ IsPush ·)

/-- The payloads were sent one after the other: the client that is still connected was
sent them all, and one that was lost over it the first few. -/
structure Sends (payloads : List Bytes) (s s' : Server) : Prop where
  grows : ∀ client, s.appendedTo client <+: s'.appendedTo client
  others : ∀ client, s.client ≠ some client → s'.appendedTo client = s.appendedTo client
  within : ∀ client, s'.appendedTo client <+: s.appendedTo client ++ payloads.map frameResponse
  whole : ∀ client, s'.client = some client → s.client = some client ∧
    s'.appendedTo client = s.appendedTo client ++ payloads.map frameResponse ∧
    s'.reader = s.reader
  numbers : s'.nextClient = s.nextClient

variable {client : Nat} {s s' s'' : Server} {payloads more : List Bytes}

theorem appendedTo_of_appends (happends : Appends (fun _ => False) s s') (client : Nat) :
    s'.appendedTo client = s.appendedTo client := by
  obtain ⟨fresh, htrace, hfresh⟩ := happends.trace
  have hnothing : fresh.reverse.flatMap (appendedBy client) = [] := by
    rw [List.flatMap_eq_nil_iff]
    intro event hmem
    cases event with
    | appended current frame =>
        obtain ⟨-, payload, hnever, -⟩ := hfresh current frame (List.mem_reverse.mp hmem)
        exact hnever.elim
    | accepted current => rfl
    | wrote current bytes => rfl
    | dropped current => rfl
  rw [appendedTo, htrace, List.reverse_append, List.flatMap_append, hnothing, List.append_nil]
  rfl

/-- Nothing was sent. -/
theorem Sends.nothing (happends : Appends (fun _ => False) s s')
    (hreader : ∀ client, s'.client = some client → s'.reader = s.reader) : Sends [] s s' where
  grows client := by rw [appendedTo_of_appends happends]
  others client _ := appendedTo_of_appends happends client
  within client := by rw [appendedTo_of_appends happends, List.map_nil, List.append_nil]
  whole client hclient := by
    refine ⟨?_, by rw [appendedTo_of_appends happends, List.map_nil, List.append_nil],
      hreader client hclient⟩
    rcases happends.client with hsame | hnone
    · rw [← hsame, hclient]
    · rw [hnone] at hclient
      cases hclient
  numbers := happends.numbers

theorem Sends.refl (s : Server) : Sends [] s s := .nothing (.of_eq rfl rfl rfl) fun _ _ => rfl

theorem Sends.trans (hfirst : Sends payloads s s') (hsecond : Sends more s' s'') :
    Sends (payloads ++ more) s s'' where
  grows client := (hfirst.grows client).trans (hsecond.grows client)
  others client hother := by
    refine (hsecond.others client fun hclient => ?_).trans (hfirst.others client hother)
    exact hother (hfirst.whole client hclient).1
  within client := by
    rw [List.map_append, ← List.append_assoc]
    by_cases hclient : s'.client = some client
    · rw [← (hfirst.whole client hclient).2.1]
      exact hsecond.within client
    · rw [hsecond.others client hclient]
      exact (hfirst.within client).trans (List.prefix_append _ _)
  whole client hclient := by
    obtain ⟨hbetween, hsent, hreader⟩ := hsecond.whole client hclient
    obtain ⟨hbefore, hsent', hreader'⟩ := hfirst.whole client hbetween
    refine ⟨hbefore, ?_, hreader.trans hreader'⟩
    rw [hsent, hsent', List.map_append, List.append_assoc]
  numbers := hsecond.numbers.trans hfirst.numbers

theorem reader_dropClient {current : Nat} (hclient : s.dropClient.client = some current) :
    s.dropClient.reader = s.reader := by
  rw [s.client_dropClient] at hclient
  cases hclient

theorem reader_flushWith (s : Server) (kernel : List WriteResult) {current : Nat}
    (hclient : (s.flushWith kernel).client = some current) :
    (s.flushWith kernel).reader = s.reader := by
  induction kernel generalizing s with
  | nil => rfl
  | cons result kernel ih =>
      rw [flushWith] at hclient ⊢
      split at hclient
      next hnone => rw [hnone]
      next connected hsome =>
        simp only [hsome] at hclient ⊢
        split
        · rfl
        next hbuffered =>
          rw [if_neg hbuffered] at hclient
          cases result with
          | wrote more => exact ih _ hclient
          | wouldBlock => rfl
          | interrupted => exact ih _ hclient
          | failed => exact reader_dropClient hclient

theorem sends_dropClient (s : Server) : Sends [] s s.dropClient :=
  .nothing (appends_dropClient s) fun _ hclient => reader_dropClient hclient

theorem sends_flush (s : Server) : Sends [] s s.flush :=
  .nothing (appends_flush s) fun _ hclient => s.reader_flushWith s.kernel hclient

theorem sends_send (s : Server) (payload : Bytes) : Sends [payload] s (s.send payload) := by
  cases hclient : s.client with
  | none =>
      have hsame : s.send payload = s := by rw [send, hclient]
      rw [hsame]
      refine ⟨fun client => List.prefix_rfl, fun client _ => rfl,
        fun client => List.prefix_append _ _, fun client hcurrent => ?_, rfl⟩
      rw [hclient] at hcurrent
      cases hcurrent
  | some current =>
      by_cases hqueues : s.Queues payload
      · rw [send_queued hclient hqueues]
        have hqueued : ∀ client, ({ s with
            outBuf := s.outBuf ++ frameResponse payload
            trace := .appended current (frameResponse payload) :: s.trace } : Server).appendedTo
              client = s.appendedTo client ++
                if current = client then [frameResponse payload] else [] := fun client => by
          rw [appendedTo, List.reverse_cons, List.flatMap_append, List.flatMap_singleton]
          rfl
        have happended : Sends [payload] s { s with
            outBuf := s.outBuf ++ frameResponse payload
            trace := .appended current (frameResponse payload) :: s.trace } := by
          refine ⟨fun client => ?_, fun client hother => ?_, fun client => ?_,
            fun client hcurrent => ⟨hcurrent, ?_, rfl⟩, rfl⟩
          · rw [hqueued]
            exact List.prefix_append _ _
          · have hne : current ≠ client := fun heq => hother (by rw [hclient, heq])
            rw [hqueued, if_neg hne, List.append_nil]
          · rw [hqueued]
            split
            · exact List.prefix_rfl
            · rw [List.append_nil]
              exact List.prefix_append _ _
          · obtain rfl := Option.some.inj (hclient.symm.trans hcurrent)
            rw [hqueued, if_pos rfl]
            rfl
        exact happended.trans (sends_flush _)
      · rw [send_refused hclient hqueues]
        have hdropped := s.sends_dropClient
        refine ⟨hdropped.grows, hdropped.others, fun client => ?_, fun client hcurrent => ?_,
          hdropped.numbers⟩
        · rw [appendedTo_of_appends (appends_dropClient s)]
          exact List.prefix_append _ _
        · rw [s.client_dropClient] at hcurrent
          cases hcurrent

/-! ## Answers among them -/

theorem filter_frames (payloads : List Bytes) :
    (payloads.map frameResponse).filter (¬ IsPush ·) =
      (payloads.filter (Quiet ·)).map frameResponse := by
  rw [List.filter_map]
  congr 1
  refine List.filter_congr fun payload _ => ?_
  have hpush := isPush_frameResponse payload
  rw [Function.comp_apply, decide_eq_decide, hpush, not_not]

theorem Sends.answers_grow (hsends : Sends payloads s s') (client : Nat) :
    s.answersTo client <+: s'.answersTo client := (hsends.grows client).filter _

theorem Sends.answers_others (hsends : Sends payloads s s') (hother : s.client ≠ some client) :
    s'.answersTo client = s.answersTo client := by
  rw [answersTo, hsends.others client hother]
  rfl

theorem Sends.answers_within (hsends : Sends payloads s s') (client : Nat) :
    s'.answersTo client <+:
      s.answersTo client ++ (payloads.filter (Quiet ·)).map frameResponse := by
  rw [← filter_frames, answersTo, answersTo, ← List.filter_append]
  exact (hsends.within client).filter _

theorem Sends.answers_whole (hsends : Sends payloads s s') (hclient : s'.client = some client) :
    s'.answersTo client =
      s.answersTo client ++ (payloads.filter (Quiet ·)).map frameResponse := by
  rw [← filter_frames, answersTo, answersTo, ← List.filter_append,
    (hsends.whole client hclient).2.1]

/-! ## Conversations -/

/-- What holds of a connection, given the bytes received from it and the frames handled
for it: these are the first frames of those bytes, and the answers in its buffer are
theirs, in their order. As long as it is connected no frame is skipped and no answer is
missing. -/
structure Answered (client : Nat) (s : Server) (received : Bytes) (heard : List Bytes) :
    Prop where
  numbered : ∀ current, s.client = some current → current < s.nextClient
  /-- A number that was not given out yet has no history. -/
  unseen : s.nextClient ≤ client → s.appendedTo client = [] ∧ received = [] ∧ heard = []
  own : heard <+: (drain FrameReader.scan received).1
  pending : s.client = some client → drain FrameReader.scan received =
    (heard ++ (drain FrameReader.scan s.reader.buf).1, (drain FrameReader.scan s.reader.buf).2)
  inTurn : ∃ answers, List.Forall₂ Answers heard answers ∧
    s.answersTo client <+: answers.flatten.map frameResponse ∧
    (s.client = some client → s.answersTo client = answers.flatten.map frameResponse)

variable {received : Bytes} {heard : List Bytes}

/-- Pushes come in between and answer nothing. -/
theorem Answered.hushed (hanswered : Answered client s received heard)
    (hsends : Sends payloads s s') (hpushes : ∀ payload ∈ payloads, ¬ Quiet payload) :
    Answered client s' received heard := by
  have hquiet : payloads.filter (Quiet ·) = [] :=
    List.filter_eq_nil_iff.mpr fun payload hmem => by simpa using hpushes payload hmem
  have hsame : s'.answersTo client = s.answersTo client := by
    refine (List.IsPrefix.eq_of_length_le (hsends.answers_grow client) ?_).symm
    have hwithin := hsends.answers_within client
    rw [hquiet, List.map_nil, List.append_nil] at hwithin
    exact hwithin.length_le
  refine ⟨fun current hcurrent => ?_, fun hunseen => ?_, hanswered.own, fun hcurrent => ?_, ?_⟩
  · rw [hsends.numbers]
    exact hanswered.numbered current (hsends.whole current hcurrent).1
  · rw [hsends.numbers] at hunseen
    have hother : s.client ≠ some client := fun hcurrent =>
      absurd (hanswered.numbered client hcurrent) (Nat.not_lt.mpr hunseen)
    rw [hsends.others client hother]
    exact hanswered.unseen hunseen
  · obtain ⟨hbefore, -, hreader⟩ := hsends.whole client hcurrent
    rw [hreader]
    exact hanswered.pending hbefore
  · obtain ⟨answers, hpairs, hprefix, hwhole⟩ := hanswered.inTurn
    rw [hsame]
    exact ⟨answers, hpairs, hprefix, fun hcurrent => hwhole (hsends.whole client hcurrent).1⟩

/-- Only the reader of the connected client matters. -/
theorem Answered.reader {received' : Bytes} (reader : FrameReader)
    (hanswered : Answered client s received heard)
    (hpending : s.client = some client → drain FrameReader.scan received' =
      (heard ++ (drain FrameReader.scan reader.buf).1, (drain FrameReader.scan reader.buf).2))
    (hother : s.client ≠ some client → received' = received) :
    Answered client { s with reader } received' heard := by
  by_cases hcurrent : s.client = some client
  · refine ⟨hanswered.numbered, fun hunseen => ?_, ?_, hpending, hanswered.inTurn⟩
    · exact absurd (hanswered.numbered client hcurrent) (Nat.not_lt.mpr hunseen)
    · rw [hpending hcurrent]
      exact List.prefix_append _ _
  · rw [hother hcurrent]
    exact ⟨hanswered.numbered, hanswered.unseen, hanswered.own,
      fun hclient => absurd hclient hcurrent, hanswered.inTurn⟩

theorem Answered.feed (hanswered : Answered client s received heard) (bytes : Bytes) :
    Answered client { s with reader := s.reader.feed bytes }
      (received ++ if s.client = some client then bytes else []) heard := by
  refine hanswered.reader _ (fun hcurrent => ?_) fun hother => ?_
  · rw [if_pos hcurrent, FrameReader.incremental_scan.drain_append, hanswered.pending hcurrent,
      FrameReader.feed, FrameReader.incremental_scan.drain_append s.reader.buf]
    simp
  · rw [if_neg hother, List.append_nil]

/-- The reader has no frame yet. -/
theorem Answered.idle (hanswered : Answered client s received heard)
    (hnone : s.reader.next.1 = none) :
    Answered client { s with reader := s.reader.next.2 } received heard := by
  refine hanswered.reader _ (fun hcurrent => ?_) fun _ => rfl
  rw [hanswered.pending hcurrent, drain_next s.reader, hnone]
  rfl

/-- The next frame is answered. -/
theorem Answered.hears (hanswered : Answered client s received heard) {frame : Bytes}
    (hframe : s.reader.next.1 = some frame)
    (hsends : Sends payloads { s with reader := s.reader.next.2 } s')
    (hanswers : Answers frame (payloads.filter (Quiet ·))) :
    Answered client s' received (heard ++ if s.client = some client then [frame] else []) := by
  have hwhole := hsends.whole client
  by_cases hcurrent : s.client = some client
  · rw [if_pos hcurrent]
    have hdrain := hanswered.pending hcurrent
    rw [drain_next s.reader, hframe, Option.toList_some, ← List.append_assoc] at hdrain
    refine ⟨fun current hclient => ?_, fun hunseen => ?_, ?_, fun hclient => ?_, ?_⟩
    · rw [hsends.numbers]
      exact hanswered.numbered current (hsends.whole current hclient).1
    · rw [hsends.numbers] at hunseen
      exact absurd (hanswered.numbered client hcurrent) (Nat.not_lt.mpr hunseen)
    · rw [hdrain]
      exact List.prefix_append _ _
    · rw [(hwhole hclient).2.2]
      exact hdrain
    · obtain ⟨answers, hpairs, -, hall⟩ := hanswered.inTurn
      have hbefore : ({ s with reader := s.reader.next.2 } : Server).answersTo client =
          answers.flatten.map frameResponse := hall hcurrent
      refine ⟨answers ++ [payloads.filter (Quiet ·)], ?_, ?_, fun hclient => ?_⟩
      · exact List.rel_append hpairs (.cons hanswers .nil)
      · rw [List.flatten_append, List.flatten_singleton, List.map_append, ← hbefore]
        exact hsends.answers_within client
      · rw [List.flatten_append, List.flatten_singleton, List.map_append, ← hbefore]
        exact hsends.answers_whole hclient
  · rw [if_neg hcurrent, List.append_nil]
    have hgone : s'.client ≠ some client := fun hclient => hcurrent (hwhole hclient).1
    have hothers : s'.answersTo client = s.answersTo client := hsends.answers_others hcurrent
    refine ⟨fun current hclient => ?_, fun hunseen => ?_, hanswered.own,
      fun hclient => absurd hclient hgone, ?_⟩
    · rw [hsends.numbers]
      exact hanswered.numbered current (hsends.whole current hclient).1
    · rw [hsends.numbers] at hunseen
      rw [hsends.others client hcurrent]
      exact hanswered.unseen hunseen
    · obtain ⟨answers, hpairs, hprefix, -⟩ := hanswered.inTurn
      rw [hothers]
      exact ⟨answers, hpairs, hprefix, fun hclient => absurd hclient hgone⟩

/-- A new connection has heard and said nothing yet. -/
theorem Answered.accept (hanswered : Answered client s received heard) (nonblocking : Bool) :
    Answered client (s.acceptClient nonblocking) received heard := by
  have hdropped : Answered client s.dropClient received heard :=
    hanswered.hushed s.sends_dropClient fun payload hmem => by cases hmem
  rw [acceptClient]
  split
  · exact hdropped
  · have hkept : ∀ current, ({ s.dropClient with
        client := some current
        nextClient := s.dropClient.nextClient + 1
        reader := {}
        outBuf := []
        trace := .accepted current :: s.dropClient.trace } : Server).appendedTo client =
          s.dropClient.appendedTo client := fun current => by
      simp [appendedTo, appendedBy]
    refine ⟨fun current hcurrent => ?_, fun hunseen => ?_, hdropped.own, fun hcurrent => ?_, ?_⟩
    · obtain rfl := Option.some.inj hcurrent
      exact Nat.lt_succ_self _
    · rw [hkept]
      exact hdropped.unseen (Nat.le_of_succ_le hunseen)
    · obtain ⟨-, rfl, rfl⟩ := hdropped.unseen (Option.some.inj hcurrent).le
      rfl
    · obtain ⟨answers, hpairs, hprefix, -⟩ := hdropped.inTurn
      rw [answersTo, hkept]
      refine ⟨answers, hpairs, hprefix, fun hcurrent => ?_⟩
      -- the new client has the next number, which has no history
      obtain ⟨hnothing, -, rfl⟩ := hdropped.unseen (Option.some.inj hcurrent).le
      cases hpairs
      rw [hnothing]
      rfl

/-- A server that was never connected to has no conversation. -/
theorem answered_fresh (client : Nat) : ({} : Server).Answered client [] [] where
  numbered current hcurrent := by cases hcurrent
  unseen _ := ⟨rfl, rfl, rfl⟩
  own := List.nil_prefix
  pending hcurrent := by cases hcurrent
  inTurn := ⟨[], .nil, List.nil_prefix, fun _ => rfl⟩

end Server

/-! ## What a session answers -/

namespace Session

/-- What is sent over a frame, given what the rest of the daemon answers. -/
def replies (s : Session) : Bytes → List Bytes
  | [] => []
  | cmd :: _ =>
      if cmd = kCmdAppStart then
        s.answers.headD [] ++ if s.inbox.messages ≠ [] then [[kPushMsgWaiting]] else []
      else if cmd = kCmdSyncNextMessage then [s.syncReply]
      else if cmd = kCmdHasConnection then [respOkWith (if s.server.connected then 1 else 0)]
      else if cmd = kCmdLogout then [respOk]
      else if cmd ∈ kOtherCommands then s.answers.headD []
      else [respErr kErrUnsupportedCmd]

theorem sends_replies (frames : List Bytes) (s : Session) :
    s.server.Sends frames (frames.foldl reply s).server := by
  induction frames generalizing s with
  | nil => exact .refl _
  | cons frame frames ih => exact (s.server.sends_send frame).trans (ih (s.reply frame))

theorem foldl_reply_appStarted (frames : List Bytes) (s : Session) :
    (frames.foldl reply s).appStarted = s.appStarted := by
  induction frames generalizing s with
  | nil => rfl
  | cons frame frames ih => exact ih (s.reply frame)

theorem sends_cmdAppStart (s : Session) :
    s.server.Sends (s.answers.headD [] ++
      if s.inbox.messages ≠ [] then [[kPushMsgWaiting]] else []) s.cmdAppStart.server := by
  let introduced : Session := { s with appStarted := true, answers := s.answers.tail }
  have hinbox := foldl_reply_inbox (s.answers.headD []) introduced
  have hstarted := foldl_reply_appStarted (s.answers.headD []) introduced
  have hanswered := sends_replies (s.answers.headD []) introduced
  have hanswer : s.cmdAppStart =
      if ((s.answers.headD []).foldl reply introduced).inbox.messages ≠ [] then
        ((s.answers.headD []).foldl reply introduced).push [kPushMsgWaiting]
      else (s.answers.headD []).foldl reply introduced := rfl
  rw [hanswer, hinbox]
  generalize (s.answers.headD []).foldl reply introduced = answered at hstarted hanswered
  by_cases hmail : s.inbox.messages = []
  · rw [if_neg (not_not.mpr hmail), if_neg (not_not.mpr hmail), List.append_nil]
    exact hanswered
  · rw [if_pos hmail, if_pos hmail, push, if_pos hstarted]
    exact hanswered.trans (answered.server.sends_send [kPushMsgWaiting])

/-- Whatever the frame, these are the frames it is answered with. -/
theorem sends_handleFrame (s : Session) (frame : Bytes) :
    s.server.Sends (s.replies frame) (s.handleFrame frame).server := by
  cases frame with
  | nil => exact .refl _
  | cons cmd args =>
      rw [replies, handleFrame]
      split
      · exact s.sends_cmdAppStart
      · split
        · have hpopped : s.cmdSyncNextMessage.2.server = s.server := by rw [cmdSyncNextMessage_eq]
          have hsent := s.cmdSyncNextMessage.2.server.sends_send s.syncReply
          rw [hpopped] at hsent
          show s.server.Sends _ (s.cmdSyncNextMessage.2.server.send s.syncReply)
          rw [hpopped]
          exact hsent
        · split
          · exact s.server.sends_send _
          · split
            · exact s.server.sends_send _
            · split
              · exact sends_replies (s.answers.headD []) { s with answers := s.answers.tail }
              · exact s.server.sends_send _

/-- A turn of the dispatch loop that has a frame answers it. -/
theorem sends_dispatchOne {s : Session} {frame : Bytes} (hframe : s.nextFrame = some frame) :
    s.advanced.server.Sends (s.advanced.replies frame) s.dispatchOne.2.server := by
  rw [dispatchOne_eq hframe]
  exact s.advanced.sends_handleFrame frame

/-- One that has none only drops what is before a marker. -/
theorem dispatchOne_idle {s : Session} (hframe : s.nextFrame = none) :
    s.server.reader.next.1 = none ∧ s.dispatchOne.2.server = s.advanced.server ∨
      s.server.client = none ∧ s.dispatchOne.2 = s := by
  rw [nextFrame] at hframe
  rw [dispatchOne]
  split at hframe
  next hconnected =>
    have hnext : s.server.reader.next = (none, s.server.reader.next.2) := Prod.ext hframe rfl
    refine .inl ⟨hframe, ?_⟩
    rw [hconnected, hnext]
    rfl
  next hconnected =>
    rw [if_pos (by simpa using hconnected)]
    exact .inr ⟨by simpa [Server.connected] using hconnected, rfl⟩

end Session

end Coreletd.Companion
