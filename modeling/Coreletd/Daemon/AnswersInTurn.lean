/-
# Every command is answered, in its turn

Commands carry no number and neither do answers, so an app that sends several counts on
the order. Over whole runs of the daemon, with packets, timers and flushes in between,
each frame of a connection is answered by what its command has for an answer, nothing
else but pushes comes in between, and the frames are those of the bytes received.
-/

import Coreletd.Companion.Answers
import Coreletd.Daemon.AppSteps

namespace Coreletd.Daemon

open Coreletd.Companion
open Coreletd.Library
open Coreletd.Mesh
open Coreletd.Proto

namespace App

/-- The bytes received from a client by a step. -/
def receivedFrom (client : Nat) (app : App) : Event → Bytes
  | .feed bytes => if app.server.client = some client then bytes else []
  | _ => []

/-- The frame that a step handles for a client. -/
def heardFrom (client : Nat) (app : App) : Event → List Bytes
  | .frame _ =>
      if app.server.client = some client then (app.session []).nextFrame.toList else []
  | _ => []

section

variable {lib : Crypto.Library} {sign : Bytes → Bytes} {out : Surroundings} {app app' : App}
  {client : Nat} {received : Bytes} {heard : List Bytes}

/-! ## The commands -/

theorem answers_savedReply {cmd : UInt8} (hcmd : cmd ≠ kCmdGetContacts)
    (hcodes : answerCodes cmd = [kRespOk, kRespErr]) (app : App) (args : Bytes) :
    Answers (cmd :: args) app.savedReply.1 := by
  rw [savedReply]
  dsimp only
  split
  · exact .one hcmd (by rw [hcodes]; exact List.mem_cons_self) _
  · exact .one hcmd (by rw [hcodes]; exact List.mem_cons_of_mem _ List.mem_cons_self) _

theorem answers_editContacts {cmd : UInt8} (hcmd : cmd ≠ kCmdGetContacts)
    (hcodes : answerCodes cmd = [kRespOk, kRespErr]) (app : App)
    (result : Except CommandError ContactStore) (args : Bytes) :
    Answers (cmd :: args) (app.editContacts result).1 := by
  cases result with
  | error err =>
      refine .error hcmd ?_ args _
      rw [hcodes]
      exact List.mem_cons_of_mem _ List.mem_cons_self
  | ok contacts => exact answers_savedReply hcmd hcodes _ args

theorem answers_changeSettings {cmd : UInt8} (hcmd : cmd ≠ kCmdGetContacts)
    (hcodes : answerCodes cmd = [kRespOk, kRespErr]) (app : App) (requested : Requested)
    (args : Bytes) : Answers (cmd :: args) (app.changeSettings out requested).1 := by
  have herror : kRespErr ∈ answerCodes cmd := by
    rw [hcodes]
    exact List.mem_cons_of_mem _ List.mem_cons_self
  have hok : kRespOk ∈ answerCodes cmd := by
    rw [hcodes]
    exact List.mem_cons_self
  cases requested with
  | none => exact .error hcmd herror args _
  | some changes =>
      rw [changeSettings]
      dsimp only
      generalize (app.attached.set _ _ _ _).1 = result
      cases result with
      | ok => exact .ok hcmd hok args
      | invalid => exact .error hcmd herror args _
      | ioError => exact .error hcmd herror args _

theorem answers_cmdSetDeviceTime (app : App) (args : Bytes) :
    Answers (kCmdSetDeviceTime :: args) (app.cmdSetDeviceTime args).1 := by
  rw [cmdSetDeviceTime]
  dsimp only
  split
  · exact .error (by decide) (by decide) args _
  · exact .ok (by decide) (by decide) args

theorem answers_cmdSendTxtMsg (app : App) (args : Bytes) :
    Answers (kCmdSendTxtMsg :: args) (app.cmdSendTxtMsg lib out args).1 := by
  rw [cmdSendTxtMsg]
  dsimp only
  rw [TextSession.cmdSendTxtMsg]
  split
  · exact .error (by decide) (by decide) args _
  · dsimp only
    split
    · exact .error (by decide) (by decide) args _
    · split
      · exact .error (by decide) (by decide) args _
      · exact .one (by decide) (by decide) _

theorem answers_cmdSendChannelTxtMsg (app : App) (args : Bytes) :
    Answers (kCmdSendChannelTxtMsg :: args) (app.cmdSendChannelTxtMsg lib out args).1 := by
  rw [cmdSendChannelTxtMsg]
  dsimp only
  split
  · exact .error (by decide) (by decide) args _
  · split
    · exact .error (by decide) (by decide) args _
    · exact .ok (by decide) (by decide) args

theorem answers_cmdGetContactByKey (s : ContactStore) (args : Bytes) :
    Answers (kCmdGetContactByKey :: args) [cmdGetContactByKey s args] := by
  rw [cmdGetContactByKey]
  dsimp only
  split
  · exact .error (by decide) (by decide) args _
  · split
    · exact .error (by decide) (by decide) args _
    · exact .one (by decide) (by decide) _

theorem answers_cmdExportContact {cmd : UInt8} (hcmd : cmd ≠ kCmdGetContacts)
    (hcodes : answerCodes cmd = [kRespExportContact, kRespErr]) (advert : Option Packet)
    (args : Bytes) : Answers (cmd :: args) [cmdExportContact advert args] := by
  have herror : kRespErr ∈ answerCodes cmd := by
    rw [hcodes]
    exact List.mem_cons_of_mem _ List.mem_cons_self
  unfold cmdExportContact
  split
  · exact .error hcmd herror args _
  · split
    · exact .error hcmd herror args _
    · exact .one hcmd (by rw [hcodes]; exact List.mem_cons_self) _

theorem answers_cmdGetChannel (s : ChannelStore) (args : Bytes) :
    Answers (kCmdGetChannel :: args) [cmdGetChannel s args] := by
  rw [cmdGetChannel]
  dsimp only
  split
  · exact .error (by decide) (by decide) args _
  · split
    · exact .error (by decide) (by decide) args _
    · exact .one (by decide) (by decide) _

theorem answers_cmdSetChannel (app : App) (args : Bytes) :
    Answers (kCmdSetChannel :: args) (app.cmdSetChannel args).1 := by
  rw [cmdSetChannel]
  split
  · exact .error (by decide) (by decide) args _
  · exact answers_savedReply (by decide) rfl _ args

/-- What the rest of the daemon answers is an answer to the command, whichever it is. -/
theorem answers_command (app : App) {cmd : UInt8} (hcmd : cmd ∈ kOtherCommands) (args : Bytes) :
    Answers (cmd :: args) (app.command lib sign out cmd args).1 := by
  simp only [kOtherCommands, List.mem_cons, List.not_mem_nil, or_false] at hcmd
  rcases hcmd with rfl | rfl | rfl | rfl | rfl | rfl | rfl | rfl | rfl | rfl | rfl | rfl | rfl |
    rfl | rfl | rfl | rfl | rfl | rfl | rfl | rfl | rfl
  · exact app.answers_cmdSendTxtMsg args
  · exact app.answers_cmdSendChannelTxtMsg args
  · exact .listing _ _
  · exact .one (by decide) (by decide) _
  · exact app.answers_cmdSetDeviceTime args
  · exact .ok (by decide) (by decide) args
  · exact answers_changeSettings (by decide) rfl app _ args
  · exact answers_editContacts (by decide) rfl app _ args
  · exact answers_changeSettings (by decide) rfl app _ args
  · exact answers_changeSettings (by decide) rfl app _ args
  · exact answers_editContacts (by decide) rfl app _ args
  · exact answers_changeSettings (by decide) rfl app _ args
  · exact answers_editContacts (by decide) rfl app _ args
  · exact answers_cmdExportContact (by decide) rfl _ args
  · exact answers_cmdExportContact (by decide) rfl _ args
  · exact .one (by decide) (by decide) _
  · exact answers_changeSettings (by decide) rfl app _ args
  · exact .one (by decide) (by decide) _
  · exact answers_cmdGetContactByKey _ args
  · exact answers_cmdGetChannel _ args
  · exact app.answers_cmdSetChannel args
  · exact .one (by decide) (by decide) _

/-! ## A turn of the dispatch loop -/

variable (lib sign out) in
/-- A command leaves the server to the session. -/
theorem server_command (app : App) (cmd : UInt8) (args : Bytes) :
    (app.command lib sign out cmd args).2.server = app.server := by
  by_cases hcmd : cmd = kCmdAppStart
  · subst hcmd
    rw [command_appStart, introduce]
    split <;> rfl
  · exact (app.commanded_command hcmd args).alters.server

/-- What a session sends over a command, less its pushes, answers it. -/
theorem answers_replies (app : App) (cmd : UInt8) (args : Bytes) {s : Session}
    (hanswers : s.answers = [(app.command lib sign out cmd args).1]) :
    Answers (cmd :: args) ((s.replies (cmd :: args)).filter (Quiet ·)) := by
  have hfirst : s.answers.headD [] = (app.command lib sign out cmd args).1 := by rw [hanswers]; rfl
  rw [Session.replies]
  split
  next hcmd =>
    subst hcmd
    have hself : Answers (kCmdAppStart :: args) (s.answers.headD []) := by
      rw [hfirst, command_appStart]
      exact .one (by decide) (by decide) _
    have hpushes : ((if s.inbox.messages ≠ [] then [[kPushMsgWaiting]] else []).filter
        (Quiet ·) : List Bytes) = [] := by
      split
      · decide
      · rfl
    rw [List.filter_append, hself.filter_quiet, hpushes, List.append_nil]
    exact hself
  next hstart =>
    have hall : ∀ {answers : List Bytes}, Answers (cmd :: args) answers →
        Answers (cmd :: args) (answers.filter (Quiet ·)) := fun hanswers => by
      rwa [hanswers.filter_quiet]
    split
    next hcmd =>
      subst hcmd
      refine hall ?_
      rw [Session.syncReply_eq]
      cases s.inbox.pop.1 with
      | none => exact .one (by decide) (by decide) _
      | some msg =>
          show Answers _ [messageReply msg]
          rw [messageReply]
          split
          · exact .one (by decide) (by decide) _
          · exact .one (by decide) (by decide) _
    next hsync =>
      split
      next hcmd =>
        subst hcmd
        exact hall (.one (by decide) (by decide) _)
      next hconnection =>
        split
        next hcmd =>
          subst hcmd
          exact hall (.one (by decide) (by decide) _)
        next hlogout =>
          split
          next hcmd =>
            rw [hfirst]
            exact hall (app.answers_command hcmd args)
          next hother =>
            refine hall (.error ?_ ?_ args _)
            · rintro rfl
              exact hother (by decide)
            · rw [answerCodes_unsupported hstart hsync hconnection hlogout hother]
              exact List.mem_cons_self

variable (lib) in
/-- A turn of the dispatch loop: a frame that is there is answered, with pushes between the
answers at most. -/
theorem sends_dispatchOne {frame : Bytes} (hframe : (app.session []).nextFrame = some frame) :
    ∃ payloads, { app.server with reader := app.server.reader.next.2 }.Sends payloads
        (app.dispatchOne lib sign out).server ∧ Answers frame (payloads.filter (Quiet ·)) := by
  cases frame with
  | nil =>
      have hidle : app.dispatchOne lib sign out = app.serve .frame [] :=
        dispatchOne_idle lib sign out fun cmd args hcommand => by
          cases hframe.symm.trans hcommand
      rw [hidle]
      exact ⟨_, Session.sends_dispatchOne hframe, .empty⟩
  | cons cmd args =>
      rw [dispatchOne_command lib sign out hframe]
      have hserver := server_command lib sign out app cmd args
      have hanswers : ∀ s : Session, s.answers = [(app.command lib sign out cmd args).1] →
          Answers (cmd :: args) ((s.replies (cmd :: args)).filter (Quiet ·)) := fun s =>
        app.answers_replies cmd args
      generalize app.command lib sign out cmd args = result at hserver hanswers ⊢
      have hnext := (nextFrame_session hserver [result.1]).trans hframe
      refine ⟨_, ?_, hanswers (result.2.session [result.1]).advanced rfl⟩
      rw [← hserver]
      exact Session.sends_dispatchOne hnext

/-- The frame that is there is the reader's next, and somebody sent it. -/
theorem of_nextFrame {frame : Bytes} (hframe : (app.session []).nextFrame = some frame) :
    app.server.client ≠ none ∧ app.server.reader.next.1 = some frame := by
  rw [Session.nextFrame] at hframe
  split at hframe
  next hconnected =>
    refine ⟨fun hnone => ?_, hframe⟩
    have hsome : app.server.client.isSome = true := hconnected
    rw [hnone] at hsome
    cases hsome
  next => cases hframe

theorem answered_dispatchOne (hanswered : app.server.Answered client received heard) :
    (app.dispatchOne lib sign out).server.Answered client received
      (heard ++ heardFrom client app (.frame out)) := by
  rw [heardFrom]
  cases hframe : (app.session []).nextFrame with
  | none =>
      have hidle : app.dispatchOne lib sign out = app.serve .frame [] :=
        dispatchOne_idle lib sign out fun cmd args hcommand => by
          cases hframe.symm.trans hcommand
      rw [hidle, Option.toList_none, ite_self, List.append_nil]
      rcases Session.dispatchOne_idle hframe with ⟨hnext, hserver⟩ | ⟨-, hsame⟩
      · have hserver' : (app.serve .frame []).server =
            { app.server with reader := app.server.reader.next.2 } := hserver
        rw [hserver']
        exact hanswered.idle hnext
      · have hserver' : (app.serve .frame []).server = app.server := congrArg Session.server hsame
        rw [hserver']
        exact hanswered
  | some frame =>
      obtain ⟨payloads, hsends, hanswers⟩ := sends_dispatchOne lib hframe
      exact hanswered.hears (of_nextFrame hframe).2 hsends hanswers

/-! ## Everything else -/

/-- What the app is told of on its own is no answer. -/
theorem answered_push (hanswered : app.server.Answered client received heard) {payload : Bytes}
    (hpush : ¬ Quiet payload) : (app.push payload).server.Answered client received heard := by
  show ((app.session []).push payload).server.Answered client received heard
  rw [Session.push]
  split
  · exact hanswered.hushed (app.server.sends_send payload) fun other hmem =>
      List.mem_singleton.mp hmem ▸ hpush
  · exact hanswered

theorem answered_onNotice (hanswered : app.server.Answered client received heard)
    (notice : Notice) : (app.onNotice notice).server.Answered client received heard := by
  cases notice with
  | contactChanged pubkey isNew =>
      rw [onNotice]
      split
      · exact answered_push hanswered (not_quiet_cons (by decide) pubkey)
      · exact hanswered
  | messageStored =>
      have hnoted : ({ app with log := .stored :: app.log } : App).server.Answered client received
        heard := hanswered
      exact answered_push hnoted (not_quiet_cons (by decide) [])
  | ack ackHash => exact answered_push hanswered (not_quiet_cons (by decide) _)
  | advertSeen pubkey => exact answered_push hanswered (not_quiet_cons (by decide) pubkey)
  | pathUpdated pubkey => exact answered_push hanswered (not_quiet_cons (by decide) pubkey)

theorem answered_onNotices (hanswered : app.server.Answered client received heard)
    (notices : List Notice) :
    (notices.foldl onNotice app).server.Answered client received heard := by
  induction notices generalizing app with
  | nil => exact hanswered
  | cons notice notices ih => exact ih (answered_onNotice hanswered notice)

theorem answered_received {bytes : Bytes} (hanswered : app.server.Answered client bytes heard) (raw : Bytes)
    (rssi snrQ4 : Int) (m : Moment) :
    (app.received lib raw rssi snrQ4 m).server.Answered client bytes heard := by
  have hheard : (app.onRawRx raw rssi snrQ4).server.Answered client bytes heard := by
    rw [onRawRx]
    split
    · exact hanswered
    · exact answered_push hanswered (not_quiet_cons (by decide) _)
  rw [received]
  generalize app.onRawRx raw rssi snrQ4 = app at hheard ⊢
  generalize app.node.receive lib raw rssi snrQ4 _ = node
  have hnode : ({ app with node } : App).server.Answered client bytes heard := hheard
  exact answered_onNotices hnode _

theorem answered_hangUp (hanswered : app.server.Answered client received heard) :
    (app.serve .hangUp []).server.Answered client received heard :=
  hanswered.hushed app.server.sends_dropClient fun payload hmem => by cases hmem

variable (lib sign) in
/-- One step: what was received and heard is longer by what the step adds. -/
theorem answered_step (hanswered : app.server.Answered client received heard) (event : Event) :
    (app.step lib sign event).server.Answered client
      (received ++ receivedFrom client app event) (heard ++ heardFrom client app event) := by
  have hnone : ∀ payload ∈ ([] : List Bytes), ¬ Quiet payload := fun payload hmem => by
    cases hmem
  have hquiet : ∀ {s : Server}, s.Answered client received heard →
      s.Answered client (received ++ []) (heard ++ []) := fun hanswered => by
    rwa [List.append_nil, List.append_nil]
  cases event with
  | feed bytes =>
      rw [show heardFrom client app (.feed bytes) = [] from rfl, List.append_nil, receivedFrom, step]
      split
      · exact hanswered.feed bytes
      next hdisconnected =>
        have hother : app.server.client ≠ some client :=
          Server.client_ne_of_not_connected hdisconnected
        rw [if_neg hother, List.append_nil]
        exact hanswered
  | frame out =>
      rw [show receivedFrom client app (.frame out) = [] from rfl, List.append_nil]
      exact answered_dispatchOne hanswered
  | accept nonblocking =>
      refine hquiet ?_
      exact hanswered.accept nonblocking
  | writable =>
      refine hquiet ?_
      exact hanswered.hushed app.server.sends_flush hnone
  | hangUp =>
      refine hquiet ?_
      exact answered_hangUp hanswered
  | kernel results =>
      refine hquiet ?_
      have hsends : app.server.Sends [] { app.server with kernel := results } :=
        .nothing (.of_eq rfl rfl rfl) fun _ _ => rfl
      exact hanswered.hushed hsends hnone
  | received raw rssi snrQ4 m =>
      refine hquiet ?_
      exact answered_received hanswered raw rssi snrQ4 m
  | advertTimer radio =>
      refine hquiet ?_
      have hserver : (app.sendAdvert lib sign radio true).server = app.server :=
        (app.alters_sendAdvert radio true).server
      show (app.sendAdvert lib sign radio true).server.Answered client received heard
      rw [hserver]
      exact hanswered
  | requestStop io =>
      refine hquiet ?_
      have hflushed : (app.flush io).2.server.Answered client received heard := hanswered
      exact answered_hangUp hflushed
  | _ =>
      refine hquiet ?_
      exact hanswered

/-! ## Runs -/

variable (lib sign) in
theorem answered_run (hanswered : app.server.Answered client received heard)
    (events : List Event) :
    (run (step lib sign) app events).server.Answered client
      (received ++ collect (step lib sign) (receivedFrom client) app events)
      (heard ++ collect (step lib sign) (heardFrom client) app events) := by
  induction events generalizing app received heard with
  | nil => simpa [collect] using hanswered
  | cons event events ih =>
      have hrun := ih (answered_step lib sign hanswered event)
      simpa [collect] using hrun

/-- **Every command is answered, in its turn**: in every run from startup, whatever else
happens in between, the frames handled for a connection are the first of those it sent, and
what it was sent beside pushes are their answers in order, one answer a frame. While it is
connected no answer is missing, and the frames not yet handled are those still in the
reader's buffer. -/
theorem answered_in_turn (lib : Crypto.Library) (sign : Bytes → Bytes) {boot : Boot}
    (hstart : start boot = some app) (events : List Event) (client : Nat) :
    let after := run (step lib sign) app events
    let received := collect (step lib sign) (receivedFrom client) app events
    let heard := collect (step lib sign) (heardFrom client) app events
    heard <+: (drain FrameReader.scan received).1 ∧
      ∃ answers, List.Forall₂ Answers heard answers ∧
        after.server.answersTo client <+: answers.flatten.map frameResponse ∧
        (after.server.client = some client →
          after.server.answersTo client = answers.flatten.map frameResponse ∧
            (drain FrameReader.scan received).1 =
              heard ++ (drain FrameReader.scan after.server.reader.buf).1) := by
  intro after received heard
  have hserver : app.server = {} := by
    rw [start] at hstart
    dsimp only at hstart
    split at hstart
    · cases hstart
    · split at hstart
      · cases hstart
      · obtain rfl := Option.some.inj hstart
        rfl
  have hfresh : app.server.Answered client [] [] := by
    rw [hserver]
    exact Server.answered_fresh client
  have hanswered : after.server.Answered client received heard :=
    answered_run lib sign hfresh events
  obtain ⟨answers, hpairs, hprefix, hwhole⟩ := hanswered.inTurn
  refine ⟨hanswered.own, answers, hpairs, hprefix, fun hcurrent => ⟨hwhole hcurrent, ?_⟩⟩
  rw [hanswered.pending hcurrent]

end

/-- An app asks for the contacts, a channel and the time in one go, and is answered three
times: with two frames, an error, and the time. -/
def sampleCommands : List Event :=
  [.accept true, .feed ([[kCmdGetContacts], [kCmdGetChannel], [kCmdGetDeviceTime]].flatMap
      frameResponse),
    .frame { view := .down }, .frame { view := .down }, .frame { view := .down }]

theorem answered_in_turn_sample :
    ∃ app, start sampleBoot = some app ∧
      let after := run (step .transparent SettingsStore.sampleSign) app sampleCommands
      let heard := collect (step .transparent SettingsStore.sampleSign) (heardFrom 0) app
        sampleCommands
      heard = [[kCmdGetContacts], [kCmdGetChannel], [kCmdGetDeviceTime]] ∧
        (after.server.answersTo 0).length = 4 ∧
        ∃ answers, List.Forall₂ Answers heard answers ∧
          after.server.answersTo 0 <+: answers.flatten.map frameResponse := by
  have hrun : (start sampleBoot).any (fun app =>
      let after := run (step .transparent SettingsStore.sampleSign) app sampleCommands
      let heard := collect (step .transparent SettingsStore.sampleSign) (heardFrom 0) app
        sampleCommands
      decide (heard = [[kCmdGetContacts], [kCmdGetChannel], [kCmdGetDeviceTime]] ∧
        (after.server.answersTo 0).length = 4)) = true := by decide +kernel
  obtain ⟨app, hstart, hreached⟩ := (Option.any_eq_true _ _).mp hrun
  obtain ⟨hheard, hlength⟩ := of_decide_eq_true hreached
  obtain ⟨-, answers, hpairs, hprefix, -⟩ :=
    answered_in_turn .transparent SettingsStore.sampleSign hstart sampleCommands 0
  exact ⟨app, hstart, hheard, hlength, answers, hpairs, hprefix⟩

end App

end Coreletd.Daemon
