/-
# Pushes to those who asked, and mail announced

One flag decides whether a push goes out. It outlives a connection and is cleared
only when the next one is accepted, and no other path of the daemon reaches a
client's buffer. So in every run a push goes to a connection only behind that
connection's own `CMD_APP_START`; and an app that has introduced itself and has mail
waiting was told so after the last message came in.
-/

import Coreletd.Daemon.AppSteps
import Coreletd.Daemon.StateStores

namespace Coreletd.Daemon

open Coreletd.Companion
open Coreletd.Library
open Coreletd.Mesh
open Coreletd.Proto

/-! ## The log -/

def Happening.server? : Happening → Option ServerEvent
  | .server event => some event
  | _ => none

/-- What a log says of the server, newest first. -/
def serverEvents (log : List Happening) : List ServerEvent := log.filterMap Happening.server?

/-- Everything written to a connection. -/
def writtenTo (client : Nat) (log : List Happening) : Bytes :=
  (serverEvents log).reverse.flatMap (Server.wroteTo client)

/-- Everything put into the buffer of a connection. -/
def queuedFor (client : Nat) (log : List Happening) : Bytes :=
  (serverEvents log).reverse.flatMap (Server.queuedBy client)

/-- Each push was queued behind an introduction of its connection. -/
def Gated (log : List Happening) : Prop :=
  ∀ client frame before, .server (.appended client frame) :: before <:+ log → IsPush frame →
    .started client ∈ before

/-- `PUSH_MSG_WAITING` was queued for the connection, and since then it has not
introduced itself and no message was stored. -/
def Told (client : Nat) (log : List Happening) : Prop :=
  ∃ after before, log = after ++ .server (.appended client (frameResponse [kPushMsgWaiting])) ::
      before ∧ .started client ∉ after ∧ .stored ∉ after

/-- What an app can rely on. -/
structure App.Announces (app : App) : Prop where
  /-- Only what was queued for a connection is written to it. -/
  written : ∀ client, writtenTo client app.log <+: queuedFor client app.log
  gated : Gated app.log
  told : ∀ client, app.server.client = some client → .started client ∈ app.log →
    app.node.inbox.messages ≠ [] → Told client app.log

theorem serverEvents_append (fresh : List ServerEvent) (log : List Happening) :
    serverEvents (fresh.map .server ++ log) = fresh ++ serverEvents log := by
  rw [serverEvents, List.filterMap_append, List.filterMap_map]
  exact congrArg (· ++ serverEvents log) List.filterMap_some

/-- What is neither does not matter to who is told what. -/
theorem not_mem_map_server (fresh : List ServerEvent) {happening : Happening}
    (hserver : happening.server? = none) : happening ∉ fresh.map Happening.server := by
  intro hmem
  obtain ⟨event, -, rfl⟩ := List.mem_map.mp hmem
  cases hserver

theorem Gated.cons {log : List Happening} (hgated : Gated log) {happening : Happening}
    (hpush : ∀ client frame, happening = .server (.appended client frame) → IsPush frame →
      .started client ∈ log) : Gated (happening :: log) := by
  intro client frame before hsuffix hframe
  rcases List.suffix_cons_iff.mp hsuffix with hhere | hearlier
  · obtain ⟨rfl, rfl⟩ := List.cons.inj hhere
    exact hpush client frame rfl hframe
  · exact hgated client frame before hearlier hframe

theorem Gated.append {log : List Happening} (hgated : Gated log) {fresh : List ServerEvent}
    (hpush : ∀ client frame, .appended client frame ∈ fresh → IsPush frame →
      .started client ∈ log) : Gated (fresh.map .server ++ log) := by
  induction fresh with
  | nil => exact hgated
  | cons event fresh ih =>
      refine (ih fun client frame hmem => hpush client frame (List.mem_cons_of_mem _ hmem)).cons ?_
      intro client frame hevent hframe
      obtain rfl := Happening.server.inj hevent
      exact List.mem_append_right _ (hpush client frame List.mem_cons_self hframe)

theorem Told.append {client : Nat} {log : List Happening} (htold : Told client log)
    (fresh : List ServerEvent) : Told client (fresh.map .server ++ log) := by
  obtain ⟨after, before, rfl, hstarted, hstored⟩ := htold
  refine ⟨fresh.map .server ++ after, before, (List.append_assoc _ _ _).symm, ?_, ?_⟩
  · exact List.not_mem_append (not_mem_map_server fresh rfl) hstarted
  · exact List.not_mem_append (not_mem_map_server fresh rfl) hstored

namespace App

/-! ## The invariant -/

/-- The log and the server agree, and so do the flag and the log. -/
structure Sound (app : App) : Prop where
  delivers : app.server.Delivers
  traced : serverEvents app.log = app.server.trace
  gated : Gated app.log
  seen : ∀ client, .started client ∈ app.log → client < app.server.nextClient
  current : ∀ client, app.server.client = some client →
    (app.appStarted = true ↔ .started client ∈ app.log)

/-- An app that has introduced itself knows of its mail. -/
def Waiting (app : App) : Prop :=
  ∀ client, app.server.client = some client → .started client ∈ app.log →
    app.node.inbox.messages ≠ [] → Told client app.log

variable {app app' : App} {s : Session} {answers : List (List Bytes)}

theorem Sound.announces (hsound : app.Sound) (hwaiting : app.Waiting) : app.Announces where
  written client := by
    have hwritten := hsound.delivers.written client
    rw [Server.writtenTo, Server.queuedFor, ← hsound.traced] at hwritten
    exact hwritten
  gated := hsound.gated
  told := hwaiting

theorem Sound.congr (hsound : app.Sound) (hserver : app'.server = app.server)
    (hstarted : app'.appStarted = app.appStarted) (hlog : app'.log = app.log) : app'.Sound := by
  constructor
  · rw [hserver]
    exact hsound.delivers
  · rw [hserver, hlog]
    exact hsound.traced
  · rw [hlog]
    exact hsound.gated
  · rw [hserver, hlog]
    exact hsound.seen
  · rw [hserver, hstarted, hlog]
    exact hsound.current

theorem Waiting.congr (hwaiting : app.Waiting) (hserver : app'.server = app.server)
    (hlog : app'.log = app.log)
    (hmessages : app'.node.inbox.messages = app.node.inbox.messages) : app'.Waiting := by
  intro client hclient hstarted hmail
  rw [hserver] at hclient
  rw [hlog] at hstarted ⊢
  rw [hmessages] at hmail
  exact hwaiting client hclient hstarted hmail

/-- What a session that only speaks adds to the log. -/
theorem log_withSession (hspeaks : (app.session answers).Speaks s) :
    ∃ fresh, s.server.trace = fresh ++ app.server.trace ∧
      (app.withSession s).log = fresh.map .server ++ app.log := by
  obtain ⟨fresh, htrace, -⟩ := hspeaks.server.trace
  refine ⟨fresh, htrace, ?_⟩
  rw [withSession, htrace]
  exact congrArg (List.map Happening.server · ++ app.log)
    (TextSession.gained_append app.server.trace fresh)

theorem client_of_speaks (hspeaks : (app.session answers).Speaks s) {client : Nat}
    (hclient : s.server.client = some client) : app.server.client = some client := by
  rcases hspeaks.server.client with hsame | hnone
  · exact hsame ▸ hclient
  · rw [hnone] at hclient
    cases hclient

theorem mem_append_server {happening : Happening} (hserver : happening.server? = none)
    (fresh : List ServerEvent) (log : List Happening) :
    happening ∈ fresh.map Happening.server ++ log ↔ happening ∈ log := by
  rw [List.mem_append]
  exact or_iff_right (not_mem_map_server fresh hserver)

theorem Sound.withSession (hsound : app.Sound) (hserves : (app.session answers).Serves s)
    (hspeaks : (app.session answers).Speaks s) : (app.withSession s).Sound := by
  obtain ⟨events, hevents⟩ := hserves
  obtain ⟨fresh, htrace, hlog⟩ := log_withSession hspeaks
  refine ⟨?_, ?_, ?_, fun client hstarted => ?_, fun client hclient => ?_⟩
  · show s.server.Delivers
    rw [hevents]
    exact hsound.delivers.run events
  · rw [hlog, serverEvents_append, hsound.traced]
    exact htrace.symm
  · rw [hlog]
    refine hsound.gated.append fun client frame hmem hpush => ?_
    obtain ⟨fresh', htrace', happended⟩ := hspeaks.server.trace
    obtain rfl : fresh = fresh' := List.append_cancel_right (htrace.symm.trans htrace')
    obtain ⟨hclient, payload, hquiet | hstarted, rfl⟩ := happended client frame hmem
    · exact absurd hquiet ((isPush_frameResponse payload).mp hpush)
    · exact (hsound.current client hclient).mp hstarted
  · rw [hlog, mem_append_server rfl] at hstarted
    show client < s.server.nextClient
    rw [hspeaks.server.numbers]
    exact hsound.seen client hstarted
  · rw [hlog, mem_append_server rfl, ← hsound.current client (client_of_speaks hspeaks hclient)]
    show s.appStarted = true ↔ _
    rw [hspeaks.appStarted]
    exact Iff.rfl

theorem Waiting.withSession (hwaiting : app.Waiting)
    (hspeaks : (app.session answers).Speaks s) : (app.withSession s).Waiting := by
  obtain ⟨fresh, -, hlog⟩ := log_withSession hspeaks
  intro client hclient hstarted hmail
  rw [hlog] at hstarted ⊢
  rw [mem_append_server rfl] at hstarted
  refine (hwaiting client (client_of_speaks hspeaks hclient) hstarted
    fun hnone => hmail ?_).append _
  have hfewer : s.inbox.messages <:+ app.node.inbox.messages := hspeaks.messages
  rw [hnone] at hfewer
  exact List.suffix_nil.mp hfewer

/-- To be told is to be told whatever was so before. -/
theorem waiting_told (hspeaks : (app.session answers).Speaks s) (hstarted : s.appStarted = true) :
    (app.withSession (s.push [kPushMsgWaiting])).Waiting := by
  intro client hclient _ _
  have hpush : s.push [kPushMsgWaiting] = s.reply [kPushMsgWaiting] := if_pos hstarted
  have hpushed := hspeaks.trans (s.speaks_push [kPushMsgWaiting])
  obtain ⟨before, hbefore, -⟩ := log_withSession hspeaks
  obtain ⟨fresh, hfresh, hlog⟩ := log_withSession hpushed
  have hcurrent : s.server.client = some client := by
    rcases (s.speaks_push [kPushMsgWaiting]).server.client with hsame | hnone
    · exact hsame ▸ hclient
    · exact absurd (hclient.symm.trans hnone) (Option.some_ne_none client)
  rcases Server.send_tells hcurrent [kPushMsgWaiting] with hnone | ⟨after, hafter⟩
  · rw [hpush] at hclient
    exact absurd (hclient.symm.trans hnone) (Option.some_ne_none client)
  · have hsplit :
        fresh = after ++ .appended client (frameResponse [kPushMsgWaiting]) :: before := by
      have hwhole : fresh ++ app.server.trace =
          (after ++ .appended client (frameResponse [kPushMsgWaiting]) :: before) ++
            app.server.trace := by
        rw [← hfresh, hpush, List.append_assoc, List.cons_append, ← hbefore]
        exact hafter
      exact List.append_cancel_right hwhole
    rw [hlog, hsplit]
    refine ⟨after.map .server, before.map .server ++ app.log, ?_, ?_, ?_⟩
    · rw [List.map_append, List.map_cons, List.append_assoc, List.cons_append]
    · exact not_mem_map_server after rfl
    · exact not_mem_map_server after rfl

/-! ## The session's events -/

/-- What the session does without a new connection. -/
theorem Sound.serve (hsound : app.Sound) {event : Session.Event}
    (hserves : (app.session answers).Serves ((app.session answers).step event))
    (hspeaks : (app.session answers).Speaks ((app.session answers).step event)) :
    (app.serve event answers).Sound := hsound.withSession hserves hspeaks

theorem Sound.push (hsound : app.Sound) (payload : Bytes) : (app.push payload).Sound :=
  hsound.serve (Session.serves_push _ payload) (Session.speaks_push _ payload)

theorem Waiting.push (hwaiting : app.Waiting) (payload : Bytes) : (app.push payload).Waiting :=
  hwaiting.withSession (Session.speaks_push _ payload)

/-- Told of a message, or not one to tell. -/
theorem Sound.waiting_push (hsound : app.Sound) : (app.push [kPushMsgWaiting]).Waiting := by
  cases hstarted : app.appStarted with
  | true => exact waiting_told (Session.Speaks.refl (app.session [])) hstarted
  | false =>
      intro client hclient hintroduced
      have hspeaks := Session.speaks_push (app.session []) [kPushMsgWaiting]
      obtain ⟨fresh, -, hlog⟩ := log_withSession hspeaks
      have hlog' : (app.push [kPushMsgWaiting]).log = fresh.map .server ++ app.log := hlog
      rw [hlog', mem_append_server rfl,
        ← hsound.current client (client_of_speaks hspeaks hclient), hstarted] at hintroduced
      cases hintroduced

/-- A new connection has not introduced itself. -/
theorem sound_accept (hsound : app.Sound) (nonblocking : Bool) :
    (app.serve (.accept nonblocking) []).Sound ∧
      ∀ client, (app.serve (.accept nonblocking) []).server.client = some client →
        .started client ∉ (app.serve (.accept nonblocking) []).log := by
  -- The old connection goes first, as when it hangs up.
  have hspeaks : (app.session []).Speaks ((app.session []).step .hangUp) :=
    .of_server (Server.appends_dropClient _)
  have hdropped : (app.serve .hangUp []).Sound := hsound.serve ⟨[.drop], rfl⟩ hspeaks
  obtain ⟨fresh, htrace, hlog⟩ := log_withSession hspeaks
  cases nonblocking with
  | false =>
      have hnobody : ∀ client, (app.serve (.accept false) []).server.client ≠ some client :=
        fun client hclient => by
          rw [show (app.serve (.accept false) []).server.client = none from
            app.server.client_dropClient] at hclient
          cases hclient
      exact ⟨⟨hdropped.delivers, hdropped.traced, hdropped.gated, hdropped.seen,
        fun client hclient => absurd hclient (hnobody client)⟩,
        fun client hclient => absurd hclient (hnobody client)⟩
  | true =>
      have hnext : app.server.dropClient.nextClient = app.server.nextClient :=
        hspeaks.server.numbers
      have haccepted : (app.serve (.accept true) []).log =
          .server (.accepted app.server.nextClient) :: (app.serve .hangUp []).log := by
        show (TextSession.gained app.server.trace (.accepted app.server.dropClient.nextClient ::
          app.server.dropClient.trace)).map _ ++ _ = _
        rw [hnext, show app.server.dropClient.trace = fresh ++ app.server.trace from htrace,
          ← List.cons_append, TextSession.gained_append]
        exact congrArg (_ :: ·) hlog.symm
      have hnew : .started app.server.nextClient ∉ (app.serve (.accept true) []).log := by
        rw [haccepted]
        refine List.not_mem_cons_of_ne_of_not_mem (by simp) fun hstarted => ?_
        have hseen : app.server.nextClient < app.server.dropClient.nextClient :=
          hdropped.seen _ hstarted
        exact Nat.lt_irrefl _ (hnext ▸ hseen)
      have hclient : (app.serve (.accept true) []).server.client = some app.server.nextClient :=
        congrArg some hnext
      have hcleared : (app.serve (.accept true) []).appStarted = false :=
        Bool.and_false app.appStarted
      refine ⟨⟨hsound.delivers.acceptClient true, ?_, ?_, fun client hstarted => ?_, ?_⟩, ?_⟩
      · rw [haccepted]
        show ServerEvent.accepted app.server.nextClient :: serverEvents (app.serve .hangUp []).log =
          .accepted app.server.dropClient.nextClient :: app.server.dropClient.trace
        rw [hdropped.traced, hnext]
        rfl
      · rw [haccepted]
        exact hdropped.gated.cons (by simp)
      · rw [haccepted] at hstarted
        exact Nat.lt_succ_of_lt (hdropped.seen client ((List.mem_cons.mp hstarted).resolve_left
          (by simp)))
      · rw [hclient, hcleared]
        rintro _ ⟨⟩
        exact iff_of_false Bool.false_ne_true hnew
      · rw [hclient]
        rintro _ ⟨⟩
        exact hnew

/-! ## The rest of the daemon -/

theorem Sound.alters (hsound : app.Sound) (halters : Alters app app') : app'.Sound :=
  hsound.congr halters.server halters.appStarted halters.log

theorem Waiting.alters (hwaiting : app.Waiting) (halters : Alters app app') : app'.Waiting :=
  hwaiting.congr halters.server halters.log (by rw [halters.inbox])

section

variable {lib : Crypto.Library} {sign : Bytes → Bytes}

/-- A connection that has just introduced itself. -/
def introduced (app : App) : App := { app.introduce with appStarted := true }

theorem Sound.introduced (hsound : app.Sound) {client : Nat}
    (hclient : app.server.client = some client) : app.introduced.Sound := by
  have hlog : app.introduced.log = .started client :: app.log := by
    rw [App.introduced, introduce, hclient]
  have hserver : app.introduced.server = app.server := by
    rw [App.introduced, introduce, hclient]
  refine ⟨?_, ?_, ?_, fun other hstarted => ?_, fun other hother => ?_⟩
  · rw [hserver]
    exact hsound.delivers
  · rw [hserver, hlog]
    exact hsound.traced
  · rw [hlog]
    exact hsound.gated.cons fun _ _ hevent => by cases hevent
  · rw [hlog] at hstarted
    rw [hserver]
    rcases List.mem_cons.mp hstarted with hnew | hold
    · obtain rfl := Happening.started.inj hnew
      exact hsound.delivers.numbered other hclient
    · exact hsound.seen other hold
  · rw [hserver, hclient] at hother
    obtain rfl := Option.some.inj hother
    rw [hlog]
    exact iff_of_true rfl List.mem_cons_self

/-- Taking in an introduction: the app is told of what waits. -/
theorem sound_appStart (hsound : app.Sound) {out : Surroundings} {args : Bytes}
    (hframe : (app.session []).nextFrame = some (kCmdAppStart :: args)) :
    (app.dispatchOne lib sign out).Sound ∧ (app.dispatchOne lib sign out).Waiting := by
  obtain ⟨client, hclient⟩ : ∃ client, app.server.client = some client := by
    rw [Session.nextFrame] at hframe
    split at hframe
    next hconnected => exact Option.isSome_iff_exists.mp hconnected
    next => cases hframe
  let answers := [[selfInfoFrame app.node.identity app.profile app.radio.params]]
  let s := app.introduce.session answers
  have hstart : app.introduced.Sound := hsound.introduced hclient
  have hserver : app.introduce.server = app.server := by rw [introduce, hclient]
  have hturn : app.dispatchOne lib sign out = app.introduced.withSession (s.step .frame) := by
    rw [dispatchOne_command lib sign out hframe, command_appStart]
    rfl
  have hstep : s.step .frame = s.advanced.cmdAppStart :=
    Session.dispatchOne_eq ((nextFrame_session hserver answers).trans hframe)
  have hquiet : s.advanced.QuietAnswers := fun frame hmem => by
    obtain rfl := List.mem_singleton.mp hmem
    exact quiet_cons (by decide) _
  obtain ⟨answered, hanswered, hsays⟩ := Session.cmdAppStart_says hquiet
  have hspeaks : (app.introduced.session answers).Speaks answered :=
    (app.introduced.session answers).speaks_advanced.trans hanswered
  have hserves : (app.introduced.session answers).Serves (s.step .frame) := s.serves_dispatchOne
  have hintroduced : answered.appStarted = true := hspeaks.appStarted
  rw [hturn]
  rw [hstep, hsays] at hserves ⊢
  split
  next hmail =>
    rw [if_pos hmail] at hserves
    exact ⟨hstart.withSession hserves (hspeaks.trans (answered.speaks_push _)),
      waiting_told hspeaks hintroduced⟩
  next hnone =>
    rw [if_neg hnone] at hserves
    exact ⟨hstart.withSession hserves hspeaks, fun _ _ _ hmail => absurd hmail hnone⟩

/-- A turn of the dispatch loop. -/
theorem sound_dispatchOne (hsound : app.Sound) (hwaiting : app.Waiting) (out : Surroundings) :
    (app.dispatchOne lib sign out).Sound ∧ (app.dispatchOne lib sign out).Waiting := by
  by_cases hstart : ∃ args, (app.session []).nextFrame = some (kCmdAppStart :: args)
  · obtain ⟨args, hframe⟩ := hstart
    exact sound_appStart hsound hframe
  · have hnotStart : ∀ args, (app.session []).nextFrame ≠ some (kCmdAppStart :: args) :=
      fun args hframe => hstart ⟨args, hframe⟩
    by_cases hcommand : ∃ cmd args, (app.session []).nextFrame = some (cmd :: args)
    · obtain ⟨cmd, args, hframe⟩ := hcommand
      have hcmd : cmd ≠ kCmdAppStart := by
        rintro rfl
        exact hnotStart args hframe
      have hcommanded : Commanded app (app.command lib sign out cmd args) :=
        app.commanded_command hcmd args
      rw [dispatchOne_command lib sign out hframe]
      generalize app.command lib sign out cmd args = result at hcommanded ⊢
      have halters := hcommanded.alters
      have hspeaks : (result.2.session [result.1]).Speaks
          ((result.2.session [result.1]).step .frame) :=
        Session.speaks_frame hcommanded.quiet fun args =>
          (nextFrame_session halters.server [result.1]).symm ▸ hnotStart args
      exact ⟨(hsound.alters halters).serve (Session.serves_dispatchOne _) hspeaks,
        (hwaiting.alters halters).withSession hspeaks⟩
    · have hspeaks : (app.session []).Speaks ((app.session []).step .frame) :=
        Session.speaks_frame (fun frame hmem => by cases hmem) hnotStart
      rw [dispatchOne_idle lib sign out fun cmd args hframe => hcommand ⟨cmd, args, hframe⟩]
      exact ⟨hsound.serve (Session.serves_dispatchOne _) hspeaks, hwaiting.withSession hspeaks⟩

/-! ## Receptions -/

theorem Sound.requestSave (hsound : app.Sound) :
    ({ app with writer := app.writer.requestSave } : App).Sound := hsound.congr rfl rfl rfl

/-- A message that was stored is noted. -/
theorem Sound.noteStored (hsound : app.Sound) :
    ({ app with log := .stored :: app.log } : App).Sound := by
  refine ⟨hsound.delivers, hsound.traced, hsound.gated.cons ?_, fun client hmem => ?_,
    fun client hclient => ?_⟩
  · exact fun _ _ hevent => by cases hevent
  · exact hsound.seen client ((List.mem_cons.mp hmem).resolve_left (by simp))
  · rw [hsound.current client hclient]
    simp

theorem Sound.onNotice (hsound : app.Sound) (notice : Notice) : (app.onNotice notice).Sound := by
  cases notice with
  | contactChanged pubkey isNew =>
      rw [App.onNotice]
      split
      · exact (hsound.push _).requestSave
      · exact hsound.requestSave
  | messageStored => exact hsound.noteStored.push _
  | ack ackHash => exact hsound.push _
  | advertSeen pubkey => exact hsound.push _
  | pathUpdated pubkey => exact hsound.push _

/-- Whatever was so before, the app is told of a message that was stored. -/
theorem Sound.waiting_stored (hsound : app.Sound) : (app.onNotice .messageStored).Waiting :=
  hsound.noteStored.waiting_push

theorem Waiting.onNotice (hsound : app.Sound) (hwaiting : app.Waiting) (notice : Notice) :
    (app.onNotice notice).Waiting := by
  cases notice with
  | contactChanged pubkey isNew =>
      rw [App.onNotice]
      split
      · exact (hwaiting.push _).congr rfl rfl rfl
      · exact hwaiting.congr rfl rfl rfl
  | messageStored => exact hsound.waiting_stored
  | ack ackHash => exact hwaiting.push _
  | advertSeen pubkey => exact hwaiting.push _
  | pathUpdated pubkey => exact hwaiting.push _

theorem Sound.onNotices (hsound : app.Sound) (notices : List Notice) :
    (notices.foldl App.onNotice app).Sound := by
  induction notices generalizing app with
  | nil => exact hsound
  | cons notice notices ih => exact ih (hsound.onNotice notice)

theorem Waiting.onNotices (hsound : app.Sound) (hwaiting : app.Waiting) (notices : List Notice) :
    (notices.foldl App.onNotice app).Waiting := by
  induction notices generalizing app with
  | nil => exact hwaiting
  | cons notice notices ih => exact ih (hsound.onNotice notice) (hwaiting.onNotice hsound notice)

/-- Notices with a stored message among them leave the app told. -/
theorem Sound.waiting_onNotices (hsound : app.Sound) {notices : List Notice}
    (hstored : .messageStored ∈ notices) : (notices.foldl App.onNotice app).Waiting := by
  obtain ⟨earlier, later, rfl⟩ := List.append_of_mem hstored
  rw [List.foldl_append, List.foldl_cons]
  have hbefore := hsound.onNotices earlier
  exact Waiting.onNotices (hbefore.onNotice _) hbefore.waiting_stored later

theorem Sound.onRawRx (hsound : app.Sound) (raw : Bytes) (rssi snrQ4 : Int) :
    (app.onRawRx raw rssi snrQ4).Sound := by
  rw [App.onRawRx]
  split
  · exact hsound
  · exact hsound.push _

theorem Waiting.onRawRx (hwaiting : app.Waiting) (raw : Bytes) (rssi snrQ4 : Int) :
    (app.onRawRx raw rssi snrQ4).Waiting := by
  rw [App.onRawRx]
  split
  · exact hwaiting
  · exact hwaiting.push _

/-- A reception: a message of which the app is not told was not stored. -/
theorem sound_received (hsound : app.Sound) (hwaiting : app.Waiting) (raw : Bytes)
    (rssi snrQ4 : Int) (m : Moment) :
    (app.received lib raw rssi snrQ4 m).Sound ∧ (app.received lib raw rssi snrQ4 m).Waiting := by
  have hheard := hsound.onRawRx raw rssi snrQ4
  have hknown := hwaiting.onRawRx raw rssi snrQ4
  rw [received]
  generalize app.onRawRx raw rssi snrQ4 = app at hheard hknown ⊢
  obtain ⟨-, -, fresh, msgs, hnotices, hmail, htold⟩ :=
    Node.receives_receive lib { m with unixNow := app.wall.unixNow } app.node raw rssi snrQ4
  generalize app.node.receive lib raw rssi snrQ4 _ = node at hnotices hmail ⊢
  have hnode : ({ app with node } : App).Sound := hheard.congr rfl rfl rfl
  rw [hnotices, TextSession.gained_append]
  refine ⟨hnode.onNotices _, ?_⟩
  by_cases hnone : msgs = []
  · have hinbox : node.inbox = app.node.inbox := by
      rw [hnone] at hmail
      exact (Prod.mk.inj hmail).1
    have hnode' : ({ app with node } : App).Waiting := hknown.congr rfl rfl (by rw [hinbox])
    exact hnode'.onNotices hnode _
  · exact hnode.waiting_onNotices (List.mem_reverse.mpr (htold hnone))

/-! ## Runs -/

theorem messages_flush (io : FlushIo) (w : StateWriter) (n : Node) :
    (w.flush io n).2.2.inbox.messages = n.inbox.messages := by
  rw [flush_eq]
  dsimp only
  rw [StateStore.flushed]
  split
  · show (n.inbox.save io.inbox _).2.1.messages = _
    rw [MessageInbox.save_eq]
  · rfl

theorem messages_onSaveTimer (io : FlushIo) (w : StateWriter) (n : Node) :
    (w.onSaveTimer io n).2.inbox.messages = n.inbox.messages := by
  rw [StateWriter.onSaveTimer]
  split
  · exact messages_flush io _ n
  · rfl

/-- One step keeps what is said of the log, and what an app knows. -/
theorem sound_step (hsound : app.Sound) (hwaiting : app.Waiting) (event : Event) :
    (app.step lib sign event).Sound ∧ (app.step lib sign event).Waiting := by
  have hserve : ∀ event : Session.Event, (app.session []).Serves ((app.session []).step event) →
      (app.session []).Speaks ((app.session []).step event) →
      (app.serve event []).Sound ∧ (app.serve event []).Waiting := fun event hserves hspeaks =>
    ⟨hsound.serve hserves hspeaks, hwaiting.withSession hspeaks⟩
  have halters : ∀ app', Alters app app' → app'.Sound ∧ app'.Waiting := fun app' halters =>
    ⟨hsound.alters halters, hwaiting.alters halters⟩
  have hwritten : ∀ saved : StateWriter × Node,
      saved.2.inbox.messages = app.node.inbox.messages →
      (app.written saved).Sound ∧ (app.written saved).Waiting := fun saved hmessages =>
    ⟨hsound.congr rfl rfl rfl, hwaiting.congr rfl rfl hmessages⟩
  have hnode : ∀ event : Node.Event, (app.node.step lib event).contacts = app.node.contacts ∧
      (app.node.step lib event).channels = app.node.channels ∧
      (app.node.step lib event).inbox = app.node.inbox ∧
      (app.node.step lib event).files = app.node.files →
      (app.onNode lib event).Sound ∧ (app.onNode lib event).Waiting := fun event hkept =>
    halters _ (app.alters_onNode hkept)
  cases event with
  | accept nonblocking =>
      obtain ⟨haccepted, hnew⟩ := sound_accept hsound nonblocking
      exact ⟨haccepted, fun client hclient hstarted => absurd hstarted (hnew client hclient)⟩
  | feed bytes =>
      rw [step]
      split
      next hconnected =>
        refine hserve (.feed bytes) ⟨[.read bytes], ?_⟩
          (.of_server (.of_eq rfl rfl rfl))
        rw [run_cons, run_nil, Server.step, if_pos (show (app.session []).server.connected = true
          from hconnected)]
        rfl
      · exact ⟨hsound, hwaiting⟩
  | frame out => exact sound_dispatchOne hsound hwaiting out
  | writable => exact hserve .writable ⟨[.writable], rfl⟩ (.of_server (Server.appends_flush _))
  | hangUp => exact hserve .hangUp ⟨[.drop], rfl⟩ (.of_server (Server.appends_dropClient _))
  | kernel results =>
      exact hserve (.outside results []) ⟨[.kernel results], rfl⟩
        ⟨.of_eq rfl rfl rfl, rfl, List.suffix_rfl⟩
  | received raw rssi snrQ4 m => exact sound_received hsound hwaiting raw rssi snrQ4 m
  | retry id radio => exact hnode _ ⟨rfl, rfl, rfl, rfl⟩
  | advertTimer radio => exact halters _ (app.alters_sendAdvert radio true)
  | sweepDelivered => exact hnode _ ⟨rfl, rfl, rfl, rfl⟩
  | tick ms => exact hnode _ ⟨rfl, rfl, rfl, rfl⟩
  | pumpTimer radio => exact hnode _ ⟨rfl, rfl, rfl, rfl⟩
  | txDone airtimeMs random => exact hnode _ ⟨rfl, rfl, rfl, rfl⟩
  | sweepSeen => exact hnode _ ⟨rfl, rfl, rfl, rfl⟩
  | chip call => exact ⟨hsound.congr rfl rfl rfl, hwaiting.congr rfl rfl rfl⟩
  | wallClock system => exact ⟨hsound.congr rfl rfl rfl, hwaiting.congr rfl rfl rfl⟩
  | saveTimer io => exact hwritten _ (messages_onSaveTimer io app.writer app.node)
  | sweep io => exact hwritten (app.writer.flush io app.node).2 (messages_flush io _ _)
  | requestStop io =>
      obtain ⟨hflushed, hknown⟩ :=
        hwritten (app.writer.flush io app.node).2 (messages_flush io _ _)
      have hspeaks : ((app.flush io).2.session []).Speaks
          (((app.flush io).2.session []).step .hangUp) :=
        .of_server (Server.appends_dropClient _)
      exact ⟨hflushed.serve ⟨[.drop], rfl⟩ hspeaks, hknown.withSession hspeaks⟩

theorem sound_start {boot : Boot} (hstart : start boot = some app) : app.Sound ∧ app.Waiting := by
  have hempty : app.server = {} ∧ app.log = [] := by
    rw [start] at hstart
    dsimp only at hstart
    split at hstart
    · cases hstart
    · split at hstart
      · cases hstart
      · obtain rfl := Option.some.inj hstart
        exact ⟨rfl, rfl⟩
  obtain ⟨hserver, hlog⟩ := hempty
  have hnobody : ∀ client, app.server.client ≠ some client := fun client => by
    rw [hserver]
    exact (Option.some_ne_none client).symm
  refine ⟨⟨⟨fun client h => absurd h (hnobody client), fun client _ => ?_, fun client => ?_,
    fun client h => absurd h (hnobody client)⟩, ?_, ?_, ?_,
    fun client h => absurd h (hnobody client)⟩, fun client h => absurd h (hnobody client)⟩
  · rw [hserver]
    exact ⟨rfl, rfl⟩
  · rw [hserver]
    exact List.nil_prefix
  · rw [hserver, hlog]
    rfl
  · rw [hlog]
    intro client frame before hsuffix
    cases List.suffix_nil.mp hsuffix
  · rw [hlog]
    exact fun client hnone => absurd hnone List.not_mem_nil

/-- **Pushes go to connections that introduced themselves, and waiting mail is
announced**: after any run from startup, what was written to a connection was queued
for it, each push behind its own `CMD_APP_START`; and a connected app that has
introduced itself was told of the mail that waits since it did, and since the last
message came in. -/
theorem announces_run (lib : Crypto.Library) (sign : Bytes → Bytes) {boot : Boot}
    (hstart : start boot = some app) (events : List Event) :
    (run (step lib sign) app events).Announces := by
  have hstep : ∀ app event, app.Sound ∧ app.Waiting →
      (step lib sign app event).Sound ∧ (step lib sign app event).Waiting :=
    fun _ event h => sound_step h.1 h.2 event
  obtain ⟨hsound, hwaiting⟩ := run_invariant hstep (sound_start hstart) events
  exact hsound.announces hwaiting

end

/-- The second app has been told. -/
theorem announces_run_sample :
    ∃ app, start sampleBoot = some app ∧
      let after := run (step .transparent SettingsStore.sampleSign) app sampleEvents
      after.server.client = some 1 ∧ .started 1 ∈ after.log ∧ after.node.inbox.messages ≠ [] ∧
        after.Announces := by
  have hrun : (start sampleBoot).any (fun app =>
      let after := run (step .transparent SettingsStore.sampleSign) app sampleEvents
      decide (after.server.client = some 1 ∧ .started 1 ∈ after.log ∧
        after.node.inbox.messages ≠ [])) = true := by decide +kernel
  obtain ⟨app, hstart, hreached⟩ := (Option.any_eq_true _ _).mp hrun
  obtain ⟨hclient, hstarted, hmail⟩ := of_decide_eq_true hreached
  exact ⟨app, hstart, hclient, hstarted, hmail,
    announces_run .transparent SettingsStore.sampleSign hstart sampleEvents⟩

end App

end Coreletd.Daemon
