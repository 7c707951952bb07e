/-
# What a command can do

A command may write to the contacts and the channels, which flags them, and to the
settings file; the inbox, the connection and the log it leaves to the session. What
it is answered with is never a push.
-/

import Coreletd.Companion.Pushes
import Coreletd.Daemon.App
import Coreletd.Mesh.StoreChanges

namespace Coreletd.Daemon

open Coreletd.Companion
open Coreletd.Crypto
open Coreletd.Library
open Coreletd.Mesh
open Coreletd.Proto
open Coreletd.Radio

namespace App

/-- What the daemon does beside the session and the reception of packets. -/
structure Alters (app app' : App) : Prop where
  server : app'.server = app.server
  appStarted : app'.appStarted = app.appStarted
  log : app'.log = app.log
  contacts : app.node.contacts.Written app'.node.contacts
  channels : app.node.channels.Written app'.node.channels
  inbox : app'.node.inbox = app.node.inbox
  settingsPath : app'.settings.path = app.settings.path
  files : ∀ name, ¬ app.settings.path <+: name → app'.node.files name = app.node.files name

variable {app app' app'' : App}

theorem Alters.refl (app : App) : Alters app app :=
  ⟨rfl, rfl, rfl, .refl _, .refl _, rfl, rfl, fun _ _ => rfl⟩

theorem Alters.trans (hfirst : Alters app app') (hsecond : Alters app' app'') :
    Alters app app'' where
  server := hsecond.server.trans hfirst.server
  appStarted := hsecond.appStarted.trans hfirst.appStarted
  log := hsecond.log.trans hfirst.log
  contacts := hfirst.contacts.trans hsecond.contacts
  channels := hfirst.channels.trans hsecond.channels
  inbox := hsecond.inbox.trans hfirst.inbox
  settingsPath := hsecond.settingsPath.trans hfirst.settingsPath
  files name hname :=
    (hsecond.files name (by rwa [hfirst.settingsPath])).trans (hfirst.files name hname)

/-- Only what is on its way to the air has changed. -/
theorem alters_air (app : App) (air : Air) :
    Alters app { app with node := { app.node with air } } :=
  ⟨rfl, rfl, rfl, .refl _, .refl _, rfl, rfl, fun _ _ => rfl⟩

section

variable {lib : Crypto.Library} {sign : Bytes → Bytes} {out : Surroundings}

theorem alters_sendAdvert (app : App) (radio : RadioView) (flood : Bool) :
    Alters app (app.sendAdvert lib sign radio flood) := by
  rw [sendAdvert]
  split
  · exact .refl app
  · exact app.alters_air _

theorem alters_sendChannelText (app : App) (radio : RadioView) (channelIndex : Nat)
    (text : Bytes) (timestamp : UInt32) :
    Alters app (app.sendChannelText lib radio channelIndex text timestamp).2 := by
  rw [sendChannelText]
  split
  · exact .refl app
  · split
    · exact .refl app
    · exact app.alters_air _

/-! ## The commands -/

/-- What a command answers and leaves. -/
structure Commanded (app : App) (result : List Bytes × App) : Prop where
  quiet : ∀ answer ∈ result.1, Quiet answer
  alters : Alters app result.2

theorem Commanded.ite {condition : Prop} [Decidable condition] {first second : List Bytes × App}
    (hfirst : Commanded app first) (hsecond : Commanded app second) :
    Commanded app (if condition then first else second) := by
  split
  · exact hfirst
  · exact hsecond

/-- One answer, with a code of its own. -/
theorem Commanded.answer (halters : Alters app app') {code : UInt8} (hcode : code < kFirstPush)
    (rest : Bytes) : Commanded app ([code :: rest], app') :=
  ⟨by simpa using quiet_cons hcode rest, halters⟩

theorem Commanded.error (halters : Alters app app') (code : UInt8) :
    Commanded app ([respErr code], app') := .answer halters (by decide) _

theorem Commanded.ok (halters : Alters app app') : Commanded app ([respOk], app') :=
  .answer halters (by decide) _

theorem commanded_savedReply (halters : Alters app app') : Commanded app app'.savedReply := by
  rw [savedReply]
  refine ⟨?_, halters.trans ⟨rfl, rfl, rfl, .refl _, .refl _, rfl, rfl, fun _ _ => rfl⟩⟩
  rintro _ ⟨⟩
  · split <;> exact quiet_cons (by decide) _
  next hmem => cases hmem

theorem commanded_cmdSendChannelTxtMsg (app : App) (args : Bytes) :
    Commanded app (app.cmdSendChannelTxtMsg lib out args) := by
  rw [cmdSendChannelTxtMsg]
  dsimp only
  split
  · exact .error (.refl app) _
  · generalize hsend : app.sendChannelText lib out.view _ _ _ = result
    have hsent : Alters app result.2 := hsend ▸ app.alters_sendChannelText _ _ _ _
    rcases result with ⟨_ | _, app'⟩
    · exact .error hsent _
    · exact .ok hsent

theorem commanded_cmdSendTxtMsg (app : App) (args : Bytes) :
    Commanded app (app.cmdSendTxtMsg lib out args) := by
  have hnode : ∀ air lastSendMs,
      Alters app { app with node := { app.node with air }, lastSendMs } := fun air lastSendMs =>
    ⟨rfl, rfl, rfl, .refl _, .refl _, rfl, rfl, fun _ _ => rfl⟩
  rw [cmdSendTxtMsg]
  dsimp only
  rw [TextSession.cmdSendTxtMsg]
  split
  · exact .error (hnode app.node.air app.lastSendMs) _
  · dsimp only
    split
    · exact .error (hnode app.node.air app.lastSendMs) _
    · split
      · exact .error (hnode _ app.lastSendMs) _
      · exact .answer (hnode _ _) (by decide) _

theorem commanded_cmdSetDeviceTime (app : App) (args : Bytes) :
    Commanded app (app.cmdSetDeviceTime args) := by
  rw [cmdSetDeviceTime]
  dsimp only
  split
  · exact .error (.refl app) _
  · exact .ok ⟨rfl, rfl, rfl, .refl _, .refl _, rfl, rfl, fun _ _ => rfl⟩

theorem commanded_editContacts (app : App) {result : Except CommandError ContactStore}
    (hresult : ∀ contacts, result = .ok contacts → app.node.contacts.Written contacts) :
    Commanded app (app.editContacts result) := by
  cases result with
  | error err => exact .error (.refl app) _
  | ok contacts =>
      exact commanded_savedReply
        ⟨rfl, rfl, rfl, hresult contacts rfl, .refl _, rfl, rfl, fun _ _ => rfl⟩

theorem written_cmdAddUpdateContact {s s' : ContactStore} {args : Bytes}
    (hok : cmdAddUpdateContact s args = .ok s') : s.Written s' := by
  refine cmdAddUpdateContact_keeps s.Written hok (.refl s) ?_ ?_ ?_ ?_ ?_
  · exact fun _ _ _ _ hs hupsert => hs.trans (ContactStore.written_upsert hupsert)
  · exact fun _ _ _ _ hs => hs.trans (ContactStore.written_modify _ _ _)
  · exact fun _ _ hs => hs.trans (ContactStore.written_clearPath _ _)
  · exact fun _ _ _ _ _ hs => hs.trans (ContactStore.written_setPath _ _ _)
  · exact fun _ _ hs => hs.trans (ContactStore.written_modify _ _ _)

theorem written_cmdRemoveContact {s s' : ContactStore} {args : Bytes}
    (hok : cmdRemoveContact s args = .ok s') : s.Written s' := by
  rw [cmdRemoveContact] at hok
  dsimp only at hok
  split at hok
  · cases hok
  · split at hok
    · cases hok
    next hremove =>
      obtain rfl := Except.ok.inj hok
      exact ContactStore.written_remove hremove

theorem written_cmdResetPath {s s' : ContactStore} {args : Bytes}
    (hok : cmdResetPath s args = .ok s') : s.Written s' := by
  rw [cmdResetPath] at hok
  dsimp only at hok
  split at hok
  · cases hok
  · split at hok
    · cases hok
    · obtain rfl := Except.ok.inj hok
      exact s.written_clearPath _

theorem commanded_cmdSetChannel (app : App) (args : Bytes) :
    Commanded app (app.cmdSetChannel args) := by
  rw [cmdSetChannel]
  split
  · exact .error (.refl app) _
  · exact commanded_savedReply
      ⟨rfl, rfl, rfl, .refl _, ChannelStore.written_set _ _ _, rfl, rfl, fun _ _ => rfl⟩

/-- A change of the settings leaves the node its stores, and writes to one file only. -/
theorem commanded_changeSettings (app : App) (requested : Requested) :
    Commanded app (app.changeSettings out requested) := by
  cases requested with
  | none => exact .error (.refl app) _
  | some changes =>
      have hreply : ∀ result, Quiet (settingsReply result) := fun result => by
        cases result <;> exact quiet_cons (by decide) _
      have hother : ∀ {content : Bytes} {written : Bool} {files : FileSystem},
          saveContent out.io app.node.files app.attached.path content false = (written, files) →
          ∀ name, ¬ app.settings.path <+: name → files name = app.node.files name :=
        fun {content _ _} hsaved name hname =>
          (congrFun (congrArg Prod.snd hsaved) name).symm.trans
            (saveContent_other out.io app.node.files hname content false)
      rw [changeSettings]
      rcases app.attached.set_cases out.io out.toApplying app.node.files changes with
        ⟨-, hset⟩ | ⟨next, stored, -, ⟨files, hsaved, hset⟩ | ⟨files, hsaved, hset⟩⟩
      all_goals
        rw [hset]
        refine ⟨fun answer hanswer => List.mem_singleton.mp hanswer ▸ hreply _, ?_⟩
      · exact ⟨rfl, rfl, rfl, .refl _, .refl _, rfl, rfl, fun _ _ => rfl⟩
      · exact ⟨rfl, rfl, rfl, .refl _, .refl _, rfl, rfl, hother hsaved⟩
      · exact ⟨rfl, rfl, rfl, .refl _, .refl _, rfl, rfl, hother hsaved⟩

theorem quiet_contactFrame (c : Contact) : Quiet (contactFrame kRespContact c) :=
  quiet_cons (by decide) _

theorem quiet_cmdGetContacts (s : ContactStore) (args : Bytes) :
    ∀ answer ∈ cmdGetContacts s args, Quiet answer := by
  intro answer hanswer
  rcases List.mem_append.mp hanswer with hfirst | hend
  · rcases List.mem_append.mp hfirst with hstart | hcontact
    · obtain rfl := List.mem_singleton.mp hstart
      exact quiet_cons (by decide) _
    · obtain ⟨c, -, rfl⟩ := List.mem_map.mp hcontact
      exact quiet_contactFrame c
  · obtain rfl := List.mem_singleton.mp hend
    exact quiet_cons (by decide) _

/-- A command that only reports. -/
theorem Commanded.report (app : App) {answer : Bytes} (hquiet : Quiet answer) :
    Commanded app ([answer], app) := ⟨by simpa using hquiet, .refl app⟩

theorem quiet_cmdGetContactByKey (s : ContactStore) (args : Bytes) :
    Quiet (cmdGetContactByKey s args) := by
  rw [cmdGetContactByKey]
  dsimp only
  split
  · exact quiet_cons (by decide) _
  · split
    · exact quiet_cons (by decide) _
    · exact quiet_contactFrame _

theorem quiet_cmdExportContact (advert : Option Packet) (args : Bytes) :
    Quiet (cmdExportContact advert args) := by
  unfold cmdExportContact
  split
  · exact quiet_cons (by decide) _
  · split <;> exact quiet_cons (by decide) _

theorem quiet_cmdGetChannel (s : ChannelStore) (args : Bytes) : Quiet (cmdGetChannel s args) := by
  rw [cmdGetChannel]
  dsimp only
  split
  · exact quiet_cons (by decide) _
  · split <;> exact quiet_cons (by decide) _

theorem commanded_noteCollected (app : App) : Commanded app ([], app.noteCollected) := by
  refine ⟨by simp, ?_⟩
  rw [noteCollected]
  split
  · exact .refl app
  · exact ⟨rfl, rfl, rfl, .refl _, .refl _, rfl, rfl, fun _ _ => rfl⟩

/-- Whatever the command, but for an introduction. -/
theorem commanded_command (app : App) {cmd : UInt8} (hcmd : cmd ≠ kCmdAppStart) (args : Bytes) :
    Commanded app (app.command lib sign out cmd args) := by
  rw [command, if_neg hcmd]
  refine .ite (.report app (quiet_cons (by decide) _)) ?_
  refine .ite (.report app (quiet_cons (by decide) _)) ?_
  refine .ite (app.commanded_cmdSetDeviceTime args) ?_
  refine .ite (.ok (app.alters_sendAdvert _ _)) ?_
  refine .ite (app.commanded_changeSettings _) ?_
  refine .ite (app.commanded_changeSettings _) ?_
  refine .ite (⟨quiet_cmdGetContacts _ args, .refl app⟩) ?_
  refine .ite (.report app (quiet_cmdGetContactByKey _ args)) ?_
  refine .ite (app.commanded_editContacts fun _ => written_cmdAddUpdateContact) ?_
  refine .ite (app.commanded_editContacts fun _ => written_cmdRemoveContact) ?_
  refine .ite (app.commanded_editContacts fun _ => written_cmdResetPath) ?_
  refine .ite (.report app (quiet_cmdExportContact _ args)) ?_
  refine .ite (app.commanded_cmdSendTxtMsg args) ?_
  refine .ite (app.commanded_cmdSendChannelTxtMsg args) ?_
  refine .ite (app.commanded_noteCollected) ?_
  refine .ite (.report app (quiet_cmdGetChannel _ args)) ?_
  refine .ite (app.commanded_cmdSetChannel args) ?_
  refine .ite (.report app (quiet_cons (by decide) _)) ?_
  refine .ite (app.commanded_changeSettings _) ?_
  refine .ite (app.commanded_changeSettings _) ?_
  refine .ite (app.commanded_changeSettings _) ?_
  refine .ite (.report app (quiet_cons (by decide) _)) ?_
  exact ⟨by simp, .refl app⟩

/-- An introduction is logged, and answered with what the node says of itself. -/
theorem command_appStart (app : App) (args : Bytes) :
    app.command lib sign out kCmdAppStart args =
      ([selfInfoFrame app.node.identity app.profile app.radio.params], app.introduce) := by
  rw [command, if_pos rfl]

/-! ## The dispatch loop -/

variable (lib sign out) in
theorem dispatchOne_command {cmd : UInt8} {args : Bytes}
    (hframe : (app.session []).nextFrame = some (cmd :: args)) :
    app.dispatchOne lib sign out =
      (app.command lib sign out cmd args).2.serve .frame
        [(app.command lib sign out cmd args).1] := by
  rw [dispatchOne, hframe]

variable (lib sign out) in
theorem dispatchOne_idle
    (hframe : ∀ cmd args, (app.session []).nextFrame ≠ some (cmd :: args)) :
    app.dispatchOne lib sign out = app.serve .frame [] := by
  rw [dispatchOne]
  split
  next hcommand => exact absurd hcommand (hframe _ _)
  next => rfl

/-- The next frame is the server's alone. -/
theorem nextFrame_session (hserver : app'.server = app.server) (answers : List (List Bytes)) :
    (app'.session answers).nextFrame = (app.session []).nextFrame := by
  show (if app'.server.connected then app'.server.reader.next.1 else none) = _
  rw [hserver]
  rfl

/-! ## The node's own events -/

/-- The node's timers and its dispatcher's leave the stores alone. -/
theorem alters_onNode (app : App) {event : Node.Event}
    (hnode : (app.node.step lib event).contacts = app.node.contacts ∧
      (app.node.step lib event).channels = app.node.channels ∧
      (app.node.step lib event).inbox = app.node.inbox ∧
      (app.node.step lib event).files = app.node.files) : Alters app (app.onNode lib event) := by
  obtain ⟨hcontacts, hchannels, hinbox, hfiles⟩ := hnode
  exact ⟨rfl, rfl, rfl, .inl hcontacts, .inl hchannels, hinbox, rfl,
    fun name _ => congrFun hfiles name⟩

end

/-! ## A day of a daemon -/

/-- A first start, with no radio set up. -/
def sampleBoot : Boot where
  cfg := { stateDir := utf8 "/var/lib/coreletd" }
  self := SettingsStore.sampleIdentity
  files _ := none
  wall := { system := 1750000000 }

def sampleChannel : Channel := { name := utf8 "hut", secret := List.replicate 16 7 }

/-- What is heard when someone writes on the channel. -/
def sampleGroupText : Packet :=
  let msg : TextMessage :=
    { timestamp := 1750000000, txtType := kTxtPlain, text := utf8 "ridge: snow" }
  { type := .grpTxt, route := .flood,
    payload := (GroupEnvelope.sealWith .transparent (sampleChannel.hash .transparent)
      sampleChannel.secret msg.encode).encode }

/-- An app sets the channel and leaves, a text comes in, and another app introduces
itself. -/
def sampleEvents : List Event :=
  let setChannel := [kCmdSetChannel, 0] ++ putPadded sampleChannel.name kChannelNameField ++
    sampleChannel.secret
  [.accept true, .feed (frameResponse setChannel), .frame { view := .down }, .hangUp,
    .received sampleGroupText.encode (-80) 20 { radio := .down },
    .accept true, .feed (frameResponse [kCmdAppStart]), .frame { view := .down }]

end App

end Coreletd.Daemon
