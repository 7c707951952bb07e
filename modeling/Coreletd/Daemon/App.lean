/-
# The daemon

What runs once `App::start` is through: the session and its server, the node over
its stores, the settings, the radio and the state writer. Answering a command takes
all of them; what the node tells its delegate is pushed to the app.

The log, newest first, is not in the source. It has what happened to the server, and
between these where an app introduced itself and where a message was stored.
-/

import Coreletd.Companion.CleanStream
import Coreletd.Companion.Commands
import Coreletd.Daemon.AcceptedAdverts
import Coreletd.Daemon.LoadState
import Coreletd.Mesh.StateWriter

namespace Coreletd.Daemon

open Coreletd.Companion
open Coreletd.Crypto
open Coreletd.Library
open Coreletd.Mesh
open Coreletd.Proto
open Coreletd.Radio

inductive Happening where
  /-- A connection sent `CMD_APP_START`. -/
  | started (client : Nat)
  /-- The inbox received a message. -/
  | stored
  | server (event : ServerEvent)
  deriving DecidableEq

/-- What a command meets outside the daemon. -/
structure Surroundings extends Applying where
  /-- How the settings are written. -/
  io : SaveIo := {}
  metrics : DeviceMetrics := {}

structure App where
  server : Server := {}
  appStarted : Bool := false
  /-- When a text was last sent for the app. -/
  lastSendMs : Option UInt32 := none
  node : Node
  profile : NodeProfile
  radio : Sx1262
  settings : SettingsStore
  writer : StateWriter := {}
  wall : WallClock
  log : List Happening := []

namespace App

/-! ## The session -/

/-- The session, with what the rest of the daemon answers the frame at hand. -/
def session (app : App) (answers : List (List Bytes)) : Session :=
  { server := app.server, inbox := app.node.inbox, files := app.node.files,
    appStarted := app.appStarted, answers }

/-- The session has become `s`. -/
def withSession (app : App) (s : Session) : App :=
  { app with
    server := s.server
    appStarted := s.appStarted
    node := { app.node with inbox := s.inbox, files := s.files }
    log := (TextSession.gained app.server.trace s.server.trace).map .server ++ app.log }

def serve (app : App) (event : Session.Event) (answers : List (List Bytes)) : App :=
  app.withSession ((app.session answers).step event)

def push (app : App) (payload : Bytes) : App := app.serve (.push payload) []

/-- The deferred write has not happened yet, so this reports how the one before it
went. -/
def savedReply (app : App) : List Bytes × App :=
  let app := { app with writer := app.writer.requestSave }
  ([if app.writer.healthy then respOk else respErr kErrFileIoError], app)

section

variable (lib : Crypto.Library) (sign : Bytes → Bytes) (out : Surroundings)

/-! ## Commands -/

/-- The node's own advert. -/
def buildAdvertPacket (app : App) (flood : Bool) : Option Packet :=
  Mesh.buildAdvertPacket sign app.wall app.node.identity app.profile flood

def sendAdvert (radio : RadioView) (app : App) (flood : Bool) : App :=
  match app.buildAdvertPacket sign flood with
  | none => app
  | some p => { app with node := app.node.transmit lib { radio } p kPriorityAdvert 0 }

/-- A text for a channel carries the sender's name, there being no key to tell it
by. -/
def channelPacket (app : App) (ch : Channel) (text : Bytes) (timestamp : UInt32) : Packet :=
  let msg : TextMessage :=
    { timestamp, txtType := kTxtPlain, text := app.profile.name ++ utf8 ": " ++ text }
  { type := .grpTxt, route := .flood,
    payload := (GroupEnvelope.sealWith lib (ch.hash lib) ch.secret msg.encode).encode }

def sendChannelText (radio : RadioView) (app : App) (channelIndex : Nat) (text : Bytes)
    (timestamp : UInt32) : Bool × App :=
  match app.node.channels.channels[channelIndex]? with
  | none => (false, app)
  | some ch =>
      if !ch.valid then (false, app)
      else
        let (sent, air) := Dispatcher.send ReliableSender.onTxResult lib radio app.node.air
          (app.channelPacket lib ch text timestamp) kPriorityFlood 0 none
        (sent, { app with node := { app.node with air } })

/-- txt_type(1) channel_index(1) timestamp(4) message, of which the type is skipped. -/
def cmdSendChannelTxtMsg (app : App) (args : Bytes) : List Bytes × App :=
  let r := (Reader.ofBytes args).skip 1
  let (channelIndex, r) := r.u8
  let (timestamp, r) := r.u32
  if !r.ok then ([respErr kErrIllegalArg], app)
  else
    match app.sendChannelText lib out.view channelIndex.toNat r.rest.1 timestamp with
    | (false, app) => ([respErr kErrNotFound], app)
    | (true, app) => ([respOk], app)

def cmdSendTxtMsg (app : App) (args : Bytes) : List Bytes × App :=
  let texts : TextSession := { node := app.node, lastSendMs := app.lastSendMs }
  let (answer, texts) := texts.cmdSendTxtMsg lib out.view args
  ([answer], { app with node := texts.node, lastSendMs := texts.lastSendMs })

/-- Flooded unless the first byte says zero-hop. -/
def cmdSendSelfAdvert (app : App) (args : Bytes) : List Bytes × App :=
  ([respOk], app.sendAdvert lib sign out.view (decide (args.head? ≠ some 0)))

/-- The system clock is not ours to step, so the difference to it is kept. -/
def cmdSetDeviceTime (app : App) (args : Bytes) : List Bytes × App :=
  let (appTime, r) := (Reader.ofBytes args).u32
  if !r.ok then ([respErr kErrIllegalArg], app)
  else
    let now : Int := app.wall.unixNow.toNat - app.wall.offset
    ([respOk],
      { app with wall := { app.wall with offset := appTime.toNat - now, corrected := true } })

/-- A command that edits the contacts. -/
def editContacts (app : App) : Except CommandError ContactStore → List Bytes × App
  | .error err => ([respErr err.code], app)
  | .ok contacts => { app with node := { app.node with contacts } }.savedReply

def cmdSetChannel (app : App) (args : Bytes) : List Bytes × App :=
  match readChannel args with
  | none => ([respErr kErrIllegalArg], app)
  | some (index, ch) =>
      { app with node := { app.node with channels := app.node.channels.set index ch } }.savedReply

/-- The settings, attached to what runs. -/
def attached (app : App) : SettingsStore :=
  app.settings.attach { node := app.node, profile := app.profile, radio := app.radio }

/-- What a change of the settings leaves. -/
def withSettings (app : App) (settings : SettingsStore) (files : FileSystem) : App :=
  match settings.running with
  | none => { app with settings }
  | some running =>
      { app with
        settings
        node := { running.node with files }
        profile := running.profile
        radio := running.radio }

def changeSettings (app : App) : Requested → List Bytes × App
  | none => ([respErr kErrIllegalArg], app)
  | some changes =>
      let (result, settings, files) := app.attached.set out.io out.toApplying app.node.files changes
      ([settingsReply result], app.withSettings settings files)

/-- A message that is collected stops being queued on disk too, at the next save. -/
def noteCollected (app : App) : App :=
  if app.node.inbox.messages = [] then app else { app with writer := app.writer.requestSave }

/-- Introduce an app to the node. -/
def introduce (app : App) : App :=
  match app.server.client with
  | none => app
  | some client => { app with log := .started client :: app.log }

/-- What the rest of the daemon makes of a command, and what it answers. The session
itself answers the others. -/
def command (app : App) (cmd : UInt8) (args : Bytes) : List Bytes × App :=
  if cmd = kCmdAppStart then
    ([selfInfoFrame app.node.identity app.profile app.radio.params], app.introduce)
  else if cmd = kCmdDeviceQuery then ([deviceInfoFrame out.metrics app.node.cfg.relay], app)
  else if cmd = kCmdGetDeviceTime then ([[kRespCurrTime] ++ putU32 app.wall.unixNow], app)
  else if cmd = kCmdSetDeviceTime then app.cmdSetDeviceTime args
  else if cmd = kCmdSendSelfAdvert then app.cmdSendSelfAdvert lib sign out args
  else if cmd = kCmdSetAdvertName then app.changeSettings out (cmdSetAdvertName args)
  else if cmd = kCmdSetAdvertLatLon then app.changeSettings out (cmdSetAdvertLatLon args)
  else if cmd = kCmdGetContacts then (cmdGetContacts app.node.contacts args, app)
  else if cmd = kCmdGetContactByKey then ([cmdGetContactByKey app.node.contacts args], app)
  else if cmd = kCmdAddUpdateContact then
    app.editContacts (cmdAddUpdateContact app.node.contacts args)
  else if cmd = kCmdRemoveContact then app.editContacts (cmdRemoveContact app.node.contacts args)
  else if cmd = kCmdResetPath then app.editContacts (cmdResetPath app.node.contacts args)
  else if cmd = kCmdShareContact ∨ cmd = kCmdExportContact then
    ([cmdExportContact (app.buildAdvertPacket sign true) args], app)
  else if cmd = kCmdSendTxtMsg then app.cmdSendTxtMsg lib out args
  else if cmd = kCmdSendChannelTxtMsg then app.cmdSendChannelTxtMsg lib out args
  else if cmd = kCmdSyncNextMessage then ([], app.noteCollected)
  else if cmd = kCmdGetChannel then ([cmdGetChannel app.node.channels args], app)
  else if cmd = kCmdSetChannel then app.cmdSetChannel args
  else if cmd = kCmdGetBatteryVoltage then ([batteryFrame out.metrics], app)
  else if cmd = kCmdSetRadioParams then app.changeSettings out (cmdSetRadioParams args)
  else if cmd = kCmdSetRadioTxPower then app.changeSettings out (cmdSetTxPower args)
  else if cmd = kCmdSetTuningParams then app.changeSettings out (cmdSetTuningParams args)
  else if cmd = kCmdGetTuningParams then ([tuningFrame app.radio.params], app)
  else ([], app)

/-- One turn of the dispatch loop. -/
def dispatchOne (app : App) : App :=
  match (app.session []).nextFrame with
  | some (cmd :: args) =>
      let (answers, app) := app.command lib sign out cmd args
      app.serve .frame [answers]
  | _ => app.serve .frame []

end

/-! ## Pushes -/

/-- The packet as it was heard, with how well. -/
def rawRxPush (p : Packet) (raw : Bytes) : Bytes :=
  [kPushLogRxData, (Node.clampSnr p).toUInt8,
    (Int8.ofInt (max (-128) (min 127 p.rssi))).toUInt8] ++ raw

/-- Every packet that decodes, duplicates included. -/
def onRawRx (app : App) (raw : Bytes) (rssi snrQ4 : Int) : App :=
  match Packet.decode raw with
  | none => app
  | some p => app.push (rawRxPush { p with rssi, snrQ4 } raw)

def onAckPush (app : App) (ackHash : Bytes) : Bytes :=
  let texts : TextSession := { node := app.node, lastSendMs := app.lastSendMs }
  texts.ackPush ackHash

/-- What the node tells its delegate. -/
def onNotice (app : App) : Notice → App
  | .contactChanged pubkey isNew =>
      let app := if isNew then app.push ([kPushNewAdvert] ++ pubkey) else app
      -- the contact changed whoever is listening
      { app with writer := app.writer.requestSave }
  | .messageStored => { app with log := .stored :: app.log }.push [kPushMsgWaiting]
  | .ack ackHash => app.push (app.onAckPush ackHash)
  | .advertSeen pubkey => app.push ([kPushAdvert] ++ pubkey)
  | .pathUpdated pubkey => app.push ([kPushPathUpdated] ++ pubkey)

/-- A reception, at the wall clock's time. -/
def received (lib : Crypto.Library) (app : App) (raw : Bytes) (rssi snrQ4 : Int) (m : Moment) :
    App :=
  let app := app.onRawRx raw rssi snrQ4
  let node := app.node.receive lib raw rssi snrQ4 { m with unixNow := app.wall.unixNow }
  let told := (TextSession.gained app.node.notices node.notices).reverse
  told.foldl onNotice { app with node }

/-! ## Runs -/

/-- What happens to the daemon. -/
inductive Event where
  /-- A connection, and whether it could be made non-blocking. -/
  | accept (nonblocking : Bool)
  /-- Bytes read from the client. -/
  | feed (bytes : Bytes)
  /-- One turn of the dispatch loop. -/
  | frame (out : Surroundings)
  | writable
  | hangUp
  /-- How the next writes to the client will go. -/
  | kernel (results : List WriteResult)
  | received (raw : Bytes) (rssi snrQ4 : Int) (m : Moment)
  /-- The retry timer of a text. -/
  | retry (id : Nat) (radio : RadioView)
  | advertTimer (radio : RadioView)
  | sweepDelivered
  /-- Time passes. -/
  | tick (ms : Nat)
  | pumpTimer (radio : RadioView)
  | txDone (airtimeMs : UInt32) (random : UInt8)
  | sweepSeen
  /-- The radio's own interrupts and timers. -/
  | chip (call : Sx1262.Event × List Reply)
  /-- What the system's clock shows. -/
  | wallClock (system : Int)
  | saveTimer (io : FlushIo)
  | sweep (io : FlushIo)
  | requestStop (io : FlushIo)

/-- The node and the writer behind one of the writer's callbacks. -/
def written (app : App) (saved : StateWriter × Node) : App :=
  { app with writer := saved.1, node := saved.2 }

def flush (io : FlushIo) (app : App) : Bool × App :=
  let (ok, saved) := app.writer.flush io app.node
  (ok, app.written saved)

def onNode (lib : Crypto.Library) (app : App) (event : Node.Event) : App :=
  { app with node := app.node.step lib event }

def step (lib : Crypto.Library) (sign : Bytes → Bytes) (app : App) : Event → App
  | .accept nonblocking => app.serve (.accept nonblocking) []
  | .feed bytes => if app.server.connected then app.serve (.feed bytes) [] else app
  | .frame out => app.dispatchOne lib sign out
  | .writable => app.serve .writable []
  | .hangUp => app.serve .hangUp []
  | .kernel results => app.serve (.outside results []) []
  | .received raw rssi snrQ4 m => app.received lib raw rssi snrQ4 m
  | .retry id radio => app.onNode lib (.retry id radio)
  | .advertTimer radio => app.sendAdvert lib sign radio true
  | .sweepDelivered => app.onNode lib .sweepDelivered
  | .tick ms => app.onNode lib (.dispatcher (.tick ms))
  | .pumpTimer radio => app.onNode lib (.dispatcher (.pumpTimer radio))
  | .txDone airtimeMs random => app.onNode lib (.dispatcher (.txDone airtimeMs random))
  | .sweepSeen => app.onNode lib (.dispatcher .sweep)
  | .chip call => { app with radio := app.radio.step call }
  | .wallClock system => { app with wall := { app.wall with system } }
  | .saveTimer io => app.written (app.writer.onSaveTimer io app.node)
  | .sweep io => (app.flush io).2
  -- nothing is left to connect to
  | .requestStop io => (app.flush io).2.serve .hangUp []

/-! ## Startup -/

end App

def Config.contactsPath (cfg : Config) : Bytes := cfg.stateDir ++ utf8 "/contacts"

def Config.channelsPath (cfg : Config) : Bytes := cfg.stateDir ++ utf8 "/channels"

def Config.messagesPath (cfg : Config) : Bytes := cfg.stateDir ++ utf8 "/messages"

/-- What `App::start` meets: the config file's part of the config, the node's key, the
state directory, the wall clock at each quarantine, and the radio's pins and replies. -/
structure Boot where
  cfg : Config
  self : LocalIdentity
  files : FileSystem
  contactsClock : Nat × Nat := (0, 0)
  channelsClock : Nat × Nat := (0, 0)
  messagesClock : Nat × Nat := (0, 0)
  pins : Pins := {}
  retryIntervalMs : UInt32 := 0
  replies : List Reply := []
  queueLimit : Nat := 64
  messageLimit : Nat := 256
  pendingLimit : Nat := 64
  time : Nat := 0
  wall : WallClock

namespace App

/-- `App::start`, with no read error at any load. It gives up over settings it cannot
use and over a radio that does not begin. -/
def start (boot : Boot) : Option App :=
  let cfg := boot.cfg.named boot.self
  match (SettingsStore.make cfg).load boot.files with
  | .error _ => none
  | .ok settings =>
      let cfg := settings.cfg
      let (_, contacts, files) :=
        loadState (fun badAfter (s : ContactStore) fs => s.load fs badAfter) cfg.contactsPath
          (none, none) boot.contactsClock { path := cfg.contactsPath } boot.files
      let (_, channels, files) :=
        loadState (fun badAfter (s : ChannelStore) fs => s.load fs badAfter) cfg.channelsPath
          (none, none) boot.channelsClock { path := cfg.channelsPath } files
      match Sx1262.start
          { Sx1262.new cfg.radio boot.pins boot.retryIntervalMs boot.time with
            script := boot.replies } with
      | (.error _, _) => none
      | (.ok (), radio) =>
          let (_, inbox, files) :=
            loadState (fun badAfter (s : MessageInbox) fs => s.load fs badAfter) cfg.messagesPath
              (none, none) boot.messagesClock
              { path := cfg.messagesPath, limit := boot.messageLimit } files
          let node := Node.new cfg.radio.dutyCyclePct boot.queueLimit boot.pendingLimit boot.self
            contacts boot.time cfg.node channels inbox files
          some { node, profile := cfg.profile, radio, settings, wall := boot.wall }

end App

end Coreletd.Daemon
