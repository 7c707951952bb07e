/-
# A clear flag means saved

Each step of the daemon may do three things to a store and its file: flag the store,
save it, or leave both alone. The four files of the state directory have names of
which none begins another, so what is written to one store's file, or to the
settings', leaves those of the others. With what `load_state` leaves at startup, the
flags can be believed in every state the daemon reaches.
-/

import Coreletd.Daemon.AppSteps
import Coreletd.Daemon.StateStores

namespace Coreletd.Daemon

open Coreletd.Companion
open Coreletd.Library
open Coreletd.Mesh

namespace StateStore

variable {σ : Type} {P : StateStore σ} {s s' : σ} {path : Bytes} {fs fs' : FileSystem}

/-- A store that is at its place, while what is there stays. -/
theorem Keeps.of_place (hpath : P.path s = path) (hfile : fs' path = fs path) :
    P.Keeps s fs s fs' := .of_eq (hpath.symm ▸ hfile)

/-- What is flagged is kept, as long as nobody writes to the file. -/
theorem Keeps.of_flagged (hpath : P.path s = path) (hflagged : Flagged P.dirty P.path s s')
    (hfile : fs' path = fs path) : P.Keeps s fs s' fs' := by
  rcases hflagged with rfl | ⟨hdirty, hplace⟩
  · exact .of_place hpath hfile
  · exact .of_dirty hplace hdirty

end StateStore

/-- Names in the state directory of which none begins the other. -/
theorem Config.apart (cfg : Config) {name other : Bytes} (hname : ¬ name <+: other) :
    ¬ cfg.stateDir ++ name <+: cfg.stateDir ++ other :=
  (List.prefix_append_right_inj cfg.stateDir).not.mpr hname

/-- A store's part of a flush leaves the other names of the state directory alone. -/
theorem Config.flushed_elsewhere (cfg : Config) {σ : Type} {P : StateStore σ} {s : σ}
    {place name : Bytes} (hpath : P.path s = cfg.stateDir ++ place) (hname : ¬ place <+: name)
    (io : SaveIo) (fs : FileSystem) :
    (P.flushed io s fs).2.2 (cfg.stateDir ++ name) = fs (cfg.stateDir ++ name) := by
  refine P.flushed_other io s fs ?_
  rw [hpath]
  exact cfg.apart hname

/-! ## The inbox -/

/-- To store a message is to flag the inbox and save it. -/
theorem keeps_mailStep (io : SaveIo) {mail : MessageInbox × FileSystem}
    (hpath : mail.1.path ≠ []) (msg : StoredMessage) :
    inboxStates.Keeps mail.1 mail.2 (mailStep io mail msg).1 (mailStep io mail msg).2 ∧
      ∀ name, ¬ mail.1.path <+: name → (mailStep io mail msg).2 name = mail.2 name := by
  have hsave : ∀ q : MessageInbox, q.path = mail.1.path → q.dirty = true →
      inboxStates.Keeps mail.1 mail.2 (q.save io mail.2).2.1 (q.save io mail.2).2.2 ∧
        ∀ name, ¬ mail.1.path <+: name → (q.save io mail.2).2.2 name = mail.2 name := by
    intro q hplace hdirty
    have hflagged : inboxStates.Keeps mail.1 mail.2 q mail.2 := .of_dirty hplace hdirty
    exact ⟨hflagged.trans (inboxStates.keeps_save io q mail.2 hdirty), fun name hname =>
      inboxStates.save_other io q mail.2 (show ¬ q.path <+: name by rwa [hplace])⟩
  rw [mailStep, MessageInbox.store, if_neg hpath]
  exact hsave _ rfl rfl

theorem keeps_stored (io : SaveIo) {q : MessageInbox} (hpath : q.path ≠ []) (fs : FileSystem)
    (msgs : List StoredMessage) :
    let mail := run (mailStep io) (q, fs) msgs
    inboxStates.Keeps q fs mail.1 mail.2 ∧ ∀ name, ¬ q.path <+: name → mail.2 name = fs name := by
  have hstep : ∀ (mail : MessageInbox × FileSystem) msg,
      (inboxStates.Keeps q fs mail.1 mail.2 ∧ ∀ name, ¬ q.path <+: name → mail.2 name = fs name) →
      (inboxStates.Keeps q fs (mailStep io mail msg).1 (mailStep io mail msg).2 ∧
        ∀ name, ¬ q.path <+: name → (mailStep io mail msg).2 name = fs name) := by
    rintro mail msg ⟨hkeeps, hother⟩
    have hplace : mail.1.path = q.path := hkeeps.1
    obtain ⟨hstored, hother'⟩ := keeps_mailStep io (hplace.symm ▸ hpath) msg
    exact ⟨hkeeps.trans hstored, fun name hname =>
      (hother' name (hplace.symm ▸ hname)).trans (hother name hname)⟩
  exact run_invariant hstep ⟨.of_eq rfl, fun _ _ => rfl⟩ msgs

/-! ## A step -/

namespace App

/-- Each store and the settings at their own place in the state directory. -/
structure Placed (cfg : Config) (app : App) : Prop where
  contacts : app.node.contacts.path = cfg.contactsPath
  channels : app.node.channels.path = cfg.channelsPath
  inbox : app.node.inbox.path = cfg.messagesPath
  settings : app.settings.path = cfg.settingsPath

/-- What the daemon may do to its stores. -/
structure Keeps (app app' : App) : Prop where
  contacts : contactStates.Keeps app.node.contacts app.node.files
    app'.node.contacts app'.node.files
  channels : channelStates.Keeps app.node.channels app.node.files
    app'.node.channels app'.node.files
  inbox : inboxStates.Keeps app.node.inbox app.node.files app'.node.inbox app'.node.files
  settings : app'.settings.path = app.settings.path

variable {cfg : Config} {app app' app'' : App}

theorem Keeps.of_eq (hcontacts : app'.node.contacts = app.node.contacts)
    (hchannels : app'.node.channels = app.node.channels)
    (hinbox : app'.node.inbox = app.node.inbox) (hfiles : app'.node.files = app.node.files)
    (hsettings : app'.settings.path = app.settings.path) : Keeps app app' := by
  refine ⟨?_, ?_, ?_, hsettings⟩
  · rw [hcontacts, hfiles]
    exact .of_eq rfl
  · rw [hchannels, hfiles]
    exact .of_eq rfl
  · rw [hinbox, hfiles]
    exact .of_eq rfl

theorem Keeps.refl (app : App) : Keeps app app := .of_eq rfl rfl rfl rfl rfl

theorem Keeps.trans (hfirst : Keeps app app') (hsecond : Keeps app' app'') : Keeps app app'' where
  contacts := hfirst.contacts.trans hsecond.contacts
  channels := hfirst.channels.trans hsecond.channels
  inbox := hfirst.inbox.trans hsecond.inbox
  settings := hsecond.settings.trans hfirst.settings

theorem Placed.keeps (hplaced : Placed cfg app) (hkeeps : Keeps app app') : Placed cfg app' where
  contacts := hkeeps.contacts.1.trans hplaced.contacts
  channels := hkeeps.channels.1.trans hplaced.channels
  inbox := hkeeps.inbox.1.trans hplaced.inbox
  settings := hkeeps.settings.trans hplaced.settings

/-- Commands and timers flag what they change, and write to the settings file only. -/
theorem Placed.keeps_alters (hplaced : Placed cfg app) (halters : Alters app app') :
    Keeps app app' := by
  have hsettings : ∀ {name : Bytes}, ¬ utf8 "/settings" <+: name →
      app'.node.files (cfg.stateDir ++ name) = app.node.files (cfg.stateDir ++ name) :=
    fun hname => halters.files _ (by
      rw [hplaced.settings]
      exact cfg.apart hname)
  refine ⟨?_, ?_, ?_, halters.settingsPath⟩
  · exact .of_flagged hplaced.contacts halters.contacts (hsettings (by decide +kernel))
  · exact .of_flagged hplaced.channels halters.channels (hsettings (by decide +kernel))
  · rw [halters.inbox]
    exact .of_place hplaced.inbox (hsettings (by decide +kernel))

/-! ## The session -/

/-- The session has its hands on the inbox only. -/
theorem keeps_withSession {s : Session} (hinbox : app.node.inbox.Written s.inbox)
    (hfiles : s.files = app.node.files) : Keeps app (app.withSession s) :=
  ⟨.of_eq (congrFun hfiles _), .of_eq (congrFun hfiles _),
    .of_flagged rfl hinbox (congrFun hfiles _), rfl⟩

theorem keeps_push (app : App) (payload : Bytes) : Keeps app (app.push payload) :=
  keeps_withSession (.inl (Session.push_inbox _ payload)) (Session.push_files _ payload)

/-- The dispatch loop takes the oldest message, or none. -/
theorem written_dispatchOne (s : Session) : s.inbox.Written s.dispatchOne.2.inbox := by
  by_cases hsync : ∃ args, s.nextFrame = some (kCmdSyncNextMessage :: args)
  · obtain ⟨args, hframe⟩ := hsync
    obtain ⟨-, -, hpopped, -⟩ := Session.dispatchOne_sync hframe
    rw [hpopped]
    exact s.inbox.written_pop
  · exact .inl (Session.dispatchOne_inbox fun args hframe => hsync ⟨args, hframe⟩)

theorem keeps_frame (app : App) (answers : List (List Bytes)) :
    Keeps app (app.serve .frame answers) :=
  keeps_withSession (written_dispatchOne _) (Session.dispatchOne_files _)

section

variable {lib : Crypto.Library} {sign : Bytes → Bytes}

theorem Placed.keeps_command (hplaced : Placed cfg app) (out : Surroundings) (cmd : UInt8)
    (args : Bytes) : Keeps app (app.command lib sign out cmd args).2 := by
  by_cases hcmd : cmd = kCmdAppStart
  · rw [hcmd, command_appStart]
    show Keeps app app.introduce
    rw [introduce]
    split
    · exact .refl app
    · exact .of_eq rfl rfl rfl rfl rfl
  · exact hplaced.keeps_alters (app.commanded_command hcmd args).alters

theorem Placed.keeps_dispatchOne (hplaced : Placed cfg app) (out : Surroundings) :
    Keeps app (app.dispatchOne lib sign out) := by
  rw [dispatchOne]
  split
  next cmd args _ => exact (hplaced.keeps_command out cmd args).trans (keeps_frame _ _)
  next => exact keeps_frame _ _

/-! ## Receptions -/

/-- What a reception stores goes to the inbox's file, and to no other. -/
theorem Placed.keeps_receive (hplaced : Placed cfg app) (raw : Bytes) (rssi snrQ4 : Int)
    (m : Moment) : Keeps app { app with node := app.node.receive lib raw rssi snrQ4 m } := by
  obtain ⟨hcontacts, hchannels, -, msgs, -, hmail, -⟩ :=
    Node.receives_receive lib m app.node raw rssi snrQ4
  generalize app.node.receive lib raw rssi snrQ4 m = node at hcontacts hchannels hmail ⊢
  have hpath : app.node.inbox.path ≠ [] := by
    rw [hplaced.inbox]
    exact List.append_ne_nil_of_right_ne_nil _ (by decide +kernel)
  obtain ⟨hinbox, hother⟩ := keeps_stored m.io hpath app.node.files msgs
  rw [← hmail] at hinbox hother
  have hfile : ∀ {name : Bytes}, ¬ utf8 "/messages" <+: name →
      node.files (cfg.stateDir ++ name) = app.node.files (cfg.stateDir ++ name) :=
    fun hname => hother _ (by
      rw [hplaced.inbox]
      exact cfg.apart hname)
  refine ⟨.of_flagged hplaced.contacts hcontacts (hfile (by decide +kernel)), ?_, hinbox, rfl⟩
  · show channelStates.Keeps _ _ node.channels node.files
    rw [hchannels]
    exact .of_place hplaced.channels (hfile (by decide +kernel))

theorem keeps_onNotice (app : App) (notice : Notice) : Keeps app (app.onNotice notice) := by
  have hquiet : ∀ writer log, Keeps app { app with writer, log } := fun _ _ =>
    .of_eq rfl rfl rfl rfl rfl
  cases notice with
  | contactChanged pubkey isNew =>
      have hrequested : ∀ app : App, Keeps app { app with writer := app.writer.requestSave } :=
        fun _ => .of_eq rfl rfl rfl rfl rfl
      rw [onNotice]
      split
      · exact (app.keeps_push _).trans (hrequested _)
      · exact hrequested app
  | messageStored => exact (hquiet app.writer _).trans (keeps_push _ _)
  | ack ackHash => exact app.keeps_push _
  | advertSeen pubkey => exact app.keeps_push _
  | pathUpdated pubkey => exact app.keeps_push _

theorem keeps_onNotices (app : App) (notices : List Notice) :
    Keeps app (notices.foldl onNotice app) := by
  induction notices generalizing app with
  | nil => exact .refl app
  | cons notice notices ih => exact (app.keeps_onNotice notice).trans (ih _)

theorem keeps_onRawRx (app : App) (raw : Bytes) (rssi snrQ4 : Int) :
    Keeps app (app.onRawRx raw rssi snrQ4) := by
  rw [onRawRx]
  split
  · exact .refl app
  · exact app.keeps_push _

theorem Placed.keeps_received (hplaced : Placed cfg app) (raw : Bytes) (rssi snrQ4 : Int)
    (m : Moment) : Keeps app (app.received lib raw rssi snrQ4 m) := by
  have hheard := app.keeps_onRawRx raw rssi snrQ4
  exact hheard.trans (((hplaced.keeps hheard).keeps_receive raw rssi snrQ4 _).trans
    (keeps_onNotices _ _))

end

/-! ## Flushes -/

/-- Each store is saved to its own file, whatever the others' saves do to theirs. -/
theorem Placed.keeps_flush (hplaced : Placed cfg app) (io : FlushIo) (w : StateWriter) :
    Keeps app (app.written (w.flush io app.node).2) := by
  rw [flush_eq]
  dsimp only
  have hcontacts := contactStates.keeps_flushed io.contacts app.node.contacts app.node.files
  have hcontactsOther {name : Bytes} (hname : ¬ utf8 "/contacts" <+: name) :=
    cfg.flushed_elsewhere (P := contactStates) hplaced.contacts hname io.contacts app.node.files
  generalize contactStates.flushed io.contacts app.node.contacts app.node.files = contacts
    at hcontacts hcontactsOther ⊢
  have hchannels := channelStates.keeps_flushed io.channels app.node.channels contacts.2.2
  have hchannelsOther {name : Bytes} (hname : ¬ utf8 "/channels" <+: name) :=
    cfg.flushed_elsewhere (P := channelStates) hplaced.channels hname io.channels contacts.2.2
  generalize channelStates.flushed io.channels app.node.channels contacts.2.2 = channels
    at hchannels hchannelsOther ⊢
  have hinbox := inboxStates.keeps_flushed io.inbox app.node.inbox channels.2.2
  have hinboxOther {name : Bytes} (hname : ¬ utf8 "/messages" <+: name) :=
    cfg.flushed_elsewhere (P := inboxStates) hplaced.inbox hname io.inbox channels.2.2
  generalize inboxStates.flushed io.inbox app.node.inbox channels.2.2 = inbox
    at hinbox hinboxOther ⊢
  refine ⟨hcontacts.trans (.of_place (hcontacts.1.trans hplaced.contacts) ?_),
    (StateStore.Keeps.of_place hplaced.channels ?_).trans
      (hchannels.trans (.of_place (hchannels.1.trans hplaced.channels) ?_)),
    (StateStore.Keeps.of_place hplaced.inbox ?_).trans hinbox, rfl⟩
  · exact (hinboxOther (by decide +kernel)).trans (hchannelsOther (by decide +kernel))
  · exact hcontactsOther (by decide +kernel)
  · exact hinboxOther (by decide +kernel)
  · exact (hchannelsOther (by decide +kernel)).trans (hcontactsOther (by decide +kernel))

theorem Placed.keeps_onSaveTimer (hplaced : Placed cfg app) (io : FlushIo) :
    Keeps app (app.written (app.writer.onSaveTimer io app.node)) := by
  rw [StateWriter.onSaveTimer]
  split
  · exact hplaced.keeps_flush io _
  · exact .of_eq rfl rfl rfl rfl rfl

/-! ## Runs -/

section

variable {lib : Crypto.Library} {sign : Bytes → Bytes}

theorem Placed.keeps_step (hplaced : Placed cfg app) (event : Event) :
    Keeps app (app.step lib sign event) := by
  cases event with
  | accept nonblocking => exact keeps_withSession (.refl _) rfl
  | feed bytes =>
      rw [step]
      split
      · exact keeps_withSession (.refl _) rfl
      · exact .refl app
  | frame out => exact hplaced.keeps_dispatchOne out
  | writable => exact keeps_withSession (.refl _) rfl
  | hangUp => exact keeps_withSession (.refl _) rfl
  | kernel results => exact keeps_withSession (.refl _) rfl
  | received raw rssi snrQ4 m => exact hplaced.keeps_received raw rssi snrQ4 m
  | retry id radio => exact .of_eq rfl rfl rfl rfl rfl
  | advertTimer radio => exact hplaced.keeps_alters (app.alters_sendAdvert radio true)
  | sweepDelivered => exact .of_eq rfl rfl rfl rfl rfl
  | tick ms => exact .of_eq rfl rfl rfl rfl rfl
  | pumpTimer radio => exact .of_eq rfl rfl rfl rfl rfl
  | txDone airtimeMs random => exact .of_eq rfl rfl rfl rfl rfl
  | sweepSeen => exact .of_eq rfl rfl rfl rfl rfl
  | chip call => exact .of_eq rfl rfl rfl rfl rfl
  | wallClock system => exact .of_eq rfl rfl rfl rfl rfl
  | saveTimer io => exact hplaced.keeps_onSaveTimer io
  | sweep io => exact hplaced.keeps_flush io app.writer
  | requestStop io =>
      exact (hplaced.keeps_flush io app.writer).trans (keeps_withSession (.refl _) rfl)

end

end App

/-! ## Startup -/

/-- The stores as `App::start` makes them. -/
def Boot.freshContacts (boot : Boot) : ContactStore := { path := boot.cfg.contactsPath }

def Boot.freshChannels (boot : Boot) : ChannelStore := { path := boot.cfg.channelsPath }

def Boot.freshInbox (boot : Boot) : MessageInbox :=
  { path := boot.cfg.messagesPath, limit := boot.messageLimit }

/-- No setting moves the state directory. -/
theorem stateDir_load {boot : Boot} {settings : SettingsStore}
    (hload : (SettingsStore.make (boot.cfg.named boot.self)).load boot.files = .ok settings) :
    settings.cfg.stateDir = boot.cfg.stateDir ∧ settings.path = boot.cfg.settingsPath := by
  have hnamed : (boot.cfg.named boot.self).stateDir = boot.cfg.stateDir := by
    rw [Config.named]
    split <;> rfl
  have hkept := (SettingsStore.Kept.make (boot.cfg.named boot.self)).load hload
  have hdir : settings.cfg.operatorPart.stateDir =
      (boot.cfg.named boot.self).operatorPart.stateDir := congrArg Config.stateDir hkept.operator
  refine ⟨hdir.trans hnamed, hkept.path.trans ?_⟩
  rw [Config.settingsPath, hnamed, Config.settingsPath]

namespace App

/-- A clear flag can be believed, for each of the stores. -/
structure Backed (boot : Boot) (app : App) : Prop where
  contacts : contactStates.Saved boot.freshContacts app.node.contacts app.node.files
  channels : channelStates.Saved boot.freshChannels app.node.channels app.node.files
  inbox : inboxStates.Saved boot.freshInbox app.node.inbox app.node.files

variable {boot : Boot} {app app' : App}

theorem Backed.keeps (hbacked : Backed boot app) (hplaced : Placed boot.cfg app)
    (hkeeps : Keeps app app') : Backed boot app' where
  contacts := hbacked.contacts.keeps hplaced.contacts hkeeps.contacts
  channels := hbacked.channels.keeps hplaced.channels hkeeps.channels
  inbox := hbacked.inbox.keeps hplaced.inbox hkeeps.inbox

theorem start_eq (hstart : start boot = some app) :
    let contacts := contactStates.recover boot.contactsClock boot.freshContacts boot.files
    let channels := channelStates.recover boot.channelsClock boot.freshChannels contacts.2.2
    let inbox := inboxStates.recover boot.messagesClock boot.freshInbox channels.2.2
    app.node.contacts = contacts.2.1 ∧ app.node.channels = channels.2.1 ∧
      app.node.inbox = inbox.2.1 ∧ app.node.files = inbox.2.2 ∧
      app.settings.path = boot.cfg.settingsPath := by
  rw [start] at hstart
  dsimp only at hstart
  split at hstart
  · cases hstart
  next settings hload =>
    obtain ⟨hdir, hplace⟩ := stateDir_load hload
    rw [Config.contactsPath, Config.channelsPath, Config.messagesPath, hdir] at hstart
    split at hstart
    · cases hstart
    · obtain rfl := Option.some.inj hstart
      exact ⟨rfl, rfl, rfl, rfl, hplace⟩

section

variable {σ : Type} {P : StateStore σ} {initial : σ} {place name : Bytes}

theorem recovered (hpath : P.path initial = boot.cfg.stateDir ++ place) (hplace : place ≠ [])
    (clock : Nat × Nat) (fs : FileSystem) :
    P.Saved initial (P.recover clock initial fs).2.1 (P.recover clock initial fs).2.2 ∧
      P.path (P.recover clock initial fs).2.1 = boot.cfg.stateDir ++ place := by
  have hne : P.path initial ≠ [] := by
    rw [hpath]
    exact List.append_ne_nil_of_right_ne_nil _ hplace
  obtain ⟨hsaved, hsame⟩ := StateStore.saved_recover hne clock fs
  exact ⟨hsaved, hsame.trans hpath⟩

/-- Recovering one store leaves the files of the others alone. -/
theorem recovered_elsewhere (hpath : P.path initial = boot.cfg.stateDir ++ place)
    (hname : ¬ place <+: name) (clock : Nat × Nat) (fs : FileSystem) :
    (P.recover clock initial fs).2.2 (boot.cfg.stateDir ++ name) =
      fs (boot.cfg.stateDir ++ name) := by
  refine P.recover_other clock initial fs ?_
  rw [hpath]
  exact boot.cfg.apart hname

end

/-- What startup leaves: each store from its own file, or a copy of it, or as it was
made. -/
theorem backed_start (hstart : start boot = some app) :
    Placed boot.cfg app ∧ Backed boot app := by
  obtain ⟨hcontacts, hchannels, hinbox, hfiles, hsettings⟩ := start_eq hstart
  have hpaths : contactStates.path boot.freshContacts = boot.cfg.stateDir ++ utf8 "/contacts" ∧
      channelStates.path boot.freshChannels = boot.cfg.stateDir ++ utf8 "/channels" ∧
      inboxStates.path boot.freshInbox = boot.cfg.stateDir ++ utf8 "/messages" := ⟨rfl, rfl, rfl⟩
  obtain ⟨hcontactsPath, hchannelsPath, hinboxPath⟩ := hpaths
  obtain ⟨hcontactsSaved, hcontactsPlace⟩ :=
    recovered hcontactsPath (by decide +kernel) boot.contactsClock boot.files
  generalize contactStates.recover boot.contactsClock boot.freshContacts boot.files = contacts
    at *
  obtain ⟨hchannelsSaved, hchannelsPlace⟩ :=
    recovered hchannelsPath (by decide +kernel) boot.channelsClock contacts.2.2
  have hchannelsOther {name : Bytes} (hname : ¬ utf8 "/channels" <+: name) :=
    recovered_elsewhere hchannelsPath hname boot.channelsClock contacts.2.2
  generalize channelStates.recover boot.channelsClock boot.freshChannels contacts.2.2 = channels
    at *
  obtain ⟨hinboxSaved, hinboxPlace⟩ :=
    recovered hinboxPath (by decide +kernel) boot.messagesClock channels.2.2
  have hinboxOther {name : Bytes} (hname : ¬ utf8 "/messages" <+: name) :=
    recovered_elsewhere hinboxPath hname boot.messagesClock channels.2.2
  generalize inboxStates.recover boot.messagesClock boot.freshInbox channels.2.2 = inbox at *
  refine ⟨⟨?_, ?_, ?_, hsettings⟩, ⟨?_, ?_, ?_⟩⟩
  · rw [hcontacts]
    exact hcontactsPlace
  · rw [hchannels]
    exact hchannelsPlace
  · rw [hinbox]
    exact hinboxPlace
  · rw [hcontacts, hfiles]
    refine hcontactsSaved.keeps (hcontactsPlace.trans hcontactsPath.symm)
      (.of_place hcontactsPlace ?_)
    exact (hinboxOther (by decide +kernel)).trans (hchannelsOther (by decide +kernel))
  · rw [hchannels, hfiles]
    refine hchannelsSaved.keeps (hchannelsPlace.trans hchannelsPath.symm)
      (.of_place hchannelsPlace ?_)
    exact hinboxOther (by decide +kernel)
  · rw [hinbox, hfiles]
    exact hinboxSaved

/-! ## Clean means saved -/

/-- What the flags say of the files, and who may set and clear them. -/
structure CleanMeansSaved (lib : Crypto.Library) (sign : Bytes → Bytes) (boot : Boot)
    (app : App) : Prop where
  backed : Backed boot app
  /-- A step that changes a store flags it or has saved it. -/
  steps : ∀ event, Keeps app (app.step lib sign event)
  /-- A save that fails leaves the flag. -/
  failures : ∀ io,
    ((app.node.contacts.save io app.node.files).1 = false →
      (app.node.contacts.save io app.node.files).2.1.dirty = app.node.contacts.dirty) ∧
    ((app.node.channels.save io app.node.files).1 = false →
      (app.node.channels.save io app.node.files).2.1.dirty = app.node.channels.dirty) ∧
    ((app.node.inbox.save io app.node.files).1 = false →
      (app.node.inbox.save io app.node.files).2.1.dirty = app.node.inbox.dirty)
  flushes : ∀ io, (app.flush io).1 = true ↔
    (app.flush io).2.node.contacts.dirty = false ∧
    (app.flush io).2.node.channels.dirty = false ∧
    (app.flush io).2.node.inbox.dirty = false

/-- A flush wrote everything when it leaves nothing dirty. -/
theorem flush_iff (app : App) (io : FlushIo) : (app.flush io).1 = true ↔
    (app.flush io).2.node.contacts.dirty = false ∧
    (app.flush io).2.node.channels.dirty = false ∧
    (app.flush io).2.node.inbox.dirty = false := by
  rw [flush, flush_eq]
  dsimp only [written]
  have hcontacts := contactStates.dirty_flushed io.contacts app.node.contacts app.node.files
  generalize contactStates.flushed io.contacts app.node.contacts app.node.files = contacts
    at hcontacts ⊢
  have hchannels := channelStates.dirty_flushed io.channels app.node.channels contacts.2.2
  generalize channelStates.flushed io.channels app.node.channels contacts.2.2 = channels
    at hchannels ⊢
  have hinbox := inboxStates.dirty_flushed io.inbox app.node.inbox channels.2.2
  generalize inboxStates.flushed io.inbox app.node.inbox channels.2.2 = inbox at hinbox ⊢
  replace hcontacts : contacts.2.1.dirty = !contacts.1 := hcontacts
  replace hchannels : channels.2.1.dirty = !channels.1 := hchannels
  replace hinbox : inbox.2.1.dirty = !inbox.1 := hinbox
  rw [hcontacts, hchannels, hinbox]
  simp [Bool.and_eq_true, and_assoc]

/-- **Clean means saved**: in every state the daemon reaches from startup, a store whose
flag is clear has its contents in its file, or was loaded from what is there, or is as
it was made and has no file. -/
theorem clean_means_saved (lib : Crypto.Library) (sign : Bytes → Bytes)
    (hstart : start boot = some app) (events : List Event) :
    CleanMeansSaved lib sign boot (run (step lib sign) app events) := by
  have hstep : ∀ app event, Placed boot.cfg app ∧ Backed boot app →
      Placed boot.cfg (step lib sign app event) ∧ Backed boot (step lib sign app event) := by
    rintro app event ⟨hplaced, hbacked⟩
    have hkeeps : Keeps app (step lib sign app event) := hplaced.keeps_step event
    exact ⟨hplaced.keeps hkeeps, hbacked.keeps hplaced hkeeps⟩
  obtain ⟨hplaced, hbacked⟩ := run_invariant hstep (backed_start hstart) events
  generalize run (step lib sign) app events = app at hplaced hbacked
  have hfailures : ∀ io, _ ∧ _ ∧ _ := fun io =>
    ⟨contactStates.dirty_of_failed io app.node.contacts app.node.files,
      channelStates.dirty_of_failed io app.node.channels app.node.files,
      inboxStates.dirty_of_failed io app.node.inbox app.node.files⟩
  exact ⟨hbacked, hplaced.keeps_step, hfailures, app.flush_iff⟩

/-- The channel is in its file after the sweep. -/
theorem clean_means_saved_sample :
    ∃ app, start sampleBoot = some app ∧
      let after :=
        run (step .transparent SettingsStore.sampleSign) app (sampleEvents ++ [.sweep {}])
      after.node.channels.dirty = false ∧ after.node.channels ≠ sampleBoot.freshChannels ∧
        CleanMeansSaved .transparent SettingsStore.sampleSign sampleBoot after := by
  have hrun : (start sampleBoot).any (fun app =>
      let after :=
        run (step .transparent SettingsStore.sampleSign) app (sampleEvents ++ [.sweep {}])
      decide (after.node.channels.dirty = false ∧
        after.node.channels.channels ≠ sampleBoot.freshChannels.channels)) = true := by
    decide +kernel
  obtain ⟨app, hstart, hreached⟩ := (Option.any_eq_true _ _).mp hrun
  obtain ⟨hclean, hset⟩ := of_decide_eq_true hreached
  exact ⟨app, hstart, hclean, fun hfresh => hset (congrArg ChannelStore.channels hfresh),
    clean_means_saved .transparent SettingsStore.sampleSign hstart _⟩

end App

end Coreletd.Daemon
