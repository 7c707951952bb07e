/-
# A node keeps its key

Every peer knows a node by its key. A start takes the key from its file; it makes one
only where no file of a node is to be seen, and goes on with it only once it is saved.
From then on the daemon leaves the file alone, in a start that gives up as in one that
comes through, and whatever happens to it afterwards.
-/

import Coreletd.Crypto.Identity
import Coreletd.Daemon.SettingsRestored

namespace Coreletd.Daemon

open Coreletd.Companion
open Coreletd.Crypto
open Coreletd.Library
open Coreletd.Mesh
open Coreletd.Radio

/-! ## The key at startup -/

def Config.identityPath (cfg : Config) : Bytes := cfg.stateDir ++ utf8 "/identity"

/-- How a start meets the key's file, and the randomness and the other files where
there is no key. -/
structure KeyIo where
  read : ReadIo := {}
  save : SaveIo := {}
  /-- The expanded seeds, in the order they are drawn. -/
  draws : List { expanded : Bytes // expanded.length = kPrivKeySize } := []
  /-- Where `stat` fails although the file is there. -/
  hidden : Bytes → Bool := fun _ => false

/-- `exists`. -/
def KeyIo.existsAt (io : KeyIo) (fs : FileSystem) (path : Bytes) : Bool :=
  (fs path).isSome && !io.hidden path

/-- The files that only a node which has run leaves behind. -/
def Config.tracePaths (cfg : Config) : List Bytes :=
  [cfg.contactsPath, cfg.channelsPath, cfg.messagesPath]

namespace App

/-- The key to go on with, if there is one, and the files. -/
def loadOrCreateIdentity (mult : ScalarMult) (io : KeyIo) (cfg : Config) (fs : FileSystem) :
    Option LocalIdentity × FileSystem :=
  match LocalIdentity.load mult io.read fs cfg.identityPath with
  | (some id, _) => (some id, fs)
  | (none, error) =>
      if error ≠ [] then (none, fs)
      -- the key was lost rather than never made
      else if cfg.tracePaths.any (io.existsAt fs) then (none, fs)
      else
        match LocalIdentity.generate mult (io.draws.map Subtype.val) with
        | none => (none, fs)
        | some id =>
            match id.save io.save fs cfg.identityPath with
            | (true, fs) => (some id, fs)
            | (false, fs) => (none, fs)

/-- What `start` leaves on the disk, also where it gives up: over the settings before a
store is loaded, over the radio before the inbox is. -/
def leftBehind (boot : Boot) : FileSystem :=
  match start boot with
  | some app => app.node.files
  | none =>
      match (SettingsStore.make (boot.cfg.named boot.self)).load boot.files with
      | .error _ => boot.files
      | .ok settings =>
          let cfg := settings.cfg
          let (_, _, files) :=
            loadState (fun badAfter (s : ContactStore) fs => s.load fs badAfter) cfg.contactsPath
              (none, none) boot.contactsClock { path := cfg.contactsPath } boot.files
          let (_, _, files) :=
            loadState (fun badAfter (s : ChannelStore) fs => s.load fs badAfter) cfg.channelsPath
              (none, none) boot.channelsClock { path := cfg.channelsPath } files
          files

end App

/-! ## The host -/

/-- The disk, and the daemon if it runs. -/
structure Host where
  files : FileSystem
  app : Option App := none

namespace Host

/-- What happens on the host of a state directory. -/
inductive Event where
  /-- The daemon starts, with any config; of `boot` the directory, the key and the files
  are not used. -/
  | start (io : KeyIo) (boot : Boot)
  | daemon (event : App.Event)
  /-- The daemon is gone, whatever it was about to do. -/
  | crash
  /-- Somebody else writes a file, or removes it. -/
  | edit (name : Bytes) (content : Option Bytes)

section

variable (mult : ScalarMult) (lib : Crypto.Library) (sign : Bytes → Bytes) (stateDir : Bytes)

/-- `App::start` from the key on, over the files there are. -/
def start (io : KeyIo) (boot : Boot) (files : FileSystem) : Host :=
  let cfg := { boot.cfg with stateDir }
  match App.loadOrCreateIdentity mult io cfg files with
  | (none, files) => { files }
  | (some self, files) =>
      let boot := { boot with cfg, self, files }
      { files := App.leftBehind boot, app := App.start boot }

def step (host : Host) : Event → Host
  | .start io boot => start mult stateDir io boot host.files
  | .daemon event =>
      match host.app with
      | none => host
      | some app =>
          let app := { app with node := { app.node with files := host.files } }
          let app := app.step lib sign event
          { files := app.node.files, app := some app }
  | .crash => { host with app := none }
  | .edit name content => { host with files := host.files.set name content }

end

/-- Nobody but the daemon writes to the key's file. -/
def Event.SparesKey (stateDir : Bytes) : Event → Prop
  | .edit name _ => name ≠ ({ stateDir } : Config).identityPath
  | _ => True

end Host

/-! ## What becomes of the key -/

section

variable {mult : ScalarMult} {fs : FileSystem} {path : Bytes}

/-- A key that was read can be read again. -/
theorem load_again {io : ReadIo} {id : LocalIdentity} {error : Bytes}
    (hload : LocalIdentity.load mult io fs path = (some id, error)) :
    LocalIdentity.load mult {} fs path = (some id, []) := by
  rw [LocalIdentity.load] at hload
  split at hload
  · cases hload
  · split at hload
    · cases hload
    next raw hraw =>
      split at hload
      · cases hload
      · split at hload
        next hread =>
          obtain rfl := Option.some.inj (Prod.mk.inj hload).1
          exact LocalIdentity.load_eq hraw hread
        next => cases hload

/-- Without a word of error there is no file. -/
theorem absent_of_load {io : ReadIo}
    (hload : LocalIdentity.load mult io fs path = (none, [])) : fs path = none := by
  have hsaid : ∀ {text rest : Bytes}, text ≠ [] → (none, text ++ rest) ≠
      ((none, []) : Option LocalIdentity × Bytes) := fun htext heq =>
    htext (List.append_eq_nil_iff.mp (Prod.mk.inj heq).2).1
  rw [LocalIdentity.load] at hload
  split at hload
  · simp only [List.append_assoc] at hload
    exact absurd hload (hsaid (by decide +kernel))
  · split at hload
    next habsent => exact habsent
    next =>
      split at hload
      · exact absurd hload (hsaid (by decide +kernel))
      · split at hload
        · cases hload
        · exact absurd hload (hsaid (by decide +kernel))

/-- A key is taken from its file, or made where nothing is to be seen. -/
inductive KeyCase (mult : ScalarMult) (io : KeyIo) (cfg : Config) (fs : FileSystem) :
    Option LocalIdentity × FileSystem → Prop
  | loaded {id : LocalIdentity}
      (hload : LocalIdentity.load mult {} fs cfg.identityPath = (some id, [])) :
      KeyCase mult io cfg fs (some id, fs)
  | refused : KeyCase mult io cfg fs (none, fs)
  | minted {id : LocalIdentity} {fs' : FileSystem} (habsent : fs cfg.identityPath = none)
      (hnobody : ∀ path ∈ cfg.tracePaths, io.existsAt fs path = false)
      (hsaved : LocalIdentity.load mult {} fs' cfg.identityPath = (some id, [])) :
      KeyCase mult io cfg fs (some id, fs')
  | unsaved {fs' : FileSystem} (habsent : fs cfg.identityPath = none) :
      KeyCase mult io cfg fs (none, fs')

variable (mult) in
theorem keyCase (io : KeyIo) (cfg : Config) (fs : FileSystem) :
    KeyCase mult io cfg fs (App.loadOrCreateIdentity mult io cfg fs) := by
  rw [App.loadOrCreateIdentity]
  split
  next hload => exact .loaded (load_again hload)
  next error hload =>
    split
    · exact .refused
    next hquiet =>
      rw [Classical.not_not.mp hquiet] at hload
      have habsent := absent_of_load hload
      split
      · exact .refused
      next hlost =>
        have hnobody : ∀ path ∈ cfg.tracePaths, io.existsAt fs path = false := by
          simpa using hlost
        split
        · exact .refused
        next id hid =>
          have hdraws : ∀ expanded ∈ io.draws.map Subtype.val,
              expanded.length = kPrivKeySize := by
            intro expanded hmem
            obtain ⟨draw, -, rfl⟩ := List.mem_map.mp hmem
            exact draw.2
          split
          next hsaved =>
            exact .minted habsent hnobody
              ((LocalIdentity.sound_generate hdraws hid).load_saved hsaved)
          next => exact .unsaved habsent

end

/-! ## Startup -/

theorem unstored_identity : App.Unstored (utf8 "/identity") :=
  ⟨by decide +kernel, by decide +kernel, by decide +kernel⟩

namespace App

variable {boot : Boot} {app : App}

/-- A start runs on the key it was given. -/
theorem identity_start (hstart : start boot = some app) : app.node.identity = boot.self := by
  rw [start] at hstart
  dsimp only at hstart
  split at hstart
  · cases hstart
  · split at hstart
    · cases hstart
    · obtain rfl := Option.some.inj hstart
      rfl

/-- Also a start that gives up writes under the names of the stores only. -/
theorem files_leftBehind (boot : Boot) {name : Bytes} (hname : Unstored name) :
    leftBehind boot (boot.cfg.stateDir ++ name) = boot.files (boot.cfg.stateDir ++ name) := by
  rw [leftBehind]
  cases hstart : start boot with
  | some app => exact files_start hstart hname
  | none =>
    dsimp only
    cases hload : (SettingsStore.make (boot.cfg.named boot.self)).load boot.files with
    | error why => rfl
    | ok settings =>
      obtain ⟨hdir, -⟩ := stateDir_load hload
      dsimp only
      rw [Config.contactsPath, Config.channelsPath, hdir]
      exact files_recovered boot hname

/-! ## Steps -/

variable {app' : App} {cfg : Config} {lib : Crypto.Library} {sign : Bytes → Bytes} {name : Bytes}

theorem files_push (app : App) (payload : Bytes) : (app.push payload).node.files =
    app.node.files := Session.push_files _ payload

theorem files_onNotice (app : App) (notice : Notice) :
    (app.onNotice notice).node.files = app.node.files := by
  cases notice with
  | contactChanged pubkey isNew =>
      rw [onNotice]
      split
      · exact app.files_push _
      · rfl
  | messageStored => exact files_push _ _
  | ack ackHash => exact app.files_push _
  | advertSeen pubkey => exact app.files_push _
  | pathUpdated pubkey => exact app.files_push _

theorem files_onNotices (app : App) (notices : List Notice) :
    (notices.foldl onNotice app).node.files = app.node.files := by
  induction notices generalizing app with
  | nil => rfl
  | cons notice notices ih => exact (ih _).trans (app.files_onNotice notice)

theorem files_onRawRx (app : App) (raw : Bytes) (rssi snrQ4 : Int) :
    (app.onRawRx raw rssi snrQ4).node.files = app.node.files := by
  rw [onRawRx]
  split
  · rfl
  · exact app.files_push _

theorem Placed.files_received (hplaced : Placed cfg app) (hname : Unstored name) (raw : Bytes)
    (rssi snrQ4 : Int) (m : Moment) :
    (app.received lib raw rssi snrQ4 m).node.files (cfg.stateDir ++ name) =
      app.node.files (cfg.stateDir ++ name) := by
  have hplaced' := hplaced.keeps (app.keeps_onRawRx raw rssi snrQ4)
  have hheard := congrFun (app.files_onRawRx raw rssi snrQ4) (cfg.stateDir ++ name)
  refine (congrFun (files_onNotices _ _) _).trans (Eq.trans ?_ hheard)
  exact hplaced'.files_receive hname raw rssi snrQ4 _

/-- A command writes to the settings file at most. -/
theorem Placed.files_command (hplaced : Placed cfg app) (hname : ¬ utf8 "/settings" <+: name)
    (out : Surroundings) (cmd : UInt8) (args : Bytes) :
    (app.command lib sign out cmd args).2.node.files (cfg.stateDir ++ name) =
      app.node.files (cfg.stateDir ++ name) := by
  by_cases hcmd : cmd = kCmdAppStart
  · rw [hcmd, command_appStart]
    show app.introduce.node.files _ = _
    rw [introduce]
    split <;> rfl
  · refine (app.commanded_command hcmd args).alters.files _ ?_
    rw [hplaced.settings]
    exact cfg.apart hname

theorem files_frame (app : App) (answers : List (List Bytes)) :
    (app.serve .frame answers).node.files = app.node.files := Session.dispatchOne_files _

/-- A step writes under the names of the stores, and to the settings file. -/
theorem Placed.files_step (hplaced : Placed cfg app) (hname : Unstored name)
    (hsettings : ¬ utf8 "/settings" <+: name) (event : Event) :
    (app.step lib sign event).node.files (cfg.stateDir ++ name) =
      app.node.files (cfg.stateDir ++ name) := by
  cases event with
  | accept nonblocking => rfl
  | feed bytes =>
      rw [step]
      split <;> rfl
  | frame out =>
      rw [step, dispatchOne]
      split
      next cmd args _ =>
        exact (congrFun (files_frame _ _) _).trans (hplaced.files_command hsettings out cmd args)
      next => exact congrFun (app.files_frame _) _
  | writable => rfl
  | hangUp => rfl
  | kernel results => rfl
  | received raw rssi snrQ4 m => exact hplaced.files_received hname raw rssi snrQ4 m
  | retry id radio => rfl
  | advertTimer radio =>
      rw [step, sendAdvert]
      split <;> rfl
  | sweepDelivered => rfl
  | tick ms => rfl
  | pumpTimer radio => rfl
  | txDone airtimeMs random => rfl
  | sweepSeen => rfl
  | chip call => rfl
  | wallClock system => rfl
  | saveTimer io =>
      rw [step, StateWriter.onSaveTimer]
      split
      · exact hplaced.files_flush hname io { app.writer with pending := false }
      · rfl
  | sweep io => exact hplaced.files_flush hname io app.writer
  | requestStop io => exact hplaced.files_flush hname io app.writer

theorem identity_changeSettings (app : App) (out : Surroundings) (changes : List Change) :
    (app.changeSettings out (some changes)).2.node.identity = app.node.identity := by
  rcases app.changeSettings_cases out changes with
    (⟨-, hleft⟩ | ⟨_, _, files, -, -, hleft⟩) | ⟨next, stored, files, -, -, hleft⟩
  · rw [hleft]
    rfl
  · rw [hleft]
    rfl
  · rw [hleft]
    exact ReliableSender.beyond_self.pump out.view _

/-- No step gives the node another key. -/
theorem Placed.identity_step (hplaced : Placed cfg app) (event : Event) :
    (app.step lib sign event).node.identity = app.node.identity := by
  have haside : ∀ {app app' : App}, Aside app app' →
      app'.node.identity = app.node.identity := fun haside => haside.node.air.client
  by_cases hframe : ∃ out, event = .frame out
  · obtain ⟨out, rfl⟩ := hframe
    rcases dispatchOne_settles lib sign app out with hleft | ⟨changes, -, hleft⟩
    · exact haside hleft
    · exact (haside hleft).trans (app.identity_changeSettings out changes)
  · by_cases hchip : ∃ call, event = .chip call
    · obtain ⟨call, rfl⟩ := hchip
      rfl
    · have hown : event.Own := by
        cases event with
        | chip call => exact absurd ⟨call, rfl⟩ hchip
        | _ => trivial
      exact haside (hplaced.aside_step hown fun out heq => hframe ⟨out, heq⟩)

end App

/-! ## Runs of the host -/

namespace Host

variable {mult : ScalarMult} {lib : Crypto.Library} {sign : Bytes → Bytes} {stateDir : Bytes}
  {host : Host} {key : LocalIdentity}

/-- The daemon, if it runs, has its files in the state directory. -/
def Settled (stateDir : Bytes) (host : Host) : Prop :=
  ∀ app, host.app = some app → App.Placed { stateDir } app

/-- The daemon finds the files as they are by now. -/
theorem Settled.over (hsettled : Settled stateDir host) {app : App}
    (happ : host.app = some app) :
    App.Placed { stateDir } { app with node := { app.node with files := host.files } } := by
  obtain ⟨hcontacts, hchannels, hinbox, hsettings⟩ := hsettled app happ
  exact ⟨hcontacts, hchannels, hinbox, hsettings⟩

/-- What a start that comes through runs on. -/
structure Begun (mult : ScalarMult) (stateDir : Bytes) (io : KeyIo) (files : FileSystem)
    (host : Host) (app : App) : Prop where
  placed : App.Placed { stateDir } app
  onDisk : LocalIdentity.load mult {} host.files ({ stateDir } : Config).identityPath =
    (some app.node.identity, [])
  /-- A key that is not on the disk is made for a new node only. -/
  nobody : files ({ stateDir } : Config).identityPath = none →
    ∀ path ∈ ({ stateDir } : Config).tracePaths, io.existsAt files path = false

theorem load_congr {fs fs' : FileSystem} {path : Bytes} (hsame : fs' path = fs path) :
    LocalIdentity.load mult {} fs' path = LocalIdentity.load mult {} fs path := by
  simp only [LocalIdentity.load, hsame]

theorem present_of_load {fs : FileSystem} {path : Bytes}
    (hload : LocalIdentity.load mult {} fs path = (some key, [])) :
    ∃ content, fs path = some content := by
  refine Option.ne_none_iff_exists'.mp fun habsent => ?_
  simp [LocalIdentity.load, habsent] at hload

theorem begun_start {io : KeyIo} {boot : Boot} {files : FileSystem} {app : App}
    (hstart : (start mult stateDir io boot files).app = some app) :
    Begun mult stateDir io files (start mult stateDir io boot files) app := by
  have hplaced : ∀ {boot : Boot}, boot.cfg.stateDir = stateDir → App.start boot = some app →
      App.Placed { stateDir } app ∧ app.node.identity = boot.self := by
    rintro boot rfl hstart
    have hplaced := (App.backed_start hstart).1
    exact ⟨⟨hplaced.contacts, hplaced.channels, hplaced.inbox, hplaced.settings⟩,
      App.identity_start hstart⟩
  have hcase := keyCase mult io { boot.cfg with stateDir } files
  rw [start] at hstart ⊢
  dsimp only at hstart ⊢
  generalize App.loadOrCreateIdentity mult io _ files = result at hcase hstart ⊢
  cases hcase with
  | refused => cases hstart
  | unsaved => cases hstart
  | loaded hload =>
      obtain ⟨hplaces, hidentity⟩ := hplaced rfl hstart
      refine ⟨hplaces, ?_, fun habsent => ?_⟩
      · rw [hidentity, ← hload]
        exact load_congr (App.files_leftBehind _ unstored_identity)
      · obtain ⟨content, hcontent⟩ := present_of_load hload
        exact absurd (hcontent.symm.trans habsent) (Option.some_ne_none content)
  | minted habsent hnobody hsaved =>
      obtain ⟨hplaces, hidentity⟩ := hplaced rfl hstart
      refine ⟨hplaces, ?_, fun _ => hnobody⟩
      rw [hidentity, ← hsaved]
      exact load_congr (App.files_leftBehind _ unstored_identity)

/-- Whatever becomes of a start, a key file that is there stays. -/
theorem kept_start {io : KeyIo} {boot : Boot} {files : FileSystem} {content : Bytes}
    (hfile : files ({ stateDir } : Config).identityPath = some content) :
    (start mult stateDir io boot files).files ({ stateDir } : Config).identityPath =
      some content := by
  have hcase := keyCase mult io { boot.cfg with stateDir } files
  rw [start]
  dsimp only
  generalize App.loadOrCreateIdentity mult io _ files = result at hcase ⊢
  cases hcase with
  | refused => exact hfile
  | loaded => exact (App.files_leftBehind _ unstored_identity).trans hfile
  | minted habsent => exact absurd (hfile.symm.trans habsent) (Option.some_ne_none content)
  | unsaved habsent => exact absurd (hfile.symm.trans habsent) (Option.some_ne_none content)

/-! ### Steps -/

theorem Settled.step (hsettled : Settled stateDir host) (event : Event) :
    Settled stateDir (step mult lib sign stateDir host event) := by
  cases event with
  | start io boot => exact fun app hstart => (begun_start hstart).placed
  | daemon event =>
      rw [Host.step]
      split
      · exact hsettled
      next app happ =>
        rintro _ ⟨⟩
        exact App.placed_step (hsettled.over happ) event
  | crash => rintro _ ⟨⟩
  | edit name content => exact hsettled

theorem kept_step (hsettled : Settled stateDir host) {event : Event}
    (hspares : event.SparesKey stateDir) {content : Bytes}
    (hfile : host.files ({ stateDir } : Config).identityPath = some content) :
    (step mult lib sign stateDir host event).files ({ stateDir } : Config).identityPath =
      some content := by
  cases event with
  | start io boot => exact kept_start hfile
  | daemon event =>
      rw [step]
      split
      · exact hfile
      next app happ =>
        have hplaced := hsettled.over happ
        exact (hplaced.files_step unstored_identity (by decide +kernel) event).trans hfile
  | crash => exact hfile
  | edit name content => exact (FileSystem.set_other _ _ (Ne.symm hspares)).trans hfile

/-- The key is on the disk, and the daemon, if it runs, has it. -/
structure Runs (mult : ScalarMult) (stateDir : Bytes) (key : LocalIdentity) (host : Host) :
    Prop where
  settled : Settled stateDir host
  onDisk : LocalIdentity.load mult {} host.files ({ stateDir } : Config).identityPath =
    (some key, [])
  running : ∀ app, host.app = some app → app.node.identity = key

theorem Runs.step (hruns : Runs mult stateDir key host) {event : Event}
    (hspares : event.SparesKey stateDir) :
    Runs mult stateDir key (step mult lib sign stateDir host event) := by
  obtain ⟨content, hfile⟩ := present_of_load hruns.onDisk
  have hkept : (Host.step mult lib sign stateDir host event).files _ = some content :=
    kept_step hruns.settled hspares hfile
  have honDisk : LocalIdentity.load mult {} _ _ = (some key, []) :=
    (load_congr (hkept.trans hfile.symm)).trans hruns.onDisk
  refine ⟨hruns.settled.step event, honDisk, ?_⟩
  cases event with
  | start io boot =>
      intro app hstart
      have hbegun := (begun_start hstart).onDisk
      exact Option.some.inj (Prod.mk.inj (hbegun.symm.trans honDisk)).1
  | daemon event =>
      rw [Host.step]
      split
      · exact hruns.running
      next app happ =>
        rintro _ ⟨⟩
        exact ((hruns.settled.over happ).identity_step event).trans (hruns.running app happ)
  | crash => rintro _ ⟨⟩
  | edit name content => exact hruns.running

/-! ### Runs -/

theorem settled_run (mult : ScalarMult) (lib : Crypto.Library) (sign : Bytes → Bytes)
    (stateDir : Bytes) (files : FileSystem) (events : List Event) :
    Settled stateDir (run (step mult lib sign stateDir) { files } events) := by
  have hstep : ∀ host event, Settled stateDir host →
      Settled stateDir (step mult lib sign stateDir host event) :=
    fun host event hsettled => hsettled.step event
  have hidle : Settled stateDir { files } := by rintro _ ⟨⟩
  exact run_invariant hstep hidle events

theorem kept_run (hsettled : Settled stateDir host) {events : List Event}
    (hspares : ∀ event ∈ events, event.SparesKey stateDir) {content : Bytes}
    (hfile : host.files ({ stateDir } : Config).identityPath = some content) :
    (run (step mult lib sign stateDir) host events).files ({ stateDir } : Config).identityPath =
      some content := by
  have hstep : ∀ (host : Host) (event : Event), (Settled stateDir host ∧
      host.files ({ stateDir } : Config).identityPath = some content) →
      event.SparesKey stateDir →
      Settled stateDir (step mult lib sign stateDir host event) ∧
        (step mult lib sign stateDir host event).files ({ stateDir } : Config).identityPath =
          some content :=
    fun host event ⟨hsettled, hfile⟩ hspares => ⟨hsettled.step event,
      kept_step hsettled hspares hfile⟩
  exact (Along.invariant hstep ⟨hsettled, hfile⟩
    (along_of_forall (fun event hmem _ => hspares event hmem) host)).2

theorem runs_run (hruns : Runs mult stateDir key host) {events : List Event}
    (hspares : ∀ event ∈ events, event.SparesKey stateDir) :
    Runs mult stateDir key (run (step mult lib sign stateDir) host events) := by
  have hstep : ∀ (host : Host) (event : Event), Runs mult stateDir key host →
      event.SparesKey stateDir → Runs mult stateDir key (step mult lib sign stateDir host event) :=
    fun host event hruns hspares => hruns.step hspares
  exact Along.invariant hstep hruns
    (along_of_forall (fun event hmem _ => hspares event hmem) host)

/-- What is to be said of the key, of the moment when `host` is as it is. -/
structure KeepsKey (mult : ScalarMult) (lib : Crypto.Library) (sign : Bytes → Bytes)
    (stateDir : Bytes) (host : Host) : Prop where
  /-- The daemon never writes over a key file, whatever it holds. -/
  untouched : ∀ events : List Event, (∀ event ∈ events, event.SparesKey stateDir) →
    ∀ content, host.files ({ stateDir } : Config).identityPath = some content →
      (run (step mult lib sign stateDir) host events).files
        ({ stateDir } : Config).identityPath = some content
  /-- Once a start has come through, its key stays on the disk, and whenever the daemon
  runs from then on, it is with this key. -/
  same : ∀ io boot app, (step mult lib sign stateDir host (.start io boot)).app = some app →
    ∀ events : List Event, (∀ event ∈ events, event.SparesKey stateDir) →
      let later := run (step mult lib sign stateDir) host (.start io boot :: events)
      LocalIdentity.load mult {} later.files ({ stateDir } : Config).identityPath =
          (some app.node.identity, []) ∧
        ∀ app', later.app = some app' → app'.node.identity = app.node.identity
  /-- Without a key file, a start comes through only if no store's file is to be seen. -/
  lost : ∀ io boot app, host.files ({ stateDir } : Config).identityPath = none →
    (step mult lib sign stateDir host (.start io boot)).app = some app →
    ∀ path ∈ ({ stateDir } : Config).tracePaths, io.existsAt host.files path = false

/-- **A node keeps its key.** Whatever has happened to the host and its files, with any
failures of reads and writes, a start that comes through has its key on the disk. As
long as nobody else writes to that file, the daemon never does again: it leaves the file
as it is in every start and every run, and always runs with the same key. With the key
file gone it does not replace the key of a node of which the contacts, the channels or
the messages are still there. -/
theorem keeps_key (mult : ScalarMult) (lib : Crypto.Library) (sign : Bytes → Bytes)
    (stateDir : Bytes) (files : FileSystem) (events : List Event) :
    KeepsKey mult lib sign stateDir
      (run (step mult lib sign stateDir) { files } events) := by
  have hsettled := settled_run mult lib sign stateDir files events
  generalize run (step mult lib sign stateDir) { files } events = host at hsettled ⊢
  refine ⟨fun events hspares content hfile => kept_run hsettled hspares hfile, ?_, ?_⟩
  · intro io boot app hstart events hspares
    have hbegun := begun_start hstart
    have hruns : Runs mult stateDir app.node.identity
        (step mult lib sign stateDir host (.start io boot)) := by
      refine ⟨hsettled.step _, hbegun.onDisk, fun app' happ' => ?_⟩
      obtain rfl := Option.some.inj (hstart.symm.trans happ')
      rfl
    have hlater : Runs mult stateDir app.node.identity
        (run (step mult lib sign stateDir) _ events) := runs_run hruns hspares
    exact ⟨hlater.onDisk, hlater.running⟩
  · exact fun io boot app habsent hstart => (begun_start hstart).nobody habsent

/-- A start that makes a key of this draw. -/
def sampleStart (draw : { expanded : Bytes // expanded.length = kPrivKeySize }) : Event :=
  .start { draws := [draw] } App.sampleBoot

def sampleStep : Host → Event → Host :=
  step LocalIdentity.vectorMult .transparent SettingsStore.sampleSign (utf8 "/var/lib/coreletd")

/-- A first start makes a key. The next one, after a crash, would make another. -/
theorem keeps_key_sample :
    ∃ app app',
      (sampleStep { files := fun _ => none } (sampleStart ⟨LocalIdentity.vectorKey, rfl⟩)).app =
        some app ∧
      (run sampleStep { files := fun _ => none } [sampleStart ⟨LocalIdentity.vectorKey, rfl⟩,
        .crash, sampleStart ⟨LocalIdentity.trailingKey, rfl⟩]).app = some app' ∧
      app'.node.identity = app.node.identity := by
  have hfirst : (sampleStep { files := fun _ => none }
      (sampleStart ⟨LocalIdentity.vectorKey, rfl⟩)).app.isSome = true := by decide +kernel
  have hagain : (run sampleStep { files := fun _ => none }
      [sampleStart ⟨LocalIdentity.vectorKey, rfl⟩, .crash,
        sampleStart ⟨LocalIdentity.trailingKey, rfl⟩]).app.isSome = true := by decide +kernel
  obtain ⟨app, happ⟩ := Option.isSome_iff_exists.mp hfirst
  obtain ⟨app', happ'⟩ := Option.isSome_iff_exists.mp hagain
  have hkept := keeps_key LocalIdentity.vectorMult .transparent SettingsStore.sampleSign
    (utf8 "/var/lib/coreletd") (fun _ => none) []
  have hsame := (hkept.same _ _ app happ [.crash, sampleStart ⟨LocalIdentity.trailingKey, rfl⟩]
    (by simp [sampleStart, Event.SparesKey])).2 app' happ'
  exact ⟨app, app', happ, happ', hsame⟩

end Host

end Coreletd.Daemon
