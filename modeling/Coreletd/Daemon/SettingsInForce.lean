/-
# What runs is what is set

The settings are in five places: the store, the node's configuration, its advert, the
dispatcher's duty cycle and the radio. One function moves them all; everything else the
daemon does leaves all five alone. So in every run from startup they agree, and what is
in force has passed every check.
-/

import Coreletd.Daemon.CleanStores
import Coreletd.Daemon.SettingsChange
import Coreletd.Radio.ParamsInForce

namespace Coreletd

open Coreletd.Library

namespace Mesh

open Coreletd.Crypto
open Coreletd.Proto
open Coreletd.Radio

/-! ## What is fixed of the dispatcher -/

namespace Dispatcher

universe u v w

variable {H : Type u} {σ : Type v} {τ : Type w} {call : Handler H σ} {view : σ → τ}
  {d d' d'' : Dispatcher H σ}

/-- The percentage of the budget has not changed, nor what is in view of the client. -/
structure Fixed (view : σ → τ) (d d' : Dispatcher H σ) : Prop where
  percent : d'.duty.percent = d.duty.percent
  client : view d'.client = view d.client

theorem Fixed.refl (d : Dispatcher H σ) : Fixed view d d := ⟨rfl, rfl⟩

theorem Fixed.trans (hfirst : Fixed view d d') (hsecond : Fixed view d' d'') : Fixed view d d'' :=
  ⟨hsecond.percent.trans hfirst.percent, hsecond.client.trans hfirst.client⟩

/-- What is in view is out of reach of the result handlers. -/
def Beyond (call : Handler H σ) (view : σ → τ) : Prop :=
  ∀ now client handler transmitted, view (call now client handler transmitted) = view client

theorem Beyond.notify (hbeyond : Beyond call view) (d : Dispatcher H σ) (q : Queued H)
    (transmitted : Bool) : view (notify call d q transmitted).client = view d.client := by
  rw [Dispatcher.notify]
  split
  · rfl
  · exact hbeyond _ _ _ _

theorem Beyond.transmit (hbeyond : Beyond call view) (radio : RadioView) (d : Dispatcher H σ)
    (q : Queued H) : view (transmit call radio d q).client = view d.client := by
  cases hok : radio.sendOk with
  | true =>
      rw [transmit_accepted _ _ _ hok]
      exact hbeyond.notify _ q true
  | false => rw [transmit_refused _ _ _ hok, schedulePump_client]

theorem Beyond.pump (hbeyond : Beyond call view) (radio : RadioView) (d : Dispatcher H σ) :
    view (pump call radio d).client = view d.client := by
  refine pump_rule (P := fun d' => view d'.client = view d.client) (fun _ h => h) ?_ ?_ ?_ rfl
  · intro d' d'' hquiet hd'
    rw [hquiet.client]
    exact hd'
  · intro d' ahead q behind reason _ _ hd'
    exact (hbeyond.notify _ q false).trans hd'
  · intro d' d'' ahead q behind _ hquiet _ hd'
    refine (hbeyond.transmit radio _ q).trans ?_
    show view d''.client = _
    rw [hquiet.client]
    exact hd'

theorem fixed_enqueue (hbeyond : Beyond call view) (d : Dispatcher H σ) (q : Queued H) :
    Fixed view d (enqueue call d q) := by
  rw [enqueue]
  dsimp only
  split
  · split
    · exact ⟨rfl, rfl⟩
    · exact ⟨congrArg DutyCycle.percent (discard_duty _ _ _ _), hbeyond.notify _ _ false⟩
  · exact ⟨rfl, rfl⟩

theorem fixed_send (hbeyond : Beyond call view) (lib : Crypto.Library) (radio : RadioView)
    (d : Dispatcher H σ) (p : Packet) (priority : UInt8) (delayMs : UInt32)
    (onResult : Option H) :
    Fixed view d (d.send call lib radio p priority delayMs onResult).2 := by
  rw [send]
  split
  · exact ⟨rfl, rfl⟩
  · have hseen : Fixed view d (d.checkAndMarkSeen lib p).2 := ⟨rfl, rfl⟩
    have hpumped : ∀ d' : Dispatcher H σ, Fixed view d' (pump call radio d') := fun d' =>
      ⟨pump_percent d', hbeyond.pump radio d'⟩
    exact hseen.trans ((fixed_enqueue hbeyond _ _).trans (hpumped _))

/-- Only a reconfiguration changes the percentage. -/
theorem fixed_step (hbeyond : Beyond call view) (lib : Crypto.Library) {event : Event H}
    (hevent : ∀ percent radio, event ≠ .reconfigure percent radio) (d : Dispatcher H σ) :
    Fixed view d (d.step lib call event) := by
  cases event with
  | tick ms => exact ⟨rfl, rfl⟩
  | send p priority delayMs onResult radio => exact fixed_send hbeyond lib radio d p _ _ _
  | pumpTimer radio =>
      rw [step, onPumpTimer]
      split
      · exact ⟨(pump_percent _).trans rfl, hbeyond.pump radio _⟩
      · exact .refl d
  | txDone airtimeMs random =>
      rw [step, onRadioTxDone]
      refine ⟨?_, ?_⟩
      · rw [schedulePump_duty]
        rfl
      · rw [schedulePump_client]
  | reconfigure percent radio => exact absurd rfl (hevent percent radio)
  | rx raw rssi snrQ4 =>
      have hquiet := quietly_onRadioRx lib d raw rssi snrQ4
      refine ⟨?_, congrArg view hquiet.client⟩
      rcases hquiet.duty with hsame | hpruned
      · exact congrArg DutyCycle.percent hsame
      · exact (congrArg DutyCycle.percent hpruned).trans rfl
  | sweep => exact ⟨rfl, rfl⟩

end Dispatcher

namespace ReliableSender

/-- No result of a transmission touches the key. -/
theorem beyond_self : Dispatcher.Beyond onTxResult ReliableSender.self := by
  intro now s id transmitted
  rw [onTxResult]
  split
  · rfl
  · split
    · rw [queueRetry]
      split <;> rfl
    · rfl

theorem self_complete (s : ReliableSender) (ackHash : Bytes) :
    (s.complete ackHash).2.self = s.self := by
  rw [complete]
  split <;> rfl

end ReliableSender

namespace Air

/-- The percentage of the budget and the key have not changed. -/
abbrev Fixed (d d' : Air) : Prop := Dispatcher.Fixed ReliableSender.self d d'

variable {lib : Crypto.Library} {radio : RadioView}

variable (lib radio) in
theorem fixed_send (d : Air) (p : Packet) (priority : UInt8) (delayMs : UInt32)
    (onResult : Option Nat) :
    Fixed d (Dispatcher.send ReliableSender.onTxResult lib radio d p priority delayMs onResult).2 :=
  Dispatcher.fixed_send ReliableSender.beyond_self lib radio d p _ _ _

variable (lib radio) in
theorem fixed_sendAttempt (d : Air) (p : Pending) (dest : Contact) (forceFlood : Bool) :
    Fixed d (sendAttempt lib radio d p dest forceFlood).2 := by
  rw [sendAttempt]
  dsimp only
  split
  · exact .refl d
  · have hnoted : ∀ hash, Fixed d { d with client := d.client.noteAttempt p hash forceFlood } := by
      intro hash
      rw [ReliableSender.noteAttempt]
      split <;> exact ⟨rfl, rfl⟩
    have hrouted : ∀ (d' : Air) packet flood onResult,
        Fixed d' (routeTo ReliableSender.onTxResult lib radio d' packet dest kPriorityDirect flood
          onResult).2 := fun d' _ _ _ => fixed_send lib radio d' _ _ _ _
    split
    next heq =>
      obtain rfl := congrArg Prod.snd heq
      exact (hnoted _).trans (hrouted _ _ _ _)
    next heq =>
      obtain rfl := congrArg Prod.snd heq
      exact (hnoted _).trans (hrouted _ _ _ _)

theorem fixed_sendFresh (d : Air) (acked : Bool) (dest : Contact) (text : Bytes)
    (txtType : UInt8) (timestamp : UInt32) :
    Fixed d (sendFresh lib radio d acked dest text txtType timestamp).2 := by
  rw [sendFresh]
  have hregistered : Fixed d
      (if acked then register d (fresh d.client acked dest text txtType timestamp) else d) := by
    split <;> exact ⟨rfl, rfl⟩
  have hattempt := hregistered.trans (fixed_sendAttempt lib radio _
    (fresh d.client acked dest text txtType timestamp) dest false)
  generalize sendAttempt lib radio _ _ dest false = result at hattempt ⊢
  rcases result with ⟨_ | _, d'⟩
  · dsimp only
    split
    · exact hattempt.trans ⟨rfl, rfl⟩
    · exact hattempt
  · exact hattempt.trans ⟨rfl, rfl⟩

variable (lib radio) in
theorem fixed_sendText (d : Air) (dest : Contact) (text : Bytes) (txtType : UInt8)
    (timestamp : UInt32) : Fixed d (send lib radio d dest text txtType timestamp).2 := by
  rw [send]
  split
  · exact fixed_sendFresh d _ _ _ _ _
  · split
    · exact ⟨rfl, rfl⟩
    · split
      · exact .refl d
      · exact fixed_sendFresh d _ _ _ _ _

theorem fixed_onRetry (contacts : ContactStore) (d : Air) (id : Nat) :
    Fixed d (onRetry lib radio contacts d id) := by
  rw [onRetry]
  split
  · exact .refl d
  next p hfound =>
    dsimp only
    split
    · exact ⟨rfl, rfl⟩
    · split
      · exact ⟨rfl, rfl⟩
      next dest hdest =>
        have hadvanced : Fixed d { d with client := d.client.modify id Pending.advance } :=
          ⟨rfl, rfl⟩
        have hattempt := hadvanced.trans (fixed_sendAttempt lib radio _ p.advance dest
          (decide (p.advance.attempt = kMaxAttempts - 1)))
        generalize sendAttempt lib radio _ p.advance dest _ = result at hattempt ⊢
        rcases result with ⟨_ | _, d'⟩
        · exact hattempt.trans ⟨rfl, rfl⟩
        · exact hattempt

theorem fixed_onTimer (contacts : ContactStore) (d : Air) (id : Nat) :
    Fixed d (onTimer lib radio contacts d id) := by
  rw [onTimer]
  split
  · exact .refl d
  · split
    · exact .refl d
    · split
      · exact .refl d
      · have hstopped : Fixed d { d with client := d.client.modify id Pending.stop } := ⟨rfl, rfl⟩
        exact hstopped.trans (fixed_onRetry contacts _ id)

end Air

/-! ## The node -/

namespace Node

/-- What is set of a node has not changed, nor has its key. -/
structure Steady (n n' : Node) : Prop where
  cfg : n'.cfg = n.cfg
  air : Air.Fixed n.air n'.air

variable {lib : Crypto.Library} {m : Moment} {n n' n'' : Node} {p : Packet}

theorem Steady.refl (n : Node) : Steady n n := ⟨rfl, .refl n.air⟩

theorem Steady.trans (hfirst : Steady n n') (hsecond : Steady n' n'') : Steady n n'' :=
  ⟨hsecond.cfg.trans hfirst.cfg, hfirst.air.trans hsecond.air⟩

theorem steady_act {mail : Prop} (hact : Act lib m p mail n n') : Steady n n' := by
  cases hact with
  | transmit out priority delayMs =>
      exact ⟨rfl, Air.fixed_send lib m.radio n.air out _ _ _⟩
  | applyAdvert adv =>
      have hcase : ApplyCase m n p adv (n.applyAdvert m p adv) := applyAdvert_case n p adv
      generalize n.applyAdvert m p adv = n' at hcase ⊢
      cases hcase with
      | ignored => exact .refl n
      | noted => exact ⟨rfl, rfl, rfl⟩
  | completeAck hash direct =>
      have hcase : CompleteCase m n hash direct (n.completeAck m hash direct) :=
        completeAck_case n hash direct
      generalize n.completeAck m hash direct = result at hcase ⊢
      cases hcase with
      | unmatched hcomplete =>
          obtain rfl := congrArg Prod.snd hcomplete
          exact ⟨rfl, rfl, n.air.client.self_complete hash⟩
      | matched hcomplete =>
          obtain rfl := congrArg Prod.snd hcomplete
          exact ⟨rfl, rfl, n.air.client.self_complete hash⟩
  | learnPath =>
      rw [learnPath]
      split
      · exact ⟨rfl, rfl, rfl⟩
      · exact .refl n
  | hear => exact ⟨rfl, rfl, rfl⟩
  | deliver sender msg =>
      have hcase : DeliverCase m n (n.deliver lib m p sender msg) := deliver_case n p sender msg
      generalize n.deliver lib m p sender msg = n' at hcase ⊢
      cases hcase with
      | known => exact ⟨rfl, rfl, rfl⟩
      | stored => exact ⟨rfl, rfl, rfl⟩
  | storeMessage => exact ⟨rfl, rfl, rfl⟩

theorem steady_acts {mail : Prop} (hacts : Acts lib m p mail n n') : Steady n n' := by
  induction hacts with
  | refl => exact .refl n
  | tail _ hact ih => exact ih.trans (steady_act hact)

variable (lib m) in
theorem steady_receive (n : Node) (raw : Bytes) (rssi snrQ4 : Int) :
    Steady n (n.receive lib raw rssi snrQ4 m) := by
  have hstep : Air.Fixed n.air (n.air.step lib ReliableSender.onTxResult (.rx raw rssi snrQ4)) :=
    Dispatcher.fixed_step ReliableSender.beyond_self lib (by simp) n.air
  have hheard : Air.Fixed n.air (Dispatcher.onRadioRx lib n.air raw rssi snrQ4).2 := hstep
  rw [receive]
  split
  next air heq =>
    rw [heq] at hheard
    exact ⟨rfl, hheard⟩
  next p air heq =>
    rw [heq] at hheard
    have hreceived : Steady n { n with air } := ⟨rfl, hheard⟩
    exact hreceived.trans (steady_acts (acts_onPacket _ p fun _ _ => trivial))

end Node

end Mesh

namespace Daemon

open Coreletd.Companion
open Coreletd.Mesh
open Coreletd.Proto
open Coreletd.Radio

namespace App

/-! ## What leaves the settings alone -/

/-- The settings are as they were, in memory and on disk, and so is what runs on
them. -/
structure Aside (app app' : App) : Prop where
  settings : app'.settings = app.settings
  profile : app'.profile = app.profile
  node : Node.Steady app.node app'.node
  params : app'.radio.params = app.radio.params
  file : app'.node.files app.settings.path = app.node.files app.settings.path

variable {app app' app'' : App} {lib : Crypto.Library} {sign : Bytes → Bytes}

theorem Aside.refl (app : App) : Aside app app := ⟨rfl, rfl, .refl _, rfl, rfl⟩

theorem Aside.trans (hfirst : Aside app app') (hsecond : Aside app' app'') : Aside app app'' where
  settings := hsecond.settings.trans hfirst.settings
  profile := hsecond.profile.trans hfirst.profile
  node := hfirst.node.trans hsecond.node
  params := hsecond.params.trans hfirst.params
  file := by
    have hfile := hsecond.file
    rw [hfirst.settings] at hfile
    exact hfile.trans hfirst.file

/-- All that changed is on its way to the air. -/
theorem Aside.of_air {air : Air} (hfixed : Air.Fixed app.node.air air) :
    Aside app { app with node := { app.node with air } } := ⟨rfl, rfl, ⟨rfl, hfixed⟩, rfl, rfl⟩

/-- The session has its hands on the inbox only. -/
theorem Aside.of_session {s : Session} (hfiles : s.files = app.node.files) :
    Aside app (app.withSession s) :=
  ⟨rfl, rfl, ⟨rfl, rfl, rfl⟩, rfl, congrFun hfiles _⟩

theorem aside_push (app : App) (payload : Bytes) : Aside app (app.push payload) :=
  .of_session (Session.push_files _ payload)

theorem aside_frame (app : App) (answers : List (List Bytes)) :
    Aside app (app.serve .frame answers) := .of_session (Session.dispatchOne_files _)

theorem aside_sendAdvert (app : App) (radio : RadioView) (flood : Bool) :
    Aside app (app.sendAdvert lib sign radio flood) := by
  rw [sendAdvert]
  split
  · exact .refl app
  · exact .of_air (Air.fixed_send lib radio app.node.air _ _ _ _)

theorem aside_sendChannelText (app : App) (radio : RadioView) (channelIndex : Nat)
    (text : Bytes) (timestamp : UInt32) :
    Aside app (app.sendChannelText lib radio channelIndex text timestamp).2 := by
  rw [sendChannelText]
  split
  · exact .refl app
  next ch _ =>
    split
    · exact .refl app
    · exact .of_air (Air.fixed_send lib radio app.node.air
        (app.channelPacket lib ch text timestamp) kPriorityFlood 0 none)

/-! ## Commands -/

/-- The changes that one of the app's commands asks for. -/
def Asked (requested : Requested) : Prop :=
  ∃ args, requested = cmdSetAdvertName args ∨ requested = cmdSetAdvertLatLon args ∨
    requested = cmdSetRadioParams args ∨ requested = cmdSetTxPower args ∨
    requested = cmdSetTuningParams args

/-- A command leaves the settings alone, or changes them in the one way there is. -/
def Settles (out : Surroundings) (app : App) (result : List Bytes × App) : Prop :=
  Aside app result.2 ∨ ∃ changes, Asked (some changes) ∧
    result = app.changeSettings out (some changes)

variable {out : Surroundings}

theorem settles_changeSettings {requested : Requested} (hasked : Asked requested) :
    Settles out app (app.changeSettings out requested) := by
  cases requested with
  | none => exact .inl (.refl app)
  | some changes => exact .inr ⟨changes, hasked, rfl⟩

theorem aside_savedReply (haside : Aside app app') : Aside app app'.savedReply.2 :=
  haside.trans ⟨rfl, rfl, ⟨rfl, rfl, rfl⟩, rfl, rfl⟩

theorem aside_editContacts (app : App) (result : Except CommandError ContactStore) :
    Aside app (app.editContacts result).2 := by
  cases result with
  | error err => exact .refl app
  | ok contacts => exact aside_savedReply ⟨rfl, rfl, ⟨rfl, rfl, rfl⟩, rfl, rfl⟩

theorem aside_cmdSetChannel (app : App) (args : Bytes) :
    Aside app (app.cmdSetChannel args).2 := by
  rw [cmdSetChannel]
  split
  · exact .refl app
  · exact aside_savedReply ⟨rfl, rfl, ⟨rfl, rfl, rfl⟩, rfl, rfl⟩

theorem aside_cmdSetDeviceTime (app : App) (args : Bytes) :
    Aside app (app.cmdSetDeviceTime args).2 := by
  rw [cmdSetDeviceTime]
  dsimp only
  split
  · exact .refl app
  · exact ⟨rfl, rfl, ⟨rfl, rfl, rfl⟩, rfl, rfl⟩

theorem aside_cmdSendTxtMsg (app : App) (args : Bytes) :
    Aside app (app.cmdSendTxtMsg lib out args).2 := by
  have hair : ∀ (air : Air) lastSendMs, Air.Fixed app.node.air air →
      Aside app { app with node := { app.node with air }, lastSendMs } :=
    fun air lastSendMs hfixed => ⟨rfl, rfl, ⟨rfl, hfixed⟩, rfl, rfl⟩
  rw [cmdSendTxtMsg]
  dsimp only
  rw [TextSession.cmdSendTxtMsg]
  split
  · exact hair app.node.air app.lastSendMs (.refl _)
  · dsimp only
    split
    · exact hair app.node.air app.lastSendMs (.refl _)
    next request hrequest dest hdest =>
      have hsent := Air.fixed_sendText lib out.view app.node.air dest
      split
      next heq =>
        obtain rfl := congrArg Prod.snd heq
        exact hair _ app.lastSendMs (hsent _ _ _)
      next heq =>
        obtain rfl := congrArg Prod.snd heq
        exact hair _ _ (hsent _ _ _)

theorem aside_cmdSendChannelTxtMsg (app : App) (args : Bytes) :
    Aside app (app.cmdSendChannelTxtMsg lib out args).2 := by
  rw [cmdSendChannelTxtMsg]
  dsimp only
  split
  · exact .refl app
  · generalize hsend : app.sendChannelText lib out.view _ _ _ = result
    have hsent : Aside app result.2 := hsend ▸ app.aside_sendChannelText _ _ _ _
    rcases result with ⟨_ | _, app'⟩
    · exact hsent
    · exact hsent

theorem aside_noteCollected (app : App) : Aside app app.noteCollected := by
  rw [noteCollected]
  split
  · exact .refl app
  · exact ⟨rfl, rfl, ⟨rfl, rfl, rfl⟩, rfl, rfl⟩

theorem aside_introduce (app : App) : Aside app app.introduce := by
  rw [introduce]
  split
  · exact .refl app
  · exact ⟨rfl, rfl, ⟨rfl, rfl, rfl⟩, rfl, rfl⟩

/-- The commands that change settings. -/
def ChangesSettings (cmd : UInt8) : Prop :=
  cmd = kCmdSetAdvertName ∨ cmd = kCmdSetAdvertLatLon ∨ cmd = kCmdSetRadioParams ∨
    cmd = kCmdSetRadioTxPower ∨ cmd = kCmdSetTuningParams

theorem Aside.ite {condition : Prop} [Decidable condition] {first second : List Bytes × App}
    (hfirst : condition → Aside app first.2) (hsecond : Aside app second.2) :
    Aside app (if condition then first else second).2 := by
  split
  next hcondition => exact hfirst hcondition
  next => exact hsecond

variable (lib sign out) in
theorem aside_command (app : App) {cmd : UInt8} (hcmd : ¬ ChangesSettings cmd) (args : Bytes) :
    Aside app (app.command lib sign out cmd args).2 := by
  obtain ⟨hname, hplace, hradio, hpower, htuning⟩ :
      cmd ≠ kCmdSetAdvertName ∧ cmd ≠ kCmdSetAdvertLatLon ∧ cmd ≠ kCmdSetRadioParams ∧
        cmd ≠ kCmdSetRadioTxPower ∧ cmd ≠ kCmdSetTuningParams := by
    simpa only [ChangesSettings, not_or] using hcmd
  rw [command]
  refine .ite (fun _ => app.aside_introduce) ?_
  refine .ite (fun _ => .refl app) ?_
  refine .ite (fun _ => .refl app) ?_
  refine .ite (fun _ => app.aside_cmdSetDeviceTime args) ?_
  refine .ite (fun _ => app.aside_sendAdvert _ _) ?_
  refine .ite (fun heq => absurd heq hname) ?_
  refine .ite (fun heq => absurd heq hplace) ?_
  refine .ite (fun _ => .refl app) ?_
  refine .ite (fun _ => .refl app) ?_
  refine .ite (fun _ => app.aside_editContacts _) ?_
  refine .ite (fun _ => app.aside_editContacts _) ?_
  refine .ite (fun _ => app.aside_editContacts _) ?_
  refine .ite (fun _ => .refl app) ?_
  refine .ite (fun _ => app.aside_cmdSendTxtMsg args) ?_
  refine .ite (fun _ => app.aside_cmdSendChannelTxtMsg args) ?_
  refine .ite (fun _ => app.aside_noteCollected) ?_
  refine .ite (fun _ => .refl app) ?_
  refine .ite (fun _ => app.aside_cmdSetChannel args) ?_
  refine .ite (fun _ => .refl app) ?_
  refine .ite (fun heq => absurd heq hradio) ?_
  refine .ite (fun heq => absurd heq hpower) ?_
  refine .ite (fun heq => absurd heq htuning) ?_
  refine .ite (fun _ => .refl app) ?_
  exact .refl app

variable (lib sign out) in
/-- Whatever the command. -/
theorem settles_command (app : App) (cmd : UInt8) (args : Bytes) :
    Settles out app (app.command lib sign out cmd args) := by
  by_cases hcmd : ChangesSettings cmd
  · rcases hcmd with rfl | rfl | rfl | rfl | rfl
    · exact settles_changeSettings ⟨args, .inl rfl⟩
    · exact settles_changeSettings ⟨args, .inr (.inl rfl)⟩
    · exact settles_changeSettings ⟨args, .inr (.inr (.inl rfl))⟩
    · exact settles_changeSettings ⟨args, .inr (.inr (.inr (.inl rfl)))⟩
    · exact settles_changeSettings ⟨args, .inr (.inr (.inr (.inr rfl)))⟩
  · exact .inl (aside_command lib sign out app hcmd args)

/-! ## Steps -/

theorem aside_onNotice (app : App) (notice : Notice) : Aside app (app.onNotice notice) := by
  have hquiet : ∀ (app : App) writer log, Aside app { app with writer, log } := fun _ _ _ =>
    ⟨rfl, rfl, ⟨rfl, rfl, rfl⟩, rfl, rfl⟩
  cases notice with
  | contactChanged pubkey isNew =>
      rw [onNotice]
      split
      · exact (app.aside_push _).trans (hquiet _ _ _)
      · exact hquiet app _ app.log
  | messageStored => exact (hquiet app app.writer _).trans (aside_push _ _)
  | ack ackHash => exact app.aside_push _
  | advertSeen pubkey => exact app.aside_push _
  | pathUpdated pubkey => exact app.aside_push _

theorem aside_onNotices (app : App) (notices : List Notice) :
    Aside app (notices.foldl onNotice app) := by
  induction notices generalizing app with
  | nil => exact .refl app
  | cons notice notices ih => exact (app.aside_onNotice notice).trans (ih _)

theorem aside_onRawRx (app : App) (raw : Bytes) (rssi snrQ4 : Int) :
    Aside app (app.onRawRx raw rssi snrQ4) := by
  rw [onRawRx]
  split
  · exact .refl app
  · exact app.aside_push _

variable {cfg : Config}

/-- A name in the state directory that is not a store's, nor of a file beside one. -/
structure Unstored (name : Bytes) : Prop where
  contacts : ¬ utf8 "/contacts" <+: name
  channels : ¬ utf8 "/channels" <+: name
  messages : ¬ utf8 "/messages" <+: name

theorem unstored_settings : Unstored (utf8 "/settings") :=
  ⟨by decide +kernel, by decide +kernel, by decide +kernel⟩

/-- What a reception stores goes to the inbox's file. -/
theorem Placed.files_receive (hplaced : Placed cfg app) {name : Bytes} (hname : Unstored name)
    (raw : Bytes) (rssi snrQ4 : Int) (m : Moment) :
    (app.node.receive lib raw rssi snrQ4 m).files (cfg.stateDir ++ name) =
      app.node.files (cfg.stateDir ++ name) := by
  obtain ⟨-, -, -, msgs, -, hmail, -⟩ := Node.receives_receive lib m app.node raw rssi snrQ4
  have hpath : app.node.inbox.path ≠ [] := by
    rw [hplaced.inbox]
    exact List.append_ne_nil_of_right_ne_nil _ (by decide +kernel)
  obtain ⟨-, hother⟩ := keeps_stored m.io hpath app.node.files msgs
  rw [← hmail] at hother
  refine hother _ ?_
  rw [hplaced.inbox]
  exact cfg.apart hname.messages

theorem Placed.aside_receive (hplaced : Placed cfg app) (raw : Bytes) (rssi snrQ4 : Int)
    (m : Moment) : Aside app { app with node := app.node.receive lib raw rssi snrQ4 m } := by
  refine ⟨rfl, rfl, Node.steady_receive lib m app.node raw rssi snrQ4, rfl, ?_⟩
  rw [hplaced.settings]
  exact hplaced.files_receive unstored_settings raw rssi snrQ4 m

theorem Placed.aside_received (hplaced : Placed cfg app) (raw : Bytes) (rssi snrQ4 : Int)
    (m : Moment) : Aside app (app.received lib raw rssi snrQ4 m) := by
  have hheard := app.aside_onRawRx raw rssi snrQ4
  have hplaced' := hplaced.keeps (app.keeps_onRawRx raw rssi snrQ4)
  exact hheard.trans ((hplaced'.aside_receive raw rssi snrQ4 _).trans (aside_onNotices _ _))

/-- A flush writes to the three stores' files. -/
theorem Placed.files_flush (hplaced : Placed cfg app) {name : Bytes} (hname : Unstored name)
    (io : FlushIo) (w : StateWriter) :
    (w.flush io app.node).2.2.files (cfg.stateDir ++ name) =
      app.node.files (cfg.stateDir ++ name) := by
  have hcontacts := cfg.flushed_elsewhere (P := contactStates) hplaced.contacts hname.contacts
    io.contacts app.node.files
  have hchannels := cfg.flushed_elsewhere (P := channelStates) hplaced.channels hname.channels
    io.channels (contactStates.flushed io.contacts app.node.contacts app.node.files).2.2
  have hinbox := cfg.flushed_elsewhere (P := inboxStates) hplaced.inbox hname.messages io.inbox
    (channelStates.flushed io.channels app.node.channels
      (contactStates.flushed io.contacts app.node.contacts app.node.files).2.2).2.2
  exact hinbox.trans (hchannels.trans hcontacts)

theorem Placed.aside_flush (hplaced : Placed cfg app) (io : FlushIo) (w : StateWriter) :
    Aside app (app.written (w.flush io app.node).2) := by
  refine ⟨rfl, rfl, ⟨rfl, rfl, rfl⟩, rfl, ?_⟩
  rw [hplaced.settings]
  exact hplaced.files_flush unstored_settings io w

theorem Placed.aside_onSaveTimer (hplaced : Placed cfg app) (io : FlushIo) :
    Aside app (app.written (app.writer.onSaveTimer io app.node)) := by
  rw [StateWriter.onSaveTimer]
  split
  · exact hplaced.aside_flush io _
  · exact .refl app

/-- The radio has its parameters from the settings, and from nobody else. -/
def Event.Own : Event → Prop
  | .chip call => ∀ params, call.1 ≠ .reconfigure params
  | _ => True

/-- Only a command changes the settings. -/
theorem Placed.aside_step (hplaced : Placed cfg app) {event : Event} (hown : event.Own)
    (hframe : ∀ out, event ≠ .frame out) : Aside app (app.step lib sign event) := by
  have hdispatcher : ∀ event : Dispatcher.Event Nat,
      (∀ percent radio, Outgoing.unanswered event ≠ .reconfigure percent radio) →
      Aside app (app.onNode lib (.dispatcher event)) := fun event hevent =>
    .of_air (Dispatcher.fixed_step ReliableSender.beyond_self lib hevent app.node.air)
  cases event with
  | accept nonblocking => exact .of_session rfl
  | feed bytes =>
      rw [step]
      split
      · exact .of_session rfl
      · exact .refl app
  | frame out => exact absurd rfl (hframe out)
  | writable => exact .of_session rfl
  | hangUp => exact .of_session rfl
  | kernel results => exact .of_session rfl
  | received raw rssi snrQ4 m => exact hplaced.aside_received raw rssi snrQ4 m
  | retry id radio => exact .of_air (Air.fixed_onTimer app.node.contacts app.node.air id)
  | advertTimer radio => exact app.aside_sendAdvert radio true
  | sweepDelivered => exact ⟨rfl, rfl, ⟨rfl, rfl, rfl⟩, rfl, rfl⟩
  | tick ms => exact hdispatcher _ (by simp [Outgoing.unanswered])
  | pumpTimer radio => exact hdispatcher _ (by simp [Outgoing.unanswered])
  | txDone airtimeMs random => exact hdispatcher _ (by simp [Outgoing.unanswered])
  | sweepSeen => exact hdispatcher _ (by simp [Outgoing.unanswered])
  | chip call => exact ⟨rfl, rfl, ⟨rfl, rfl, rfl⟩, Sx1262.params_step hown app.radio, rfl⟩
  | wallClock system => exact ⟨rfl, rfl, ⟨rfl, rfl, rfl⟩, rfl, rfl⟩
  | saveTimer io => exact hplaced.aside_onSaveTimer io
  | sweep io => exact hplaced.aside_flush io app.writer
  | requestStop io => exact (hplaced.aside_flush io app.writer).trans (.of_session rfl)

variable (lib sign) in
/-- A command leaves the settings alone or changes them, and is answered after that. -/
theorem dispatchOne_settles (app : App) (out : Surroundings) :
    Aside app (app.dispatchOne lib sign out) ∨ ∃ changes, Asked (some changes) ∧
      Aside (app.changeSettings out (some changes)).2 (app.dispatchOne lib sign out) := by
  rw [dispatchOne]
  split
  next cmd args _ =>
    rcases settles_command lib sign out app cmd args with
      haside | ⟨changes, hasked, hchanged⟩
    · exact .inl (haside.trans (aside_frame _ _))
    · rw [hchanged]
      exact .inr ⟨changes, hasked, aside_frame _ _⟩
  next => exact .inl (aside_frame _ _)

/-! ## In force -/

/-- What the daemon runs on is what is set, and that has passed every check. -/
structure InForce (defaults : Config) (app : App) : Prop where
  kept : SettingsStore.Kept defaults app.settings
  valid : app.settings.cfg.validate = .ok ()
  profile : app.profile = app.settings.cfg.profile
  node : app.node.cfg = app.settings.cfg.node
  dutyCycle : app.node.air.duty.percent = app.settings.cfg.radio.dutyCyclePct
  params : app.radio.params = app.settings.cfg.radio

variable {defaults : Config}

theorem InForce.aside (hforce : InForce defaults app) (haside : Aside app app') :
    InForce defaults app' where
  kept := by
    rw [haside.settings]
    exact hforce.kept
  valid := by
    rw [haside.settings]
    exact hforce.valid
  profile := by
    rw [haside.settings, haside.profile]
    exact hforce.profile
  node := by
    rw [haside.settings, haside.node.cfg]
    exact hforce.node
  dutyCycle := by
    rw [haside.settings, haside.node.air.percent]
    exact hforce.dutyCycle
  params := by
    rw [haside.settings, haside.params]
    exact hforce.params

/-- What a change comes to. -/
theorem changeSettings_cases (app : App) (out : Surroundings) (changes : List Change) :
    ((app.attached.accept changes = none ∧
        (app.changeSettings out (some changes)).2 = app.withSettings app.attached app.node.files) ∨
      ∃ next stored files, app.attached.accept changes = some (next, stored) ∧
        saveContent out.io app.node.files app.settings.path (settingsContent stored) false =
          (false, files) ∧
        (app.changeSettings out (some changes)).2 = app.withSettings app.attached files) ∨
    ∃ next stored files, app.attached.accept changes = some (next, stored) ∧
      saveContent out.io app.node.files app.settings.path (settingsContent stored) false =
        (true, files) ∧
      (app.changeSettings out (some changes)).2 =
        app.withSettings (SettingsStore.apply out.toApplying
          { app.attached with cfg := next, stored }) files := by
  rw [changeSettings]
  rcases app.attached.set_cases out.io out.toApplying app.node.files changes with
    ⟨hrefused, hset⟩ | ⟨next, stored, haccept, ⟨files, hsaved, hset⟩ | ⟨files, hsaved, hset⟩⟩
  · rw [hset]
    exact .inl (.inl ⟨hrefused, rfl⟩)
  · rw [hset]
    exact .inl (.inr ⟨next, stored, files, haccept, hsaved, rfl⟩)
  · rw [hset]
    exact .inr ⟨next, stored, files, haccept, hsaved, rfl⟩

theorem InForce.attached (hforce : InForce defaults app) :
    SettingsStore.Kept defaults app.attached :=
  ⟨hforce.kept.path, hforce.kept.entries, hforce.kept.unset, hforce.kept.operator⟩

/-- A change that is refused leaves what is in force. -/
theorem InForce.refused (hforce : InForce defaults app) (files : FileSystem) :
    InForce defaults (app.withSettings app.attached files) :=
  ⟨hforce.attached, hforce.valid, hforce.profile, hforce.node, hforce.dutyCycle, hforce.params⟩

/-- A change that is accepted is in force at once. -/
theorem InForce.accepted (hforce : InForce defaults app) (met : Applying) {changes : List Change}
    {next : Config} {stored : SortedMap Bytes Bytes}
    (haccept : app.attached.accept changes = some (next, stored)) (files : FileSystem) :
    InForce defaults (app.withSettings (SettingsStore.apply met
      { app.attached with cfg := next, stored }) files) := by
  obtain ⟨hkept, hvalid⟩ := hforce.attached.accept haccept
  have hruns := SettingsStore.runsOn_apply met { app.attached with cfg := next, stored } _ rfl
  have hoperator : next.operatorPart = app.settings.cfg.operatorPart :=
    hkept.operator.trans hforce.kept.operator.symm
  have htype : next.profile.advType = app.profile.advType := by
    rw [hforce.profile]
    exact SettingsStore.advType_of_operator hoperator
  have hhops : next.node.maxHops = app.node.cfg.maxHops := by
    rw [hforce.node]
    exact congrArg (·.node.maxHops) hoperator
  refine ⟨hkept.apply met, hvalid, ?_, ?_, hruns.dutyCycle, hruns.radio⟩
  · show NodeProfile.mk next.profile.name app.profile.advType next.profile.latE6
      next.profile.lonE6 = next.profile
    rw [← htype]
  · show NodeConfig.mk next.node.relay app.node.cfg.maxHops = next.node
    rw [← hhops]

theorem InForce.changeSettings (hforce : InForce defaults app) (out : Surroundings)
    (changes : List Change) :
    InForce defaults (app.changeSettings out (some changes)).2 := by
  rcases app.changeSettings_cases out changes with
    (⟨-, hleft⟩ | ⟨_, _, files, -, -, hleft⟩) | ⟨next, stored, files, haccept, -, hleft⟩
  · rw [hleft]
    exact hforce.refused _
  · rw [hleft]
    exact hforce.refused _
  · rw [hleft]
    exact hforce.accepted _ haccept files

theorem InForce.step (hforce : InForce defaults app) (hplaced : Placed cfg app) {event : Event}
    (hown : event.Own) : InForce defaults (app.step lib sign event) := by
  by_cases hframe : ∃ out, event = .frame out
  · obtain ⟨out, rfl⟩ := hframe
    rcases dispatchOne_settles lib sign app out with
      haside | ⟨changes, -, haside⟩
    · exact hforce.aside haside
    · exact (hforce.changeSettings out changes).aside haside
  · exact hforce.aside (hplaced.aside_step hown fun out heq => hframe ⟨out, heq⟩)

end App

/-! ## Startup -/

/-- A name of eight digits passes. -/
theorem validate_named (stateDir : Bytes) (radio : RadioParams) (node : NodeConfig)
    (self : Crypto.LocalIdentity) :
    ((Config.loaded stateDir radio node).named self).validate = .ok () := by
  have hlength : (defaultName self.pub).length = 8 := by
    rw [defaultName, List.length_map, length_hex, subview, List.drop_zero, List.length_take,
      self.pub_length]
    rfl
  have hcontrol : (defaultName self.pub).any Config.isControl = false := by
    rw [List.any_eq_false]
    intro byte hbyte
    obtain ⟨digit, hdigit, rfl⟩ := List.mem_map.mp hbyte
    have hnibble := nibble_isSome_of_mem_hex hdigit
    have hall : ∀ n : Fin 256, (nibble (UInt8.ofNat n)).isSome = true →
        Config.isControl (toUpper (UInt8.ofNat n)) = false := by decide +kernel
    have hpassed := hall ⟨digit.toNat, digit.toNat_lt⟩ (by simpa using hnibble)
    simpa using hpassed
  have hname : ((Config.loaded stateDir radio node).named self).profile =
      { name := defaultName self.pub } := rfl
  have hne : defaultName self.pub ≠ [] := List.ne_nil_of_length_pos (by omega)
  rw [Config.validate, hname, if_neg hne, hcontrol]
  dsimp only
  rw [hlength]
  rfl

namespace SettingsStore

/-- What is not in the file is as the defaults have it, so the radio's parameters pass
if the defaults' do. -/
theorem Kept.accepted {defaults : Config} {store : SettingsStore} (hkept : Kept defaults store)
    (hradio : RadioAccepted defaults.radio) : RadioAccepted store.cfg.radio := by
  have hrange : ∀ s ∈ settings, s.InRange defaults → s.InRange store.cfg := by
    intro s hs hdefault
    cases hfound : store.stored.find s.text with
    | none => exact (hkept.unset s hs hfound).symm.inRange hdefault
    | some value =>
        obtain ⟨own, hown, htext, -, hown'⟩ := hkept.entries s.text value hfound
        rwa [eq_of_text hown hs htext] at hown'
  have hsf : Setting.loraSf.InRange defaults := by
    have hlow := UInt8.le_iff_toNat_le.mp hradio.sf.1
    have hhigh := UInt8.le_iff_toNat_le.mp hradio.sf.2
    exact ⟨Int.ofNat_le.mpr hlow, Int.ofNat_le.mpr hhigh⟩
  have hcr : Setting.loraCr.InRange defaults := by
    have hlow := UInt8.le_iff_toNat_le.mp hradio.cr.1
    have hhigh := UInt8.le_iff_toNat_le.mp hradio.cr.2
    exact ⟨Int.ofNat_le.mpr hlow, Int.ofNat_le.mpr hhigh⟩
  obtain ⟨hsfLow, hsfHigh⟩ := hrange .loraSf (by simp [settings]) hsf
  obtain ⟨hcrLow, hcrHigh⟩ := hrange .loraCr (by simp [settings]) hcr
  exact {
    freq := hrange .loraFreq (by simp [settings]) hradio.freq
    bandwidth := hrange .loraBw (by simp [settings]) hradio.bandwidth
    sf := ⟨UInt8.le_iff_toNat_le.mpr (Int.ofNat_le.mp hsfLow),
      UInt8.le_iff_toNat_le.mpr (Int.ofNat_le.mp hsfHigh)⟩
    cr := ⟨UInt8.le_iff_toNat_le.mpr (Int.ofNat_le.mp hcrLow),
      UInt8.le_iff_toNat_le.mpr (Int.ofNat_le.mp hcrHigh)⟩
    txPower := hrange .loraTxPower (by simp [settings]) hradio.txPower
    dutyCycle := hrange .dutyCycle (by simp [settings]) hradio.dutyCycle }

end SettingsStore

namespace App

variable {boot : Boot} {app : App}

/-- The daemon starts on the settings it loads, and they are in force. -/
theorem start_settings (hstart : start boot = some app) :
    (SettingsStore.make (boot.cfg.named boot.self)).load boot.files = .ok app.settings ∧
      app.profile = app.settings.cfg.profile ∧ app.node.cfg = app.settings.cfg.node ∧
      app.node.air.duty.percent = app.settings.cfg.radio.dutyCyclePct ∧
      app.radio.params = app.settings.cfg.radio := by
  rw [start] at hstart
  dsimp only at hstart
  split at hstart
  · cases hstart
  next settings hload =>
    split at hstart
    · cases hstart
    next radio hradio =>
      obtain rfl := Option.some.inj hstart
      have hparams := Sx1262.params_start
        { Sx1262.new settings.cfg.radio boot.pins boot.retryIntervalMs boot.time with
          script := boot.replies }
      rw [hradio] at hparams
      exact ⟨hload, rfl, rfl, rfl, hparams⟩

theorem inForce_start {stateDir : Bytes} {radio : RadioParams} {node : NodeConfig}
    (hcfg : boot.cfg = Config.loaded stateDir radio node) (hstart : start boot = some app) :
    InForce (boot.cfg.named boot.self) app := by
  obtain ⟨hload, hprofile, hnode, hduty, hparams⟩ := start_settings hstart
  refine ⟨(SettingsStore.Kept.make _).load hload, ?_, hprofile, hnode, hduty, hparams⟩
  rcases SettingsStore.load_cases hload with hfresh | hvalid
  · rw [hfresh, hcfg]
    exact validate_named stateDir radio node boot.self
  · exact hvalid

/-- The stores stay in place in every run. -/
theorem placed_step {cfg : Config} {lib : Crypto.Library} {sign : Bytes → Bytes}
    (hplaced : Placed cfg app) (event : Event) : Placed cfg (app.step lib sign event) :=
  hplaced.keeps (hplaced.keeps_step event)

/-- In force, and every store at its place, along every run. -/
theorem inForce_run (lib : Crypto.Library) (sign : Bytes → Bytes) {defaults cfg : Config}
    (hforce : InForce defaults app) (hplaced : Placed cfg app) {events : List Event}
    (hown : ∀ event ∈ events, event.Own) :
    InForce defaults (run (step lib sign) app events) ∧
      Placed cfg (run (step lib sign) app events) := by
  have hstep : ∀ (app : App) (event : Event), (InForce defaults app ∧ Placed cfg app) →
      event.Own → InForce defaults (app.step lib sign event) ∧
        Placed cfg (app.step lib sign event) :=
    fun app event ⟨hforce, hplaced⟩ hown => ⟨hforce.step hplaced hown, placed_step hplaced event⟩
  exact Along.invariant hstep ⟨hforce, hplaced⟩ (along_of_forall (fun event hmem _ =>
    hown event hmem) app)

/-- **What runs is what is set.** The daemon starts with any config file, key, state
directory and radio that it takes, and anything happens to it. At every moment the node,
its advert, the dispatcher's duty cycle and the radio have what the settings say, and
that has passed the checks of the settings file: the radio's parameters are in range and
the advert fits. -/
theorem runs_as_set (lib : Crypto.Library) (sign : Bytes → Bytes) {stateDir : Bytes}
    {radio : RadioParams} {node : NodeConfig}
    (hcfg : boot.cfg = Config.loaded stateDir radio node) (hradio : RadioAccepted radio)
    (hstart : start boot = some app) {events : List Event}
    (hown : ∀ event ∈ events, event.Own) :
    let after := run (step lib sign) app events
    InForce (boot.cfg.named boot.self) after ∧ RadioAccepted after.radio.params ∧
      after.profile.Advertisable := by
  intro after
  have hforce : InForce (boot.cfg.named boot.self) after :=
    (inForce_run lib sign (inForce_start hcfg hstart) (backed_start hstart).1 hown).1
  have hdefaults : (boot.cfg.named boot.self).radio = radio ∧
      (boot.cfg.named boot.self).profile.advType = kAdvTypeChat := by
    rw [hcfg]
    exact ⟨rfl, rfl⟩
  refine ⟨hforce, ?_, ?_⟩
  · rw [hforce.params]
    refine hforce.kept.accepted ?_
    rw [hdefaults.1]
    exact hradio
  · rw [hforce.profile]
    exact advertisable_of_validate hforce.valid
      ((SettingsStore.advType_of_operator hforce.kept.operator).trans hdefaults.2)

/-- An app names the node, moves it to another frequency and has it relay. -/
def sampleSettings : List Event :=
  let radioParams := [kCmdSetRadioParams] ++ putU32 869495 ++ putU32 62500 ++ [9, 6, 1]
  [.accept true, .feed (frameResponse ([kCmdSetAdvertName] ++ utf8 "hilltop")),
    .frame { view := .down }, .feed (frameResponse radioParams), .frame { view := .down }]

/-- All of it is in force. -/
theorem runs_as_set_sample :
    ∃ app, start sampleBoot = some app ∧
      let after := run (step .transparent SettingsStore.sampleSign) app sampleSettings
      after.profile.name = utf8 "hilltop" ∧ after.node.cfg.relay = true ∧
        after.radio.params.sf = 9 ∧
        InForce (sampleBoot.cfg.named sampleBoot.self) after ∧ RadioAccepted after.radio.params ∧
        after.profile.Advertisable := by
  have hrun : (start sampleBoot).any (fun app =>
      let after := run (step .transparent SettingsStore.sampleSign) app sampleSettings
      decide (after.profile.name = utf8 "hilltop" ∧ after.node.cfg.relay = true ∧
        after.radio.params.sf = 9)) = true := by
    decide +kernel
  obtain ⟨app, hstart, hreached⟩ := (Option.any_eq_true _ _).mp hrun
  obtain ⟨hname, hrelay, hsf⟩ := of_decide_eq_true hreached
  refine ⟨app, hstart, hname, hrelay, hsf, runs_as_set .transparent SettingsStore.sampleSign
    (show sampleBoot.cfg = Config.loaded (utf8 "/var/lib/coreletd") {} {} from rfl) ?_ hstart ?_⟩
  · exact ⟨by decide +kernel, by decide +kernel, by decide, by decide, by decide,
      by decide +kernel⟩
  · intro event hmem
    simp only [sampleSettings, List.mem_cons, List.not_mem_nil, or_false] at hmem
    rcases hmem with rfl | rfl | rfl | rfl | rfl <;> trivial

end App

end Daemon

end Coreletd
