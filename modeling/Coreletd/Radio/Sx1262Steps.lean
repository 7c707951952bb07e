/-
# What one call into the driver can do

Talking to the chip moves the clock and adds commands to the trace, nothing
else. Above that, a call is quiet towards the transmission in flight, begins
one, or ends one; the inversion says so once for every event.
-/

import Coreletd.Radio.Sx1262

namespace Coreletd.Radio.Sx1262

open Coreletd.Library
open Coreletd.Library.SerialClock

/-- Only commands were exchanged, and time passed. -/
def Talked (d d' : Sx1262) : Prop :=
  ∃ (script : List Reply) (time : Nat) (commands : List Opcode), d.time ≤ time ∧
    d' = { d with script, time, trace := commands.map .command ++ d.trace }

theorem Talked.refl (d : Sx1262) : Talked d d := ⟨d.script, d.time, [], le_rfl, rfl⟩

theorem Talked.trans {d d' d'' : Sx1262} (hfirst : Talked d d') (hsecond : Talked d' d'') :
    Talked d d'' := by
  obtain ⟨_, time, commands, htime, rfl⟩ := hfirst
  obtain ⟨script', time', commands', htime', rfl⟩ := hsecond
  refine ⟨script', time', commands' ++ commands, le_trans htime htime', ?_⟩
  simp

/-- Talked, with no commands but those allowed. -/
def Issued (allowed : Opcode → Bool) (d d' : Sx1262) : Prop :=
  ∃ (script : List Reply) (time : Nat) (commands : List Opcode),
    (∀ opcode ∈ commands, allowed opcode = true) ∧ d.time ≤ time ∧
    d' = { d with script, time, trace := commands.map .command ++ d.trace }

theorem Issued.refl (allowed : Opcode → Bool) (d : Sx1262) : Issued allowed d d :=
  ⟨d.script, d.time, [], by simp, le_rfl, rfl⟩

theorem Issued.trans {allowed : Opcode → Bool} {d d' d'' : Sx1262} (hfirst : Issued allowed d d')
    (hsecond : Issued allowed d' d'') : Issued allowed d d'' := by
  obtain ⟨_, time, commands, hallowed, htime, rfl⟩ := hfirst
  obtain ⟨script', time', commands', hallowed', htime', rfl⟩ := hsecond
  refine ⟨script', time', commands' ++ commands, ?_, le_trans htime htime', ?_⟩
  · intro opcode hopcode
    rcases List.mem_append.mp hopcode with hlate | hearly
    · exact hallowed' opcode hlate
    · exact hallowed opcode hearly
  · simp

theorem Issued.talked {allowed : Opcode → Bool} {d d' : Sx1262} (h : Issued allowed d d') :
    Talked d d' := by
  obtain ⟨script, time, commands, _, htime, heq⟩ := h
  exact ⟨script, time, commands, htime, heq⟩

section Issued

variable (allowed : Opcode → Bool)

theorem issued_record (d : Sx1262) {opcode : Opcode} (hopcode : allowed opcode = true) :
    Issued allowed d (d.record (.command opcode)) :=
  ⟨d.script, d.time, [opcode], by simpa using hopcode, le_rfl, rfl⟩

theorem issued_sleep (d : Sx1262) (ms : Nat) : Issued allowed d { d with time := d.time + ms } :=
  ⟨d.script, d.time + ms, [], by simp, Nat.le_add_right _ _, rfl⟩

theorem issued_io (d : Sx1262) : Issued allowed d d.io.2 := by
  rw [io]
  split
  · exact .refl allowed d
  · next r script _ => exact ⟨script, d.time + r.ms, [], by simp, Nat.le_add_right _ _, rfl⟩

theorem issued_perform (d : Sx1262) (action : Action)
    (haction : ∀ opcode, action = .cmd opcode → allowed opcode = true) :
    Issued allowed d (d.perform action).2 := by
  cases action with
  | cmd opcode =>
      simp only [perform]
      split
      · exact (issued_io allowed d).trans (issued_record allowed _ (haction opcode rfl))
      · exact issued_io allowed d
  | line pin level =>
      simp only [perform]
      split
      · exact issued_io allowed d
      · exact .refl allowed d
  | waitBusy => exact issued_io allowed d
  | sleep ms => exact issued_sleep allowed d ms

theorem issued_attempt (d : Sx1262) (calls : List (Action × String))
    (hcalls : ∀ call ∈ calls, ∀ opcode, call.1 = .cmd opcode → allowed opcode = true) :
    Issued allowed d (d.attempt calls).2 := by
  induction calls generalizing d with
  | nil => exact .refl allowed d
  | cons call rest ih =>
      obtain ⟨action, what⟩ := call
      have hperform := issued_perform allowed d action (hcalls _ List.mem_cons_self)
      have hrest := fun d => ih d fun call hcall => hcalls call (List.mem_cons_of_mem _ hcall)
      rw [attempt]
      cases heq : d.perform action with
      | mk ok d' =>
          rw [heq] at hperform
          cases ok with
          | true => exact hperform.trans (hrest d')
          | false => exact hperform

theorem issued_read (d : Sx1262) {opcode : Opcode} (hopcode : allowed opcode = true) (count : Nat) :
    Issued allowed d (d.read opcode count).2 := by
  simp only [read]
  split
  · exact (issued_io allowed d).trans (issued_record allowed _ hopcode)
  · exact issued_io allowed d

end Issued

theorem talked_record (opcode : Opcode) (d : Sx1262) : Talked d (d.record (.command opcode)) :=
  ⟨d.script, d.time, [opcode], le_rfl, rfl⟩

theorem talked_sleep (d : Sx1262) (ms : Nat) : Talked d { d with time := d.time + ms } :=
  ⟨d.script, d.time + ms, [], Nat.le_add_right _ _, rfl⟩

theorem talked_io (d : Sx1262) : Talked d d.io.2 :=
  (issued_io (fun _ => true) d).talked

theorem talked_perform (d : Sx1262) (action : Action) : Talked d (d.perform action).2 :=
  (issued_perform (fun _ => true) d action fun _ _ => rfl).talked

theorem talked_attempt (d : Sx1262) (calls : List (Action × String)) :
    Talked d (d.attempt calls).2 :=
  (issued_attempt (fun _ => true) d calls fun _ _ _ _ => rfl).talked

theorem talked_read (d : Sx1262) (opcode : Opcode) (count : Nat) :
    Talked d (d.read opcode count).2 :=
  (issued_read (fun _ => true) d rfl count).talked

/-- The commands the interrupt handler needs to take a packet in. -/
def listens : Opcode → Bool
  | .getIrqStatus => true
  | .clearIrqStatus => true
  | .getRxBufferStatus => true
  | .readBuffer => true
  | .getPacketStatus => true
  | .setRx => true
  | _ => false

theorem issued_setRxMode (d : Sx1262) : Issued listens d d.setRxMode.2 := by
  refine issued_attempt listens d _ fun call hcall opcode hopcode => ?_
  simp only [rxModeCalls, List.mem_cons, List.not_mem_nil, or_false] at hcall
  rcases hcall with rfl | rfl | rfl | rfl <;> cases hopcode <;> rfl

theorem talked_setRxMode (d : Sx1262) : Talked d d.setRxMode.2 := talked_attempt d _

theorem talked_chipResponding (d : Sx1262) : Talked d d.chipResponding.2 := by
  have hread := talked_read d .readRegister 6
  rw [chipResponding]
  cases heq : d.read .readRegister 6 with
  | mk version d' =>
      rw [heq] at hread
      cases version <;> exact hread

theorem talked_awaitStandby (deadline : UInt32) (d : Sx1262) (script : List Reply) :
    Talked d (awaitStandby deadline d script).2 := by
  induction script generalizing d with
  | nil => exact ⟨[], d.time, [.setStandby], le_rfl, rfl⟩
  | cons r script ih =>
      have hturn : Talked d { d with script, time := d.time + r.ms } :=
        ⟨script, d.time + r.ms, [], Nat.le_add_right _ _, rfl⟩
      simp only [awaitStandby]
      split
      · exact hturn.trans (talked_record _ _)
      · split
        · exact hturn
        · exact (hturn.trans (talked_sleep _ 10)).trans (ih _)

theorem talked_setReset (d : Sx1262) : Talked d d.setReset.2 := talked_io d

theorem talked_resetChip (d : Sx1262) : Talked d d.resetChip.2 := by
  rw [resetChip]
  split
  · exact Talked.refl d
  · have hassert := talked_setReset d
    generalize d.setReset = asserted at hassert ⊢
    rcases asserted with ⟨_ | _, d₁⟩
    · exact hassert
    · have hrelease := (hassert.trans (talked_sleep d₁ 2)).trans (talked_setReset _)
      dsimp only at hrelease ⊢
      generalize setReset _ = released at hrelease ⊢
      rcases released with ⟨_ | _, d₂⟩
      · exact hrelease
      · have hwait := (hrelease.trans (talked_sleep d₂ 20)).trans (talked_perform _ .waitBusy)
        dsimp only at hwait ⊢
        generalize perform _ _ = waited at hwait ⊢
        rcases waited with ⟨_ | _, d₃⟩
        · exact hwait
        · exact hwait.trans (talked_awaitStandby _ d₃ d₃.script)

theorem issued_takeIrq (d : Sx1262) : Issued listens d d.takeIrq.2 := by
  have hread := issued_read listens d (show listens .getIrqStatus = true from rfl) 2
  rw [takeIrq]
  generalize d.read .getIrqStatus 2 = status at hread ⊢
  rcases status with ⟨_ | status, d₁⟩
  · exact hread
  · dsimp only at hread ⊢
    split
    · exact hread
    · have hclear := hread.trans (issued_perform listens d₁ (.cmd .clearIrqStatus)
        (by rintro opcode ⟨⟩; rfl))
      generalize d₁.perform (.cmd .clearIrqStatus) = cleared at hclear ⊢
      rcases cleared with ⟨_ | _, d₂⟩ <;> exact hclear

theorem issued_failedReception (irq : UInt16) (d : Sx1262) :
    Issued listens d (d.failedReception irq).2 := by
  simp only [failedReception]
  generalize (if has irq kIrqCrcErr then RxError.crcError
    else if has irq kIrqHeaderErr then .headerError else .timeout) = error
  by_cases htimeout : error = .timeout
  · rw [if_pos htimeout]
    exact .refl listens d
  · rw [if_neg htimeout]
    have hread := issued_read listens d (show listens .getPacketStatus = true from rfl) 3
    generalize d.read .getPacketStatus 3 = status at hread ⊢
    rcases status with ⟨_ | _, d₁⟩ <;> exact hread

theorem issued_readPacket (d : Sx1262) : Issued listens d d.readPacket.2 := by
  have hstatus := issued_read listens d (show listens .getRxBufferStatus = true from rfl) 2
  rw [readPacket]
  generalize d.read .getRxBufferStatus 2 = bufStatus at hstatus ⊢
  rcases bufStatus with ⟨_ | bufStatus, d₁⟩
  · exact hstatus
  · dsimp only at hstatus ⊢
    split
    · have hmode := hstatus.trans (issued_setRxMode d₁)
      generalize d₁.setRxMode = mode at hmode ⊢
      rcases mode with ⟨_ | _, d₂⟩ <;> exact hmode
    · have hdata := hstatus.trans (issued_read listens d₁
        (show listens .readBuffer = true from rfl) (bufStatus.getD 0 0).toNat)
      generalize d₁.read .readBuffer (bufStatus.getD 0 0).toNat = data at hdata ⊢
      rcases data with ⟨_ | data, d₂⟩
      · exact hdata
      · have hsignal := hdata.trans
          (issued_read listens d₂ (show listens .getPacketStatus = true from rfl) 3)
        dsimp only at hsignal ⊢
        generalize d₂.read .getPacketStatus 3 = pktStatus at hsignal ⊢
        rcases pktStatus with ⟨_ | pktStatus, d₃⟩
        · exact hsignal
        · have hmode := hsignal.trans (issued_setRxMode d₃)
          dsimp only at hmode ⊢
          generalize d₃.setRxMode = mode at hmode ⊢
          rcases mode with ⟨_ | _, d₄⟩ <;> exact hmode

theorem talked_takeIrq (d : Sx1262) : Talked d d.takeIrq.2 := (issued_takeIrq d).talked

theorem talked_failedReception (irq : UInt16) (d : Sx1262) :
    Talked d (d.failedReception irq).2 := (issued_failedReception irq d).talked

theorem talked_readPacket (d : Sx1262) : Talked d d.readPacket.2 := (issued_readPacket d).talked

/-! ## Quiet calls -/

/-- Activity of the transmitter, as the dispatcher sees it. -/
def transmits : Activity → Bool
  | .sent _ => true
  | .txDone _ => true
  | _ => false

/-- The transmission in flight was left alone, and none was begun or ended. With
none in flight, a timeout left over does not matter. -/
structure Quiet (d d' : Sx1262) : Prop where
  time : d.time ≤ d'.time
  txBusy : d'.txBusy = d.txBusy
  txStartedMs : d'.txStartedMs = d.txStartedMs
  txTimeout : d.txBusy = true → d'.txTimeout = d.txTimeout
  trace : ∃ news, (∀ a ∈ news, transmits a = false) ∧ d'.trace = news ++ d.trace

/-- What leaves the transmitter's fields alone is quiet. -/
theorem Quiet.of_eq {d d' : Sx1262} (htime : d'.time = d.time) (hbusy : d'.txBusy = d.txBusy)
    (hstarted : d'.txStartedMs = d.txStartedMs) (htimeout : d'.txTimeout = d.txTimeout)
    (htrace : d'.trace = d.trace) : Quiet d d' :=
  ⟨htime.ge, hbusy, hstarted, fun _ => htimeout, [], by simp, by simp [htrace]⟩

theorem Quiet.refl (d : Sx1262) : Quiet d d := .of_eq rfl rfl rfl rfl rfl

theorem Quiet.trans {d d' d'' : Sx1262} (hfirst : Quiet d d') (hsecond : Quiet d' d'') :
    Quiet d d'' := by
  obtain ⟨news, hnews, htrace⟩ := hfirst.trace
  obtain ⟨news', hnews', htrace'⟩ := hsecond.trace
  refine ⟨le_trans hfirst.time hsecond.time, hsecond.txBusy.trans hfirst.txBusy,
    hsecond.txStartedMs.trans hfirst.txStartedMs, ?_, news' ++ news, ?_, ?_⟩
  · intro hbusy
    exact (hsecond.txTimeout (hfirst.txBusy.trans hbusy)).trans (hfirst.txTimeout hbusy)
  · intro a ha
    rcases List.mem_append.mp ha with hlate | hearly
    · exact hnews' a hlate
    · exact hnews a hearly
  · rw [htrace', htrace, List.append_assoc]

theorem Talked.quiet {d d' : Sx1262} (h : Talked d d') : Quiet d d' := by
  obtain ⟨_, _, commands, htime, rfl⟩ := h
  refine ⟨htime, rfl, rfl, fun _ => rfl, commands.map .command, ?_, rfl⟩
  intro a ha
  obtain ⟨_, _, rfl⟩ := List.mem_map.mp ha
  rfl

theorem quiet_record {a : Activity} (ha : transmits a = false) (d : Sx1262) :
    Quiet d (d.record a) :=
  ⟨le_rfl, rfl, rfl, fun _ => rfl, [a], by simpa using ha, rfl⟩

theorem quiet_configure (d : Sx1262) : Quiet d d.configure.2 := by
  have hcalls := (talked_attempt d (configureCalls d.params)).quiet
  rw [configure]
  generalize d.attempt (configureCalls d.params) = calls at hcalls ⊢
  rcases calls with ⟨_ | _, d₁⟩
  · exact hcalls
  · exact hcalls.trans (.of_eq rfl rfl rfl rfl rfl)

theorem quiet_startChip (d : Sx1262) : Quiet d d.startChip.2 := by
  have hanswer := (talked_chipResponding d).quiet
  rw [startChip]
  generalize d.chipResponding = answer at hanswer ⊢
  rcases answer with ⟨_ | _, d₁⟩
  · exact hanswer
  · have hconfigure := hanswer.trans (quiet_configure d₁)
    dsimp only at hconfigure ⊢
    generalize d₁.configure = configured at hconfigure ⊢
    rcases configured with ⟨_ | _, d₂⟩
    · exact hconfigure
    · have hmode := hconfigure.trans (talked_setRxMode d₂).quiet
      dsimp only at hmode ⊢
      generalize d₂.setRxMode = mode at hmode ⊢
      rcases mode with ⟨_ | _, d₃⟩ <;> exact hmode

theorem quiet_bringUp (d : Sx1262) : Quiet d d.bringUp.2 := by
  have hreset := (talked_resetChip d).quiet
  rw [bringUp]
  generalize d.resetChip = reset at hreset ⊢
  rcases reset with ⟨_ | _, d₁⟩
  · exact hreset
  · have hstart := hreset.trans (quiet_startChip d₁)
    dsimp only at hstart ⊢
    generalize d₁.startChip = started at hstart ⊢
    rcases started with ⟨_ | _, d₂⟩
    · exact hstart
    · exact hstart.trans (.of_eq rfl rfl rfl rfl rfl)

/-- Switching both antenna lines off, whether or not that works. -/
theorem talked_switchOff (d : Sx1262) :
    Talked d (((d.perform (.line .txen false)).2).perform (.line .rxen false)).2 :=
  (talked_perform d _).trans (talked_perform _ _)

theorem quiet_recoveryFailed (error : String) (d : Sx1262) : Quiet d (d.recoveryFailed error) := by
  rw [recoveryFailed]
  have hstop : Quiet d { d with recovering := false, recoveryTimer := none } :=
    .of_eq rfl rfl rfl rfl rfl
  have hoff := hstop.trans (talked_switchOff _).quiet
  exact hoff.trans (.of_eq rfl rfl rfl rfl rfl)

theorem quiet_armRecovery (next : RecoveryStep) (delayMs : UInt32) (d : Sx1262) :
    Quiet d (d.armRecovery next delayMs) :=
  .of_eq rfl rfl rfl rfl rfl

theorem quiet_startRecovery (d : Sx1262) : Quiet d d.startRecovery := by
  rw [startRecovery]
  split
  · exact Quiet.refl d
  · have hflag : Quiet d { d with recovering := true } := .of_eq rfl rfl rfl rfl rfl
    dsimp only
    split
    · exact hflag.trans (quiet_recoveryFailed _ _)
    · have hassert := hflag.trans (talked_setReset _).quiet
      generalize setReset _ = asserted at hassert ⊢
      rcases asserted with ⟨_ | _, d₁⟩
      · exact hassert.trans (quiet_recoveryFailed _ d₁)
      · exact hassert.trans (quiet_armRecovery _ _ d₁)

theorem quiet_releaseReset (d : Sx1262) : Quiet d d.releaseReset := by
  rw [releaseReset]
  split
  · exact Quiet.refl d
  · have hrelease := (talked_setReset d).quiet
    generalize d.setReset = released at hrelease ⊢
    rcases released with ⟨_ | _, d₁⟩
    · exact hrelease.trans (quiet_recoveryFailed _ d₁)
    · exact hrelease.trans (.of_eq rfl rfl rfl rfl rfl)

theorem quiet_pollAgain (error : String) (d : Sx1262) : Quiet d (d.pollAgain error) := by
  rw [pollAgain]
  split
  · exact quiet_recoveryFailed error d
  · exact quiet_armRecovery _ _ d

theorem talked_busyLevel (d : Sx1262) : Talked d d.busyLevel.2 := by
  simp only [busyLevel]
  split
  · exact Talked.refl d
  · split <;> exact talked_io d

theorem quiet_pollResetBusy (d : Sx1262) : Quiet d d.pollResetBusy := by
  rw [pollResetBusy]
  split
  · exact Quiet.refl d
  · have hlevel := (talked_busyLevel d).quiet
    generalize d.busyLevel = level at hlevel ⊢
    rcases level with ⟨_ | _ | _, d₁⟩
    · exact hlevel.trans (quiet_recoveryFailed _ d₁)
    · have hstandby := hlevel.trans (talked_perform d₁ (.cmd .setStandby)).quiet
      dsimp only at hstandby ⊢
      generalize d₁.perform (.cmd .setStandby) = standby at hstandby ⊢
      rcases standby with ⟨_ | _, d₂⟩
      · exact hstandby.trans (quiet_pollAgain _ d₂)
      · have hstart := hstandby.trans (quiet_startChip d₂)
        dsimp only at hstart ⊢
        generalize d₂.startChip = started at hstart ⊢
        rcases started with ⟨_ | _, d₃⟩
        · exact hstart.trans (quiet_recoveryFailed _ d₃)
        · exact hstart.trans (.of_eq rfl rfl rfl rfl rfl)
    · exact hlevel.trans (quiet_pollAgain _ d₁)

theorem quiet_onRecoveryTimer (d : Sx1262) : Quiet d d.onRecoveryTimer := by
  rw [onRecoveryTimer]
  cases d.recoveryTimer with
  | none => exact Quiet.refl d
  | some armed =>
      obtain ⟨next, dueMs⟩ := armed
      have hfired : Quiet d { d with recoveryTimer := none } := .of_eq rfl rfl rfl rfl rfl
      dsimp only
      split
      · exact Quiet.refl d
      · cases next with
        | releaseReset => exact hfired.trans (quiet_releaseReset _)
        | pollResetBusy => exact hfired.trans (quiet_pollResetBusy _)

theorem talked_acquire (d : Sx1262) : Talked d d.acquire.2 := by
  simp only [acquire]
  split <;> exact talked_io d

/-- Only commands were exchanged and lines taken, and time passed. -/
def Acquired (d d' : Sx1262) : Prop :=
  ∃ (resetLine busyLine rxenLine txenLine : Bool),
    Talked { d with resetLine, busyLine, rxenLine, txenLine } d'

theorem Talked.acquired {d d' : Sx1262} (h : Talked d d') : Acquired d d' :=
  ⟨d.resetLine, d.busyLine, d.rxenLine, d.txenLine, h⟩

theorem Acquired.trans {d d' d'' : Sx1262} (hfirst : Acquired d d') (hsecond : Acquired d' d'') :
    Acquired d d'' := by
  obtain ⟨_, _, _, _, _, time, commands, htime, rfl⟩ := hfirst
  obtain ⟨reset, busy, rxen, txen, script', time', commands', htime', rfl⟩ := hsecond
  refine ⟨reset, busy, rxen, txen, script', time', commands' ++ commands, le_trans htime htime', ?_⟩
  simp

theorem Acquired.quiet {d d' : Sx1262} (h : Acquired d d') : Quiet d d' := by
  obtain ⟨_, _, _, _, htalked⟩ := h
  have hlines := htalked.quiet
  exact ⟨hlines.time, hlines.txBusy, hlines.txStartedMs, hlines.txTimeout, hlines.trace⟩

theorem acquired_acquireSwitch (d : Sx1262) (line : Line) :
    Acquired d (d.acquireSwitch line).2 := by
  have hacquire := (talked_acquire d).acquired
  cases line with
  | rxen =>
      rw [acquireSwitch]
      split
      · exact (Talked.refl d).acquired
      · generalize d.acquire = acquired at hacquire ⊢
        rcases acquired with ⟨_ | _, d₁⟩
        · exact hacquire
        · exact hacquire.trans ⟨d₁.resetLine, d₁.busyLine, true, d₁.txenLine, .refl _⟩
  | txen =>
      rw [acquireSwitch]
      split
      · exact (Talked.refl d).acquired
      · generalize d.acquire = acquired at hacquire ⊢
        rcases acquired with ⟨_ | _, d₁⟩
        · exact hacquire
        · exact hacquire.trans ⟨d₁.resetLine, d₁.busyLine, d₁.rxenLine, true, .refl _⟩

theorem acquired_acquireLines (d : Sx1262) : Acquired d d.acquireLines.2 := by
  have hreset := (talked_acquire d).acquired
  rw [acquireLines]
  generalize d.acquire = reset at hreset ⊢
  rcases reset with ⟨_ | _, d₁⟩
  · exact hreset
  · have hheld : Acquired d { d₁ with resetLine := true } :=
      hreset.trans ⟨true, d₁.busyLine, d₁.rxenLine, d₁.txenLine, .refl _⟩
    have hbusy := hheld.trans (talked_acquire _).acquired
    dsimp only
    generalize acquire _ = busy at hbusy ⊢
    rcases busy with ⟨_ | _, d₂⟩
    · exact hbusy
    · have hheld₂ : Acquired d { d₂ with busyLine := true } :=
        hbusy.trans ⟨d₂.resetLine, true, d₂.rxenLine, d₂.txenLine, .refl _⟩
      have hirq := hheld₂.trans (talked_acquire _).acquired
      dsimp only
      generalize acquire _ = irq at hirq ⊢
      rcases irq with ⟨_ | _, d₃⟩
      · exact hirq
      · have hrxen := hirq.trans (acquired_acquireSwitch d₃ .rxen)
        dsimp only at hrxen ⊢
        generalize d₃.acquireSwitch .rxen = rxen at hrxen ⊢
        rcases rxen with ⟨_ | _, d₄⟩
        · exact hrxen
        · exact hrxen.trans (acquired_acquireSwitch d₄ .txen)

theorem acquired_openDevices (d : Sx1262) : Acquired d d.openDevices.2 := by
  have hspi := (talked_acquire d).acquired
  rw [openDevices]
  generalize d.acquire = spi at hspi ⊢
  rcases spi with ⟨_ | _, d₁⟩
  · exact hspi
  · have hchip := hspi.trans (talked_acquire d₁).acquired
    dsimp only at hchip ⊢
    generalize d₁.acquire = chip at hchip ⊢
    rcases chip with ⟨_ | _, d₂⟩
    · exact hchip
    · dsimp only at hchip ⊢
      split
      · exact hchip
      · exact hchip.trans (acquired_acquireLines d₂)

theorem quiet_start (d : Sx1262) : Quiet d d.start.2 := by
  have hbegun : Quiet d { d with begun := true } := .of_eq rfl rfl rfl rfl rfl
  have hopen := hbegun.trans (acquired_openDevices _).quiet
  rw [start]
  generalize openDevices _ = opened at hopen ⊢
  rcases opened with ⟨_ | _, d₁⟩
  · exact hopen
  · have hwatch : Quiet d { d₁ with watching := true } :=
      hopen.trans (.of_eq rfl rfl rfl rfl rfl)
    dsimp only
    split
    · split
      · exact hwatch
      · have hup := hwatch.trans (quiet_bringUp _)
        generalize bringUp _ = up at hup ⊢
        rcases up with ⟨_ | _, d₂⟩
        · exact hup
        · exact hup.trans (.of_eq rfl rfl rfl rfl rfl)
    · have hbeat : Quiet d { d₁ with watching := true, supervised := true } :=
        hopen.trans (.of_eq rfl rfl rfl rfl rfl)
      exact hbeat.trans (quiet_startRecovery _)

/-! ## Going down, and back to receiving -/

/-- The end of a transmission in the driver's own fields. -/
def idle (d : Sx1262) : Sx1262 := { d with txBusy := false, txTimeout := none }

/-- Going down while a packet is on the air reports it done with no airtime. -/
theorem goDown_cases (d : Sx1262) :
    (d.txBusy = false ∧ Quiet d d.goDown) ∨
      ∃ d', d.txBusy = true ∧ Quiet d d' ∧ d.goDown = d'.idle.deliverTxDone 0 := by
  have hmark : Quiet d
      { d with initialFailureReported := true, healthy := false, retunePending := false } :=
    .of_eq rfl rfl rfl rfl rfl
  have hoff := hmark.trans (talked_switchOff _).quiet
  simp only [goDown]
  generalize (perform _ (.line .rxen false)).2 = d' at hoff ⊢
  cases hbusy : d.txBusy with
  | false =>
      rw [hoff.txBusy, hbusy]
      exact .inl ⟨rfl, hoff⟩
  | true =>
      rw [hoff.txBusy, hbusy]
      exact .inr ⟨d', rfl, hoff, rfl⟩

theorem quiet_goDown {d : Sx1262} (hidle : d.txBusy = false) : Quiet d d.goDown := by
  rcases goDown_cases d with ⟨_, hquiet⟩ | ⟨_, hbusy, _⟩
  · exact hquiet
  · rw [hidle] at hbusy
    simp at hbusy

theorem quiet_retune {d : Sx1262} (hidle : d.txBusy = false) : Quiet d d.retune := by
  have hflag : Quiet d { d with retunePending := false } := .of_eq rfl rfl rfl rfl rfl
  have hconfigure := hflag.trans (quiet_configure _)
  rw [retune]
  generalize configure _ = configured at hconfigure ⊢
  rcases configured with ⟨_ | _, d₁⟩
  · exact hconfigure.trans (quiet_goDown (hconfigure.txBusy.trans hidle))
  · have hmode := hconfigure.trans (talked_setRxMode d₁).quiet
    dsimp only at hmode ⊢
    generalize d₁.setRxMode = mode at hmode ⊢
    rcases mode with ⟨_ | _, d₂⟩
    · exact hmode.trans (quiet_goDown (hmode.txBusy.trans hidle))
    · exact hmode

theorem quiet_afterTx (what : String) {d : Sx1262} (hidle : d.txBusy = false) :
    Quiet d (d.afterTx what) := by
  rw [afterTx]
  split
  · exact quiet_retune hidle
  · have hmode := (talked_setRxMode d).quiet
    generalize d.setRxMode = mode at hmode ⊢
    rcases mode with ⟨_ | _, d₁⟩
    · exact hmode.trans (quiet_goDown (hmode.txBusy.trans hidle))
    · exact hmode

theorem quiet_supervise (d : Sx1262) : Quiet d d.supervise := by
  rw [supervise]
  split
  · exact Quiet.refl d
  · split
    · cases hbusy : d.txBusy with
      | true => exact Quiet.refl d
      | false =>
          have hanswer := (talked_chipResponding d).quiet
          simp only [Bool.false_eq_true, if_false]
          generalize d.chipResponding = answer at hanswer ⊢
          rcases answer with ⟨_ | _, d₁⟩
          · exact hanswer.trans (quiet_goDown (hanswer.txBusy.trans hbusy))
          · exact hanswer
    · exact quiet_startRecovery d

theorem quiet_channelBusy (d : Sx1262) : Quiet d d.channelBusy.2 := by
  rw [channelBusy]
  split
  · exact Quiet.refl d
  · have hread := (talked_read d .getIrqStatus 2).quiet
    generalize d.read .getIrqStatus 2 = status at hread ⊢
    rcases status with ⟨_ | status, d₁⟩
    · exact hread
    · dsimp only at hread ⊢
      split
      · exact hread.trans (.of_eq rfl rfl rfl rfl rfl)
      · have hsince : Quiet d
            (if d₁.rxSinceMs = 0 then { d₁ with rxSinceMs := d₁.millis } else d₁) := by
          split
          · exact hread.trans (.of_eq rfl rfl rfl rfl rfl)
          · exact hread
        generalize (if d₁.rxSinceMs = 0 then _ else d₁) = d₂ at hsince ⊢
        generalize (if has _ kIrqHeaderValid then _ else _) = deadline
        split
        · exact (hsince.trans (talked_perform d₂ _).quiet).trans (.of_eq rfl rfl rfl rfl rfl)
        · exact hsince

theorem quiet_reconfigure (params : RadioParams) (d : Sx1262) :
    Quiet d (d.reconfigure params) := by
  have hparams : Quiet d { d with params } := .of_eq rfl rfl rfl rfl rfl
  simp only [reconfigure]
  split
  · exact hparams
  · split
    · split
      · exact hparams.trans (.of_eq rfl rfl rfl rfl rfl)
      · next hbusy => exact hparams.trans (quiet_retune (by simpa using hbusy))
    · split
      · exact hparams
      · split
        · exact hparams.trans (quiet_startRecovery _)
        · have hup := hparams.trans (quiet_bringUp _)
          generalize bringUp _ = up at hup ⊢
          rcases up with ⟨_ | _, d₁⟩
          · exact hup
          · exact hup.trans (.of_eq rfl rfl rfl rfl rfl)

/-! ## Interrupts -/

def failed {α : Type} (result : Except String α × Sx1262) : Bool :=
  match result.1 with
  | .error _ => true
  | .ok _ => false

/-- Some command that the receiver's flags ask for fails. -/
def receptionFails (irq : UInt16) (d : Sx1262) : Bool :=
  if has irq (kIrqCrcErr ||| kIrqHeaderErr ||| kIrqTimeout) then
    failed ((d.failedReception irq).2.record (.rxError (d.failedReception irq).1)).setRxMode
  else if has irq kIrqRxDone then failed d.readPacket
  else false

/-- The interrupt handler gives up on the chip: the flags cannot be read or
cleared, or, TxDone not among them, the receiver cannot be served. -/
def irqFails (d : Sx1262) : Bool :=
  match d.takeIrq with
  | (.error _, _) => true
  | (.ok irq, d) => !has irq kIrqTxDone && receptionFails irq d

/-- Serving the receiver is quiet, unless it fails: then the radio goes down
from a state reached quietly. -/
theorem handleReception_cases (irq : UInt16) (d : Sx1262) :
    (Quiet d (d.handleReception irq)) ∨
      ∃ d', receptionFails irq d = true ∧ Quiet d d' ∧ d.handleReception irq = d'.goDown := by
  rw [handleReception, receptionFails]
  split
  · have hread := (talked_failedReception irq d).quiet
    generalize d.failedReception irq = failure at hread ⊢
    obtain ⟨failure, d₁⟩ := failure
    have hreport := hread.trans (quiet_record (a := .rxError failure) rfl d₁)
    have hmode := hreport.trans (talked_setRxMode _).quiet
    dsimp only at hmode ⊢
    generalize setRxMode _ = mode at hmode ⊢
    rcases mode with ⟨_ | _, d₂⟩
    · exact .inr ⟨d₂, rfl, hmode, rfl⟩
    · exact .inl hmode
  · split
    · have hpacket := (talked_readPacket d).quiet
      rw [handleRxDone]
      generalize d.readPacket = packet at hpacket ⊢
      rcases packet with ⟨_ | _ | ⟨data, rssi, snr⟩, d₁⟩
      · exact .inr ⟨d₁, rfl, hpacket, rfl⟩
      · exact .inl hpacket
      · exact .inl (hpacket.trans (quiet_record rfl d₁))
    · exact .inl (Quiet.refl d)

theorem quiet_handleReception (irq : UInt16) {d : Sx1262} (hidle : d.txBusy = false) :
    Quiet d (d.handleReception irq) := by
  rcases handleReception_cases irq d with hquiet | ⟨d', _, hquiet, hdown⟩
  · exact hquiet
  · rw [hdown]
    exact hquiet.trans (quiet_goDown (hquiet.txBusy.trans hidle))

/-- What one call can do to the transmitter. A transmission ends by its TxDone,
by the timeout coming due, or by an interrupt that finds the chip failing. -/
inductive Outcome (d : Sx1262) : Event → Sx1262 → Prop where
  | quiet {event : Event} {d' : Sx1262} (hquiet : Quiet d d') : Outcome d event d'
  | began {d₁ : Sx1262} (size : Nat) (hidle : d₁.txBusy = false) (hbefore : Quiet d d₁) :
      Outcome d (.send size) (d₁.beginTx size)
  | timedOut {d₁ : Sx1262} (dueMs : UInt32) (harmed : d.txTimeout = some dueMs)
      (hdue : d.due dueMs = true) (hbusy : d.txBusy = true) (hafter : Quiet d.idle d₁) :
      Outcome d .txTimeout (d₁.deliverTxDone 0)
  | lost {d₁ : Sx1262} (hbusy : d.txBusy = true) (hup : d.healthy = true)
      (hwatch : d.watching = true) (hfails : irqFails d = true) (hbefore : Quiet d d₁) :
      Outcome d (.irq true) (d₁.idle.deliverTxDone 0)
  | completed {irq : UInt16} {d₁ d' : Sx1262} (hbusy : d.txBusy = true)
      (hup : d.healthy = true) (hwatch : d.watching = true) (hirq : d.takeIrq = (.ok irq, d₁))
      (hflag : has irq kIrqTxDone = true) (hafter : Quiet d₁.handleTxDone d') :
      Outcome d (.irq true) d'

theorem outcome_send (size : Nat) (d : Sx1262) : Outcome d (.send size) (d.send size).2 := by
  rw [send]
  split
  · exact .quiet (Quiet.refl d)
  · next hready =>
    have hidle : d.txBusy = false := by
      cases hbusy : d.txBusy with
      | false => rfl
      | true => simp [hbusy] at hready
    split
    · exact .quiet (Quiet.refl d)
    · have hcalls := (talked_attempt d txCalls).quiet
      generalize d.attempt txCalls = calls at hcalls ⊢
      rcases calls with ⟨_ | _, d₁⟩
      · exact .quiet (hcalls.trans (quiet_goDown (hcalls.txBusy.trans hidle)))
      · have htx := hcalls.trans (talked_perform d₁ (.cmd .setTx)).quiet
        dsimp only at htx ⊢
        generalize d₁.perform (.cmd .setTx) = tx at htx ⊢
        rcases tx with ⟨_ | _, d₂⟩
        · have hoff := htx.trans (talked_perform d₂ (.line .txen false)).quiet
          exact .quiet (hoff.trans (quiet_goDown (hoff.txBusy.trans hidle)))
        · exact .began size (htx.txBusy.trans hidle) htx

theorem outcome_onTxTimeout (d : Sx1262) : Outcome d .txTimeout d.onTxTimeout := by
  rw [onTxTimeout]
  cases harmed : d.txTimeout with
  | none => exact .quiet (Quiet.refl d)
  | some dueMs =>
      dsimp only
      cases hdue : d.due dueMs with
      | false => exact .quiet (Quiet.refl d)
      | true =>
          cases hbusy : d.txBusy with
          | true => exact .timedOut dueMs harmed hdue hbusy (quiet_afterTx _ rfl)
          | false =>
              refine .quiet ⟨le_rfl, ?_, rfl, ?_, [], by simp, rfl⟩
              · exact hbusy.symm
              · intro hbusy'
                rw [hbusy] at hbusy'
                simp at hbusy'

theorem handleTxDone_txBusy (d : Sx1262) : d.handleTxDone.txBusy = false := by
  simp only [handleTxDone]
  cases hbusy : d.txBusy with
  | false => exact hbusy
  | true =>
      have hoff := talked_perform { d with txBusy := false, txTimeout := none } (.line .txen false)
      have hidle := hoff.quiet.txBusy
      exact (quiet_afterTx _ hidle).txBusy.trans hidle

/-- What is left of the flags after TxDone is quiet. -/
theorem quiet_afterTxDone (irq : UInt16) (d : Sx1262) :
    Quiet d.handleTxDone
      (if !d.handleTxDone.healthy then d.handleTxDone
        else d.handleTxDone.handleReception irq) := by
  split
  · exact Quiet.refl _
  · exact quiet_handleReception irq (handleTxDone_txBusy d)

/-- Going down from a state an interrupt reached quietly. -/
theorem outcome_goDown {d d₁ : Sx1262} (hup : d.healthy = true) (hwatch : d.watching = true)
    (hfails : irqFails d = true) (hbefore : Quiet d d₁) : Outcome d (.irq true) d₁.goDown := by
  rcases goDown_cases d₁ with ⟨_, hquiet⟩ | ⟨d₂, hbusy, hquiet, hdown⟩
  · exact .quiet (hbefore.trans hquiet)
  · rw [hdown]
    exact .lost (hbefore.txBusy.symm.trans hbusy) hup hwatch hfails (hbefore.trans hquiet)

theorem outcome_handleIrq {irq : UInt16} {d d₁ : Sx1262} (hup : d.healthy = true)
    (hwatch : d.watching = true) (hirq : d.takeIrq = (.ok irq, d₁)) (htake : Quiet d d₁) :
    Outcome d (.irq true) (d₁.handleIrq irq) := by
  simp only [handleIrq]
  cases hflag : has irq kIrqTxDone with
  | true =>
      cases hbusy : d.txBusy with
      | true => exact .completed hbusy hup hwatch hirq hflag (quiet_afterTxDone irq d₁)
      | false =>
          have hsame : d₁.handleTxDone = d₁ := by
            simp [handleTxDone, htake.txBusy, hbusy]
          have hafter := quiet_afterTxDone irq d₁
          rw [hsame] at hafter
          rw [hsame]
          exact .quiet (htake.trans hafter)
  | false =>
      rcases handleReception_cases irq d₁ with hquiet | ⟨d₂, hfails, hquiet, hdown⟩
      · exact .quiet (htake.trans hquiet)
      · show Outcome d (.irq true) (d₁.handleReception irq)
        rw [hdown]
        exact outcome_goDown hup hwatch (by rw [irqFails, hirq]; simp [hflag, hfails])
          (htake.trans hquiet)

theorem outcome_onIrq (drained : Bool) (d : Sx1262) (hwatch : d.watching = true) :
    Outcome d (.irq drained) (d.onIrq drained) := by
  rw [onIrq]
  split
  · exact .quiet (Quiet.refl d)
  · next hready =>
    obtain ⟨rfl, hup⟩ : drained = true ∧ d.healthy = true := by simpa using hready
    have htake := (talked_takeIrq d).quiet
    cases hirq : d.takeIrq with
    | mk result d₁ =>
        rw [hirq] at htake
        cases result with
        | error what =>
            exact outcome_goDown hup hwatch (by rw [irqFails, hirq]) htake
        | ok irq =>
            dsimp only
            split
            · exact .quiet htake
            · exact outcome_handleIrq hup hwatch hirq htake

/-- Every call does one of these. -/
theorem handle_outcome (d : Sx1262) (event : Event) : Outcome d event (d.handle event) := by
  cases event with
  | tick ms => exact .quiet (talked_sleep d ms).quiet
  | start =>
      rw [handle]
      split
      · exact .quiet (Quiet.refl d)
      · exact .quiet (quiet_start d)
  | send size => exact outcome_send size d
  | irq drained =>
      rw [handle]
      split
      · next hwatch => exact outcome_onIrq drained d hwatch
      · exact .quiet (Quiet.refl d)
  | txTimeout => exact outcome_onTxTimeout d
  | recovery => exact .quiet (quiet_onRecoveryTimer d)
  | supervise =>
      rw [handle]
      split
      · exact .quiet (quiet_supervise d)
      · exact .quiet (Quiet.refl d)
  | channelBusy => exact .quiet (quiet_channelBusy d)
  | reconfigure params => exact .quiet (quiet_reconfigure params d)

/-! ## The parameters in force -/

theorem Talked.params {d d' : Sx1262} (h : Talked d d') : d'.params = d.params := by
  obtain ⟨_, _, _, _, rfl⟩ := h
  rfl

theorem params_configure (d : Sx1262) : d.configure.2.params = d.params := by
  have hcalls := (talked_attempt d (configureCalls d.params)).params
  rw [configure]
  generalize d.attempt (configureCalls d.params) = calls at hcalls ⊢
  rcases calls with ⟨_ | _, d₁⟩ <;> exact hcalls

theorem params_goDown (d : Sx1262) : d.goDown.params = d.params := by
  have hoff := (talked_switchOff
    { d with initialFailureReported := true, healthy := false, retunePending := false }).params
  rw [goDown]
  split <;> exact hoff

theorem params_retune (d : Sx1262) : d.retune.params = d.params := by
  have hconfigure := params_configure { d with retunePending := false }
  rw [retune]
  generalize configure { d with retunePending := false } = configured at hconfigure ⊢
  rcases configured with ⟨_ | _, d₁⟩
  · exact (params_goDown d₁).trans hconfigure
  · have hmode := (talked_setRxMode d₁).params.trans hconfigure
    dsimp only at hmode ⊢
    generalize d₁.setRxMode = mode at hmode ⊢
    rcases mode with ⟨_ | _, d₂⟩
    · exact (params_goDown d₂).trans hmode
    · exact hmode

theorem params_startChip (d : Sx1262) : d.startChip.2.params = d.params := by
  have hanswer := (talked_chipResponding d).params
  rw [startChip]
  generalize d.chipResponding = answer at hanswer ⊢
  rcases answer with ⟨_ | _, d₁⟩
  · exact hanswer
  · have hconfigure := (params_configure d₁).trans hanswer
    dsimp only at hconfigure ⊢
    generalize d₁.configure = configured at hconfigure ⊢
    rcases configured with ⟨_ | _, d₂⟩
    · exact hconfigure
    · have hmode := (talked_setRxMode d₂).params.trans hconfigure
      dsimp only at hmode ⊢
      generalize d₂.setRxMode = mode at hmode ⊢
      rcases mode with ⟨_ | _, d₃⟩ <;> exact hmode

theorem params_bringUp (d : Sx1262) : d.bringUp.2.params = d.params := by
  have hreset := (talked_resetChip d).params
  rw [bringUp]
  generalize d.resetChip = reset at hreset ⊢
  rcases reset with ⟨_ | _, d₁⟩
  · exact hreset
  · have hstart := (params_startChip d₁).trans hreset
    dsimp only at hstart ⊢
    generalize d₁.startChip = started at hstart ⊢
    rcases started with ⟨_ | _, d₂⟩ <;> exact hstart

theorem params_startRecovery (d : Sx1262) : d.startRecovery.params = d.params := by
  have hfailed : ∀ (error : String) (d : Sx1262), (d.recoveryFailed error).params = d.params :=
    fun error d => (talked_switchOff { d with recovering := false, recoveryTimer := none }).params
  rw [startRecovery]
  split
  · rfl
  · dsimp only
    split
    · exact hfailed _ _
    · have hassert := (talked_setReset { d with recovering := true }).params
      generalize setReset _ = asserted at hassert ⊢
      rcases asserted with ⟨_ | _, d₁⟩
      · exact (hfailed _ d₁).trans hassert
      · exact hassert

/-- Whatever the chip makes of them, new parameters are in force. -/
theorem params_reconfigure (params : RadioParams) (d : Sx1262) :
    (d.reconfigure params).params = params := by
  simp only [reconfigure]
  split
  · rfl
  · split
    · split
      · rfl
      · exact params_retune _
    · split
      · rfl
      · split
        · exact params_startRecovery _
        · have hup := params_bringUp { d with params }
          generalize bringUp { d with params } = brought at hup ⊢
          rcases brought with ⟨_ | _, d₁⟩ <;> exact hup

end Coreletd.Radio.Sx1262
