/-
# The driver's flags and timers

Five flags and two one-shot timers are set and cleared from a dozen places, most
of which can fail halfway and take the radio down from inside another handler. The
invariant here relates them between calls, whatever the hardware answers. What it
says of the chip's programming rests on the same flags: a change of parameters is
applied at once, after the transmission, or by the recovery that ends a time down.
-/

import Coreletd.Radio.Sx1262Steps

namespace Coreletd.Radio.Sx1262

open Coreletd.Library

variable {d d' d'' : Sx1262} {since : UInt32}

/-! ## What does not matter to them -/

/-- The flags, the timers, what was programmed and what was asked for are the same. -/
structure SameControl (d d' : Sx1262) : Prop where
  begun : d'.begun = d.begun
  healthy : d'.healthy = d.healthy
  recovering : d'.recovering = d.recovering
  txBusy : d'.txBusy = d.txBusy
  retunePending : d'.retunePending = d.retunePending
  txTimeout : d'.txTimeout = d.txTimeout
  recoveryTimer : d'.recoveryTimer = d.recoveryTimer
  supervised : d'.supervised = d.supervised
  retryIntervalMs : d'.retryIntervalMs = d.retryIntervalMs
  programmed : d'.programmed = d.programmed
  params : d'.params = d.params
  rxSinceMs : d'.rxSinceMs = d.rxSinceMs

namespace SameControl

theorem refl (d : Sx1262) : SameControl d d := by constructor <;> rfl

theorem trans (hfirst : SameControl d d') (hsecond : SameControl d' d'') : SameControl d d'' where
  begun := hsecond.begun.trans hfirst.begun
  healthy := hsecond.healthy.trans hfirst.healthy
  recovering := hsecond.recovering.trans hfirst.recovering
  txBusy := hsecond.txBusy.trans hfirst.txBusy
  retunePending := hsecond.retunePending.trans hfirst.retunePending
  txTimeout := hsecond.txTimeout.trans hfirst.txTimeout
  recoveryTimer := hsecond.recoveryTimer.trans hfirst.recoveryTimer
  supervised := hsecond.supervised.trans hfirst.supervised
  retryIntervalMs := hsecond.retryIntervalMs.trans hfirst.retryIntervalMs
  programmed := hsecond.programmed.trans hfirst.programmed
  params := hsecond.params.trans hfirst.params
  rxSinceMs := hsecond.rxSinceMs.trans hfirst.rxSinceMs

/-- Programming both with the parameters in force keeps them alike. -/
theorem programming (hsame : SameControl d d') :
    SameControl { d with programmed := some d.params } { d' with programmed := some d'.params } :=
  { hsame with programmed := congrArg some hsame.params }

/-- Noting the same start of a reception in both keeps them alike. -/
theorem noting (hsame : SameControl d d') (rxSinceMs : UInt32) :
    SameControl { d with rxSinceMs } { d' with rxSinceMs } :=
  { hsame with rxSinceMs := rfl }

end SameControl

theorem Talked.sameControl (h : Talked d d') : SameControl d d' := by
  obtain ⟨_, _, _, _, rfl⟩ := h
  constructor <;> rfl

theorem sameControl_record (a : Activity) (d : Sx1262) : SameControl d (d.record a) := by
  constructor <;> rfl

/-! ## The invariant -/

/-- Up and recovering exclude each other and come after `begin`, a recovery has its
timer, and only a driver that retries recovers. -/
structure Modes (since : UInt32) (d : Sx1262) : Prop where
  begun : d.healthy = true ∨ d.recovering = true → d.begun = true
  exclusive : d.healthy = true → d.recovering = false
  recovery : d.recoveryTimer.isSome = d.recovering
  retries : d.recovering = true ∨ d.supervised = true → d.retryIntervalMs ≠ 0
  rxSinceMs : d.rxSinceMs = since

/-- The chip carries the parameters in force. -/
def Programmed (d : Sx1262) : Prop := ∃ p, d.programmed = some p ∧ p.SameOnChip d.params

/-- What holds of a driver between calls. -/
structure Coherent (since : UInt32) (d : Sx1262) : Prop extends Modes since d where
  transmitting : d.txBusy = true → d.healthy = true ∧ d.txTimeout.isSome = true
  retune : d.retunePending = true → d.txBusy = true
  programmed : d.healthy = true → d.retunePending = false → d.Programmed

theorem Modes.same (hd : d.Modes since) (hsame : SameControl d d') : d'.Modes since where
  begun := by
    rw [hsame.healthy, hsame.recovering, hsame.begun]
    exact hd.begun
  exclusive := by
    rw [hsame.healthy, hsame.recovering]
    exact hd.exclusive
  recovery := by
    rw [hsame.recoveryTimer, hsame.recovering]
    exact hd.recovery
  retries := by
    rw [hsame.recovering, hsame.supervised, hsame.retryIntervalMs]
    exact hd.retries
  rxSinceMs := hsame.rxSinceMs.trans hd.rxSinceMs

theorem Coherent.same (hd : d.Coherent since) (hsame : SameControl d d') : d'.Coherent since where
  toModes := hd.toModes.same hsame
  transmitting := by
    rw [hsame.txBusy, hsame.healthy, hsame.txTimeout]
    exact hd.transmitting
  retune := by
    rw [hsame.retunePending, hsame.txBusy]
    exact hd.retune
  programmed := by
    rw [hsame.healthy, hsame.retunePending, Programmed, hsame.programmed, hsame.params]
    exact hd.programmed

/-- What the hardware will answer is no matter of the flags. -/
theorem Coherent.answering (hd : d.Coherent since) (script : List Reply) :
    Coherent since { d with script } :=
  hd.same (by constructor <;> rfl)

/-- With no transmission and no retune waiting, the modes are all there is to a
driver that is down. -/
theorem Modes.coherent_of_down (hd : d.Modes since) (hdown : d.healthy = false)
    (hidle : d.txBusy = false) (hcalm : d.retunePending = false) : d.Coherent since where
  toModes := hd
  transmitting := fun hbusy => absurd hbusy (Bool.eq_false_iff.mp hidle)
  retune := fun hpending => absurd hpending (Bool.eq_false_iff.mp hcalm)
  programmed := fun hup => absurd hup (Bool.eq_false_iff.mp hdown)

/-! ## Going down, and back to receiving -/

/-- Going down ends everything but a recovery. -/
theorem coherent_goDown (hd : d.Modes since) : d.goDown.Coherent since := by
  have hoff := (talked_switchOff
    { d with initialFailureReported := true, healthy := false, retunePending := false }).sameControl
  have hmodes : Modes since
      { d with initialFailureReported := true, healthy := false, retunePending := false } :=
    ⟨fun h => hd.begun (.inr (h.resolve_left Bool.false_ne_true)),
      fun h => absurd h Bool.false_ne_true, hd.recovery, hd.retries, hd.rxSinceMs⟩
  have hafter := hmodes.same hoff
  simp only [goDown]
  generalize (perform _ (.line .rxen false)).2 = d' at hoff hafter ⊢
  split
  · have hdone : Modes since { d' with txBusy := false, txTimeout := none } :=
      ⟨hafter.begun, hafter.exclusive, hafter.recovery, hafter.retries, hafter.rxSinceMs⟩
    have hended := hdone.coherent_of_down hoff.healthy rfl hoff.retunePending
    exact hended.same (sameControl_record _ _)
  next hidle =>
    exact hafter.coherent_of_down hoff.healthy (by simpa using hidle) hoff.retunePending

/-- A configuration either fails and leaves everything else alone, or ends with
the parameters on the chip. -/
theorem configure_cases (d : Sx1262) :
    (∃ what d', d.configure = (.error what, d') ∧ SameControl d d') ∨
    ∃ d', d.configure = (.ok (), d') ∧ SameControl { d with programmed := some d.params } d' := by
  have hcalls := (talked_attempt d (configureCalls d.params)).sameControl
  rw [configure]
  generalize d.attempt (configureCalls d.params) = calls at hcalls ⊢
  rcases calls with ⟨_ | _, d₁⟩
  · exact .inl ⟨_, d₁, rfl, hcalls⟩
  · exact .inr ⟨_, rfl, hcalls.programming⟩

theorem sameOnChip_refl (p : RadioParams) : p.SameOnChip p := rfl

/-- A retune leaves the chip with the parameters in force, or the radio down. -/
theorem coherent_retune (hd : d.Modes since) (hidle : d.txBusy = false) :
    d.retune.Coherent since := by
  have hcleared : Modes since { d with retunePending := false } :=
    ⟨hd.begun, hd.exclusive, hd.recovery, hd.retries, hd.rxSinceMs⟩
  rw [retune]
  rcases configure_cases { d with retunePending := false } with
    ⟨what, d₁, hconfigure, hsame⟩ | ⟨d₁, hconfigure, hsame⟩
  · rw [hconfigure]
    exact coherent_goDown (hcleared.same hsame)
  · rw [hconfigure]
    have hmode := hsame.trans (talked_setRxMode d₁).sameControl
    have hready : Coherent since
        { d with retunePending := false, programmed := some d.params } :=
      ⟨⟨hd.begun, hd.exclusive, hd.recovery, hd.retries, hd.rxSinceMs⟩,
        fun hbusy => absurd hbusy (Bool.eq_false_iff.mp hidle),
        fun hpending => absurd hpending Bool.false_ne_true,
        fun _ _ => ⟨d.params, rfl, sameOnChip_refl _⟩⟩
    have hafter := hready.same hmode
    dsimp only at hafter ⊢
    generalize d₁.setRxMode = mode at hafter ⊢
    rcases mode with ⟨_ | _, d₂⟩
    · exact coherent_goDown hafter.toModes
    · exact hafter

theorem coherent_afterTx (what : String) (hd : d.Modes since) (hidle : d.txBusy = false)
    (hprogrammed : d.healthy = true → d.retunePending = false → d.Programmed) :
    (d.afterTx what).Coherent since := by
  rw [afterTx]
  split
  · exact coherent_retune hd hidle
  next hpending =>
    have hready : Coherent since d :=
      ⟨hd, fun hbusy => absurd hbusy (Bool.eq_false_iff.mp hidle),
        fun h => absurd h hpending, hprogrammed⟩
    have hafter := hready.same (talked_setRxMode d).sameControl
    generalize d.setRxMode = mode at hafter ⊢
    rcases mode with ⟨_ | _, d₁⟩
    · exact coherent_goDown hafter.toModes
    · exact hafter

/-! ## Transmitting and receiving -/

theorem coherent_send (size : Nat) (hd : d.Coherent since) : (d.send size).2.Coherent since := by
  rw [send]
  split
  · exact hd
  next hready =>
    obtain ⟨hup, hidle⟩ : d.healthy = true ∧ d.txBusy = false := by simpa using hready
    split
    · exact hd
    · have hcalls := (talked_attempt d txCalls).sameControl
      generalize d.attempt txCalls = calls at hcalls ⊢
      rcases calls with ⟨_ | _, d₁⟩
      · exact coherent_goDown (hd.toModes.same hcalls)
      · have htx := hcalls.trans (talked_perform d₁ (.cmd .setTx)).sameControl
        dsimp only at htx ⊢
        generalize d₁.perform (.cmd .setTx) = tx at htx ⊢
        rcases tx with ⟨_ | _, d₂⟩
        · have hoff := htx.trans (talked_perform d₂ (.line .txen false)).sameControl
          exact coherent_goDown (hd.toModes.same hoff)
        · have hbefore := hd.same htx
          exact ⟨⟨hbefore.begun, hbefore.exclusive, hbefore.recovery, hbefore.retries,
            hbefore.rxSinceMs⟩, fun _ => ⟨htx.healthy.trans hup, rfl⟩, fun _ => rfl,
            hbefore.programmed⟩

/-- The end of a transmission, up to what follows it. -/
theorem modes_idle (hd : d.Coherent since) :
    Modes since { d with txBusy := false, txTimeout := none } :=
  ⟨hd.begun, hd.exclusive, hd.recovery, hd.retries, hd.rxSinceMs⟩

theorem coherent_onTxTimeout (hd : d.Coherent since) : d.onTxTimeout.Coherent since := by
  rw [onTxTimeout]
  cases d.txTimeout with
  | none => exact hd
  | some dueMs =>
      dsimp only
      split
      · exact hd
      · split
        next hidle =>
          exact ⟨⟨hd.begun, hd.exclusive, hd.recovery, hd.retries, hd.rxSinceMs⟩,
            fun hbusy => absurd hbusy (by simpa using hidle), hd.retune, hd.programmed⟩
        next =>
          have hended := coherent_afterTx "returning to RX after a TX timeout" (modes_idle hd) rfl
            hd.programmed
          exact hended.same (sameControl_record _ _)

theorem coherent_handleTxDone (hd : d.Coherent since) : d.handleTxDone.Coherent since := by
  simp only [handleTxDone]
  split
  · exact hd
  · have hoff := (talked_perform { d with txBusy := false, txTimeout := none }
      (.line .txen false)).sameControl
    have hended : Coherent since (afterTx "returning to RX after TX"
        (perform { d with txBusy := false, txTimeout := none } (.line .txen false)).2) := by
      refine coherent_afterTx _ ((modes_idle hd).same hoff) hoff.txBusy ?_
      rw [hoff.healthy, hoff.retunePending, Programmed, hoff.programmed, hoff.params]
      exact hd.programmed
    exact hended.same (sameControl_record _ _)

theorem coherent_handleReception (irq : UInt16) (hd : d.Coherent since) :
    (d.handleReception irq).Coherent since := by
  rw [handleReception]
  split
  · have hread := (talked_failedReception irq d).sameControl
    generalize d.failedReception irq = failure at hread ⊢
    obtain ⟨failure, d₁⟩ := failure
    have hreport := hread.trans (sameControl_record (.rxError failure) d₁)
    have hmode := hd.same (hreport.trans (talked_setRxMode _).sameControl)
    dsimp only at hmode ⊢
    generalize setRxMode _ = mode at hmode ⊢
    rcases mode with ⟨_ | _, d₂⟩
    · exact coherent_goDown hmode.toModes
    · exact hmode
  · split
    · have hpacket := hd.same (talked_readPacket d).sameControl
      rw [handleRxDone]
      generalize d.readPacket = packet at hpacket ⊢
      rcases packet with ⟨_ | _ | ⟨data, rssi, snr⟩, d₁⟩
      · exact coherent_goDown hpacket.toModes
      · exact hpacket
      · exact hpacket.same (sameControl_record _ d₁)
    · exact hd

theorem coherent_onIrq (drained : Bool) (hd : d.Coherent since) :
    (d.onIrq drained).Coherent since := by
  rw [onIrq]
  split
  · exact hd
  · have htake := hd.same (talked_takeIrq d).sameControl
    generalize d.takeIrq = taken at htake ⊢
    rcases taken with ⟨_ | irq, d₁⟩
    · exact coherent_goDown htake.toModes
    · dsimp only at htake ⊢
      split
      · exact htake
      · simp only [handleIrq]
        split
        · split
          · exact coherent_handleTxDone htake
          · exact coherent_handleReception irq (coherent_handleTxDone htake)
        · exact coherent_handleReception irq htake

/-! ## Bring-up and recovery -/

/-- A driver that is down, whatever its recovery is doing. -/
structure Down (since : UInt32) (d : Sx1262) : Prop where
  begun : d.recovering = true → d.begun = true
  down : d.healthy = false
  idle : d.txBusy = false
  calm : d.retunePending = false
  retries : d.recovering = true ∨ d.supervised = true → d.retryIntervalMs ≠ 0
  rxSinceMs : d.rxSinceMs = since

theorem Down.same (hd : d.Down since) (hsame : SameControl d d') : d'.Down since where
  begun := by
    rw [hsame.recovering, hsame.begun]
    exact hd.begun
  down := hsame.healthy.trans hd.down
  idle := hsame.txBusy.trans hd.idle
  calm := hsame.retunePending.trans hd.calm
  retries := by
    rw [hsame.recovering, hsame.supervised, hsame.retryIntervalMs]
    exact hd.retries
  rxSinceMs := hsame.rxSinceMs.trans hd.rxSinceMs

theorem Coherent.down (hd : d.Coherent since) (hdown : d.healthy = false) : d.Down since := by
  have hidle : d.txBusy = false := by
    apply Bool.eq_false_iff.mpr
    intro hbusy
    exact absurd (hd.transmitting hbusy).1 (Bool.eq_false_iff.mp hdown)
  refine ⟨fun h => hd.begun (.inr h), hdown, hidle, ?_, hd.retries, hd.rxSinceMs⟩
  apply Bool.eq_false_iff.mpr
  intro hpending
  exact absurd (hd.retune hpending) (Bool.eq_false_iff.mp hidle)

/-- Down, the driver is coherent as soon as its recovery is. -/
theorem Down.coherent (hd : d.Down since) (hrecovery : d.recoveryTimer.isSome = d.recovering) :
    d.Coherent since :=
  Modes.coherent_of_down
    ⟨fun h => hd.begun (h.resolve_left (Bool.eq_false_iff.mp hd.down)),
      fun hup => absurd hup (Bool.eq_false_iff.mp hd.down), hrecovery, hd.retries, hd.rxSinceMs⟩
    hd.down hd.idle hd.calm

theorem coherent_recoveryFailed (error : String) (hd : d.Down since) :
    (d.recoveryFailed error).Coherent since := by
  have hstopped : Down since { d with recovering := false, recoveryTimer := none } :=
    ⟨fun h => absurd h Bool.false_ne_true, hd.down, hd.idle, hd.calm,
      fun h => hd.retries (.inr (h.resolve_left Bool.false_ne_true)), hd.rxSinceMs⟩
  have hoff := (talked_switchOff { d with recovering := false, recoveryTimer := none }).sameControl
  have hafter := (hstopped.coherent rfl).same hoff
  rw [recoveryFailed]
  exact hafter.same (by constructor <;> rfl)

theorem coherent_armRecovery (next : RecoveryStep) (delayMs : UInt32) (hd : d.Down since)
    (hrecovering : d.recovering = true) : (d.armRecovery next delayMs).Coherent since := by
  have harmed : (d.armRecovery next delayMs).Down since :=
    ⟨hd.begun, hd.down, hd.idle, hd.calm, hd.retries, hd.rxSinceMs⟩
  exact harmed.coherent hrecovering.symm

theorem coherent_startRecovery (hd : d.Coherent since) (hretries : d.retryIntervalMs ≠ 0) :
    d.startRecovery.Coherent since := by
  rw [startRecovery]
  split
  · exact hd
  next hready =>
    obtain ⟨⟨⟨hbegan, hdown⟩, -⟩, -⟩ :
        ((d.begun = true ∧ d.healthy = false) ∧ d.recovering = false) ∧
          d.params.hasFrequency = true := by simpa using hready
    have hbegun : Down since { d with recovering := true } :=
      { hd.down hdown with
        begun := fun _ => hbegan
        retries := fun _ => hretries }
    dsimp only
    split
    · exact coherent_recoveryFailed _ hbegun
    · have hassert := (talked_setReset { d with recovering := true }).sameControl
      generalize setReset _ = asserted at hassert ⊢
      rcases asserted with ⟨_ | _, d₁⟩
      · exact coherent_recoveryFailed _ (hbegun.same hassert)
      · exact coherent_armRecovery _ _ (hbegun.same hassert) hassert.recovering

theorem coherent_releaseReset (hd : d.Down since) (hrecovering : d.recovering = true) :
    d.releaseReset.Coherent since := by
  rw [releaseReset, if_neg (by simp [hrecovering])]
  have hrelease := (talked_setReset d).sameControl
  generalize d.setReset = released at hrelease ⊢
  rcases released with ⟨_ | _, d₁⟩
  · exact coherent_recoveryFailed _ (hd.same hrelease)
  · have hwaiting : Down since { d₁ with recoveryDeadlineMs := d₁.millis + 1000 } :=
      (hd.same hrelease).same (by constructor <;> rfl)
    exact coherent_armRecovery _ _ hwaiting (hrelease.recovering.trans hrecovering)

theorem coherent_pollAgain (error : String) (hd : d.Down since)
    (hrecovering : d.recovering = true) :
    (d.pollAgain error).Coherent since := by
  rw [pollAgain]
  split
  · exact coherent_recoveryFailed error hd
  · exact coherent_armRecovery _ _ hd hrecovering

/-- A chip that is started carries the parameters in force. One that is not may have
got as far as being configured. -/
theorem startChip_cases (d : Sx1262) :
    (∃ what d' programmed, d.startChip = (.error what, d') ∧ SameControl { d with programmed } d') ∨
    ∃ d', d.startChip = (.ok (), d') ∧ SameControl { d with programmed := some d.params } d' := by
  have hanswer := (talked_chipResponding d).sameControl
  rw [startChip]
  generalize d.chipResponding = answer at hanswer ⊢
  rcases answer with ⟨_ | _, d₁⟩
  · exact .inl ⟨_, d₁, d.programmed, rfl, hanswer⟩
  · dsimp only at hanswer ⊢
    rcases configure_cases d₁ with ⟨what, d₂, hconfigure, hsame⟩ | ⟨d₂, hconfigure, hsame⟩
    · rw [hconfigure]
      exact .inl ⟨what, d₂, d.programmed, rfl, hanswer.trans hsame⟩
    · rw [hconfigure]
      have hmode := (hanswer.programming.trans hsame).trans (talked_setRxMode d₂).sameControl
      dsimp only at hmode ⊢
      generalize d₂.setRxMode = mode at hmode ⊢
      rcases mode with ⟨_ | _, d₃⟩
      · exact .inl ⟨_, d₃, _, rfl, hmode⟩
      · exact .inr ⟨d₃, rfl, hmode⟩

/-- What was programmed does not matter while the radio is down. -/
theorem Down.reprogrammed (hd : d.Down since) (programmed : Option RadioParams) :
    Down since { d with programmed } :=
  ⟨hd.begun, hd.down, hd.idle, hd.calm, hd.retries, hd.rxSinceMs⟩

/-- A chip that is started is up, and no recovery is needed any more. -/
theorem Down.coherent_started (hd : d.Down since) (hprogrammed : d.Programmed)
    (hfired : d.recoveryTimer = none) (hbegun : d.begun = true) :
    Coherent since { d with healthy := true, recovering := false, everHealthy := true } where
  begun := fun _ => hbegun
  exclusive := fun _ => rfl
  recovery := congrArg Option.isSome hfired
  retries := fun h => hd.retries (.inr (h.resolve_left Bool.false_ne_true))
  rxSinceMs := hd.rxSinceMs
  transmitting := fun hbusy => absurd hbusy (Bool.eq_false_iff.mp hd.idle)
  retune := fun hpending => absurd hpending (Bool.eq_false_iff.mp hd.calm)
  programmed := fun _ _ => hprogrammed

theorem programmed_of_same (hsame : SameControl { d with programmed := some d.params } d') :
    d'.Programmed := by
  refine ⟨d.params, hsame.programmed, ?_⟩
  rw [hsame.params]
  exact sameOnChip_refl _

theorem coherent_pollResetBusy (hd : d.Down since) (hrecovering : d.recovering = true)
    (hfired : d.recoveryTimer = none) : d.pollResetBusy.Coherent since := by
  rw [pollResetBusy, if_neg (by simp [hrecovering])]
  have hlevel := (talked_busyLevel d).sameControl
  generalize d.busyLevel = level at hlevel ⊢
  rcases level with ⟨_ | _ | _, d₁⟩
  · exact coherent_recoveryFailed _ (hd.same hlevel)
  · have hstandby := hlevel.trans (talked_perform d₁ (.cmd .setStandby)).sameControl
    dsimp only at hstandby ⊢
    generalize d₁.perform (.cmd .setStandby) = standby at hstandby ⊢
    rcases standby with ⟨_ | _, d₂⟩
    · exact coherent_pollAgain _ (hd.same hstandby) (hstandby.recovering.trans hrecovering)
    · have hready := hd.same hstandby
      dsimp only at hready hstandby ⊢
      rcases startChip_cases d₂ with ⟨what, d₃, programmed, hstart, hsame⟩ | ⟨d₃, hstart, hsame⟩
      · rw [hstart]
        exact coherent_recoveryFailed _ ((hready.reprogrammed programmed).same hsame)
      · rw [hstart]
        have hdown := (hready.reprogrammed (some d₂.params)).same hsame
        have htimer := hsame.recoveryTimer.trans (hstandby.recoveryTimer.trans hfired)
        have hbegun := hsame.begun.trans (hstandby.begun.trans (hd.begun hrecovering))
        exact hdown.coherent_started (programmed_of_same hsame) htimer hbegun
  · exact coherent_pollAgain _ (hd.same hlevel) (hlevel.recovering.trans hrecovering)

theorem coherent_onRecoveryTimer (hd : d.Coherent since) : d.onRecoveryTimer.Coherent since := by
  rw [onRecoveryTimer]
  cases harmed : d.recoveryTimer with
  | none => exact hd
  | some armed =>
      obtain ⟨next, dueMs⟩ := armed
      have hrecovering : d.recovering = true := by
        rw [← hd.recovery, harmed]
        rfl
      have hdown : d.healthy = false := by
        apply Bool.eq_false_iff.mpr
        intro hup
        exact absurd (hd.exclusive hup) (by simp [hrecovering])
      have hfired : Down since { d with recoveryTimer := none } :=
        ⟨(hd.down hdown).begun, hdown, (hd.down hdown).idle, (hd.down hdown).calm, hd.retries,
          hd.rxSinceMs⟩
      dsimp only
      split
      · exact hd
      · cases next with
        | releaseReset => exact coherent_releaseReset hfired hrecovering
        | pollResetBusy => exact coherent_pollResetBusy hfired hrecovering rfl

/-- Bringing the radio up where no recovery does. -/
theorem coherent_bringUp (hd : d.Coherent since) (hbegun : d.begun = true)
    (hdown : d.healthy = false) (hsettled : d.recovering = false) :
    d.bringUp.2.Coherent since := by
  have hnone : d.recoveryTimer = none := by
    rw [← Option.not_isSome_iff_eq_none, hd.recovery, hsettled]
    exact Bool.false_ne_true
  have hreset := (talked_resetChip d).sameControl
  rw [bringUp]
  generalize d.resetChip = reset at hreset ⊢
  rcases reset with ⟨_ | _, d₁⟩
  · exact hd.same hreset
  · have hready := (hd.down hdown).same hreset
    dsimp only at hreset hready ⊢
    rcases startChip_cases d₁ with ⟨what, d₂, programmed, hstart, hsame⟩ | ⟨d₂, hstart, hsame⟩
    · rw [hstart]
      refine ((hready.reprogrammed programmed).same hsame).coherent ?_
      rw [hsame.recoveryTimer, hsame.recovering]
      exact (hd.same hreset).recovery
    · rw [hstart]
      have hup := (hready.reprogrammed (some d₁.params)).same hsame
      have htimer := hsame.recoveryTimer.trans (hreset.recoveryTimer.trans hnone)
      have hkept := hsame.recovering.trans (hreset.recovering.trans hsettled)
      have hstarted := hup.coherent_started (programmed_of_same hsame) htimer
        (hsame.begun.trans (hreset.begun.trans hbegun))
      exact hstarted.same ⟨rfl, rfl, hkept, rfl, rfl, rfl, rfl, rfl, rfl, rfl, rfl, rfl⟩

theorem coherent_supervise (hd : d.Coherent since) (hsupervised : d.supervised = true) :
    d.supervise.Coherent since := by
  rw [supervise]
  split
  · exact hd
  · split
    · split
      · exact hd
      · have hanswer := hd.same (talked_chipResponding d).sameControl
        generalize d.chipResponding = answer at hanswer ⊢
        rcases answer with ⟨_ | _, d₁⟩
        · exact coherent_goDown hanswer.toModes
        · exact hanswer
    · exact coherent_startRecovery hd (hd.retries (.inr hsupervised))

/-! ## Beginning -/

theorem Acquired.sameControl (h : Acquired d d') : SameControl d d' := by
  obtain ⟨_, _, _, _, _, _, _, _, rfl⟩ := h
  constructor <;> rfl

theorem coherent_start (hd : d.Coherent since) (hbefore : d.begun = false) :
    d.start.2.Coherent since := by
  have hdown : d.healthy = false := by
    apply Bool.eq_false_iff.mpr
    intro hup
    exact absurd (hd.begun (.inl hup)) (Bool.eq_false_iff.mp hbefore)
  have hsettled : d.recovering = false := by
    apply Bool.eq_false_iff.mpr
    intro hrecovering
    exact absurd (hd.begun (.inr hrecovering)) (Bool.eq_false_iff.mp hbefore)
  have hbegun : Coherent since { d with begun := true } :=
    ⟨⟨fun _ => rfl, hd.exclusive, hd.recovery, hd.retries, hd.rxSinceMs⟩, hd.transmitting,
      hd.retune, hd.programmed⟩
  have hopen := (acquired_openDevices { d with begun := true }).sameControl
  rw [start]
  generalize openDevices _ = opened at hopen ⊢
  rcases opened with ⟨_ | _, d₁⟩
  · exact hbegun.same hopen
  · have hwatch : SameControl { d with begun := true } { d₁ with watching := true } :=
      hopen.trans (by constructor <;> rfl)
    have hready := hbegun.same hwatch
    dsimp only
    split
    · split
      · exact hready
      · have hup := coherent_bringUp hready hwatch.begun (hwatch.healthy.trans hdown)
          (hwatch.recovering.trans hsettled)
        generalize bringUp _ = up at hup ⊢
        rcases up with ⟨_ | _, d₂⟩
        · exact hup
        · exact hup.same (by constructor <;> rfl)
    next hretries =>
      have hbeat : Coherent since { d₁ with watching := true, supervised := true } :=
        ⟨⟨hready.begun, hready.exclusive, hready.recovery, fun _ => hretries, hready.rxSinceMs⟩,
          hready.transmitting, hready.retune, hready.programmed⟩
      exact coherent_startRecovery hbeat hretries

/-! ## Every call -/

theorem sameOnChip_trans {p q r : RadioParams} (hfirst : p.SameOnChip q)
    (hsecond : q.SameOnChip r) : p.SameOnChip r := by
  rw [RadioParams.SameOnChip] at hfirst hsecond ⊢
  rw [← hsecond, ← hfirst]

theorem coherent_reconfigure (params : RadioParams) (hd : d.Coherent since) :
    (d.reconfigure params).Coherent since := by
  have hmodes : Modes since { d with params } :=
    ⟨hd.begun, hd.exclusive, hd.recovery, hd.retries, hd.rxSinceMs⟩
  simp only [reconfigure]
  split
  next hkept =>
    refine ⟨hmodes, hd.transmitting, hd.retune, fun hup hcalm => ?_⟩
    rcases hkept with hsame | hbefore
    · obtain ⟨p, hprogrammed, hcarried⟩ := hd.programmed hup hcalm
      exact ⟨p, hprogrammed, sameOnChip_trans hcarried hsame⟩
    · exact absurd (hd.begun (.inl hup)) (Bool.eq_false_iff.mp hbefore)
  next hchanged =>
    obtain ⟨-, hbegun⟩ := not_or.mp hchanged
    split
    next hup =>
      split
      next hbusy =>
        exact ⟨⟨hd.begun, hd.exclusive, hd.recovery, hd.retries, hd.rxSinceMs⟩, hd.transmitting,
          fun _ => hbusy, fun _ hcalm => absurd hcalm.symm Bool.false_ne_true⟩
      next hidle => exact coherent_retune hmodes (by simpa using hidle)
    next hnotUp =>
      have hdown : d.healthy = false := by simpa using hnotUp
      have hready : Coherent since { d with params } :=
        hmodes.coherent_of_down hdown (hd.down hdown).idle (hd.down hdown).calm
      split
      · exact hready
      · split
        next hretries => exact coherent_startRecovery hready (UInt32.pos_iff_ne_zero.mp hretries)
        next hnever =>
          have hsettled : d.recovering = false := by
            apply Bool.eq_false_iff.mpr
            intro hrecovering
            exact hnever (UInt32.pos_iff_ne_zero.mpr (hd.retries (.inl hrecovering)))
          have hup := coherent_bringUp hready (by simpa using hbegun) hdown hsettled
          generalize bringUp _ = up at hup ⊢
          rcases up with ⟨_ | _, d₁⟩
          · exact hup
          · exact hup.same (by constructor <;> rfl)

/-- Every call but a poll of the channel leaves the driver coherent, and the start
of a reception as it was noted. -/
theorem coherent_handle (hd : d.Coherent since) (event : Event) (hpoll : event ≠ .channelBusy) :
    (d.handle event).Coherent since := by
  cases event with
  | tick ms => exact hd.same (talked_sleep d ms).sameControl
  | start =>
      rw [handle]
      split
      · exact hd
      next hbefore => exact coherent_start hd (by simpa using hbefore)
  | send size => exact coherent_send size hd
  | irq drained =>
      rw [handle]
      split
      · exact coherent_onIrq drained hd
      · exact hd
  | txTimeout => exact coherent_onTxTimeout hd
  | recovery => exact coherent_onRecoveryTimer hd
  | supervise =>
      rw [handle]
      split
      next hsupervised => exact coherent_supervise hd hsupervised
      · exact hd
  | channelBusy => exact absurd rfl hpoll
  | reconfigure params => exact coherent_reconfigure params hd

/-- A poll of the channel changes no more than what is noted of a reception. -/
theorem sameControl_channelBusy (d : Sx1262) :
    SameControl { d with rxSinceMs := d.channelBusy.2.rxSinceMs } d.channelBusy.2 := by
  rw [channelBusy]
  split
  · exact .refl d
  · have hread := (talked_read d .getIrqStatus 2).sameControl
    generalize d.read .getIrqStatus 2 = status at hread ⊢
    rcases status with ⟨_ | status, d₁⟩
    · exact hread.noting _
    · dsimp only at hread ⊢
      split
      · exact hread.noting 0
      · have hsince : ∀ rxSinceMs, SameControl { d with rxSinceMs }
            { (if d₁.rxSinceMs = 0 then { d₁ with rxSinceMs := d₁.millis } else d₁) with
              rxSinceMs } := by
          intro rxSinceMs
          split <;> exact hread.noting rxSinceMs
        generalize (if d₁.rxSinceMs = 0 then _ else d₁) = d₂ at hsince ⊢
        generalize (if has _ kIrqHeaderValid then _ else _) = deadline
        split
        · have hclear := (talked_perform d₂ (.cmd .clearIrqStatus)).sameControl
          exact (hsince 0).trans (hclear.noting 0)
        · exact hsince d₂.rxSinceMs

theorem Coherent.noting (hd : d.Coherent since) (rxSinceMs : UInt32) :
    Coherent rxSinceMs { d with rxSinceMs } :=
  ⟨⟨hd.begun, hd.exclusive, hd.recovery, hd.retries, rfl⟩, hd.transmitting, hd.retune,
    hd.programmed⟩

theorem coherent_step (hd : d.Coherent since) (call : Event × List Reply) :
    (d.step call).Coherent (d.step call).rxSinceMs := by
  have hready := hd.answering call.2
  by_cases hpoll : call.1 = .channelBusy
  · rw [step, hpoll]
    exact (hready.noting _).same (sameControl_channelBusy _)
  · have hafter := coherent_handle hready call.1 hpoll
    have hnoted : (d.step call).rxSinceMs = since := hafter.rxSinceMs
    rw [hnoted]
    exact hafter

theorem coherent_new (params : RadioParams) (pins : Pins) (retryIntervalMs : UInt32) (time : Nat) :
    (new params pins retryIntervalMs time).Coherent 0 :=
  Down.coherent ⟨fun h => absurd h Bool.false_ne_true, rfl, rfl, rfl,
    fun h => absurd h (by simp [new]), rfl⟩ rfl

theorem coherent_run (params : RadioParams) (pins : Pins) (retryIntervalMs : UInt32) (time : Nat)
    (calls : List (Event × List Reply)) :
    ∃ since, (run step (new params pins retryIntervalMs time) calls).Coherent since := by
  have hstep : ∀ (d : Sx1262) (call : Event × List Reply), (∃ since, d.Coherent since) →
      ∃ since, (d.step call).Coherent since := by
    rintro d call ⟨since, hd⟩
    exact ⟨_, coherent_step hd call⟩
  exact run_invariant hstep ⟨0, coherent_new params pins retryIntervalMs time⟩ calls

end Coreletd.Radio.Sx1262
