/-
# Only a reconfiguration changes the parameters

Whatever an interrupt, a timer, a transmission or the supervisor does to the chip, the
parameters in force stay those of the last `reconfigure`.
-/

import Coreletd.Radio.Sx1262Steps

namespace Coreletd.Radio.Sx1262

theorem params_fail (what : String) (d : Sx1262) : (d.fail what).params = d.params :=
  params_goDown d

theorem params_afterTx (what : String) (d : Sx1262) : (d.afterTx what).params = d.params := by
  rw [afterTx]
  split
  · exact params_retune d
  · have hmode := (talked_setRxMode d).params
    generalize d.setRxMode = mode at hmode ⊢
    rcases mode with ⟨_ | _, d₁⟩
    · exact (params_fail what d₁).trans hmode
    · exact hmode

/-! ## Recovery -/

theorem params_recoveryFailed (error : String) (d : Sx1262) :
    (d.recoveryFailed error).params = d.params :=
  (talked_switchOff { d with recovering := false, recoveryTimer := none }).params

theorem params_releaseReset (d : Sx1262) : d.releaseReset.params = d.params := by
  rw [releaseReset]
  split
  · rfl
  · have hrelease := (talked_setReset d).params
    generalize d.setReset = released at hrelease ⊢
    rcases released with ⟨_ | _, d₁⟩
    · exact (params_recoveryFailed _ d₁).trans hrelease
    · exact hrelease

theorem params_pollAgain (error : String) (d : Sx1262) : (d.pollAgain error).params = d.params := by
  rw [pollAgain]
  split
  · exact params_recoveryFailed error d
  · rfl

theorem params_pollResetBusy (d : Sx1262) : d.pollResetBusy.params = d.params := by
  rw [pollResetBusy]
  split
  · rfl
  · have hlevel := (talked_busyLevel d).params
    generalize d.busyLevel = level at hlevel ⊢
    rcases level with ⟨_ | _ | _, d₁⟩
    · exact (params_recoveryFailed _ d₁).trans hlevel
    · have hstandby := (talked_perform d₁ (.cmd .setStandby)).params.trans hlevel
      dsimp only at hstandby ⊢
      generalize d₁.perform (.cmd .setStandby) = standby at hstandby ⊢
      rcases standby with ⟨_ | _, d₂⟩
      · exact (params_pollAgain _ d₂).trans hstandby
      · have hstart := (params_startChip d₂).trans hstandby
        dsimp only at hstart ⊢
        generalize d₂.startChip = started at hstart ⊢
        rcases started with ⟨_ | _, d₃⟩
        · exact (params_recoveryFailed _ d₃).trans hstart
        · exact hstart
    · exact (params_pollAgain _ d₁).trans hlevel

theorem params_onRecoveryTimer (d : Sx1262) : d.onRecoveryTimer.params = d.params := by
  rw [onRecoveryTimer]
  split
  · rfl
  · split
    · rfl
    · dsimp only
      split
      · exact params_releaseReset _
      · exact params_pollResetBusy _

theorem params_supervise (d : Sx1262) : d.supervise.params = d.params := by
  rw [supervise]
  split
  · rfl
  · split
    · split
      · rfl
      · have hanswer := (talked_chipResponding d).params
        generalize d.chipResponding = answer at hanswer ⊢
        rcases answer with ⟨_ | _, d₁⟩
        · exact (params_goDown d₁).trans hanswer
        · exact hanswer
    · exact params_startRecovery d

/-! ## Packets -/

theorem params_send (size : Nat) (d : Sx1262) : (d.send size).2.params = d.params := by
  rw [send]
  split
  · rfl
  · split
    · rfl
    · have hcalls := (talked_attempt d txCalls).params
      generalize d.attempt txCalls = calls at hcalls ⊢
      rcases calls with ⟨_ | _, d₁⟩
      · exact (params_goDown d₁).trans hcalls
      · have htx := (talked_perform d₁ (.cmd .setTx)).params.trans hcalls
        dsimp only at htx ⊢
        generalize d₁.perform (.cmd .setTx) = tx at htx ⊢
        rcases tx with ⟨_ | _, d₂⟩
        · exact (params_goDown _).trans ((talked_perform d₂ _).params.trans htx)
        · exact htx

theorem params_onTxTimeout (d : Sx1262) : d.onTxTimeout.params = d.params := by
  rw [onTxTimeout]
  split
  · rfl
  · split
    · rfl
    · dsimp only
      split
      · rfl
      · exact params_afterTx _ _

theorem params_handleTxDone (d : Sx1262) : d.handleTxDone.params = d.params := by
  rw [handleTxDone]
  split
  · rfl
  · exact (params_afterTx _ _).trans
      (talked_perform { d with txBusy := false, txTimeout := none } (.line .txen false)).params

theorem params_handleReception (irq : UInt16) (d : Sx1262) :
    (d.handleReception irq).params = d.params := by
  rw [handleReception]
  split
  · have hread := (talked_failedReception irq d).params
    generalize d.failedReception irq = failure at hread ⊢
    obtain ⟨failure, d₁⟩ := failure
    have hmode := (talked_setRxMode (d₁.record (.rxError failure))).params.trans hread
    dsimp only at hmode ⊢
    generalize setRxMode _ = mode at hmode ⊢
    rcases mode with ⟨_ | _, d₂⟩
    · exact (params_fail _ d₂).trans hmode
    · exact hmode
  · split
    · have hpacket := (talked_readPacket d).params
      rw [handleRxDone]
      generalize d.readPacket = packet at hpacket ⊢
      rcases packet with ⟨_ | _ | ⟨data, rssi, snr⟩, d₁⟩
      · exact (params_fail _ d₁).trans hpacket
      · exact hpacket
      · exact hpacket
    · rfl

theorem params_onIrq (drained : Bool) (d : Sx1262) : (d.onIrq drained).params = d.params := by
  rw [onIrq]
  split
  · rfl
  · have htake := (talked_takeIrq d).params
    generalize d.takeIrq = taken at htake ⊢
    rcases taken with ⟨_ | irq, d₁⟩
    · exact (params_fail _ d₁).trans htake
    · dsimp only
      split
      · exact htake
      · rw [handleIrq]
        split
        · dsimp only
          split
          · exact (params_handleTxDone d₁).trans htake
          · exact (params_handleReception irq _).trans ((params_handleTxDone d₁).trans htake)
        · exact (params_handleReception irq d₁).trans htake

theorem params_channelBusy (d : Sx1262) : d.channelBusy.2.params = d.params := by
  rw [channelBusy]
  split
  · rfl
  · have hread := (talked_read d .getIrqStatus 2).params
    generalize d.read .getIrqStatus 2 = status at hread ⊢
    rcases status with ⟨_ | status, d₁⟩
    · exact hread
    · dsimp only at hread ⊢
      split
      · exact hread
      · have hsince : (if d₁.rxSinceMs = 0 then { d₁ with rxSinceMs := d₁.millis } else d₁).params =
            d.params := by
          split <;> exact hread
        generalize (if d₁.rxSinceMs = 0 then _ else d₁) = d₂ at hsince ⊢
        generalize (if has _ kIrqHeaderValid then _ else _) = deadline
        split
        · exact (talked_perform d₂ _).params.trans hsince
        · exact hsince

/-! ## Beginning -/

theorem Acquired.params {d d' : Sx1262} (h : Acquired d d') : d'.params = d.params := by
  obtain ⟨_, _, _, _, htalked⟩ := h
  exact htalked.params

theorem params_start (d : Sx1262) : d.start.2.params = d.params := by
  have hopen := (acquired_openDevices { d with begun := true }).params
  rw [start]
  generalize openDevices { d with begun := true } = opened at hopen ⊢
  rcases opened with ⟨_ | _, d₁⟩
  · exact hopen
  · dsimp only
    split
    · split
      · exact hopen
      · have hup := (params_bringUp { d₁ with watching := true }).trans hopen
        generalize bringUp { d₁ with watching := true } = brought at hup ⊢
        rcases brought with ⟨_ | _, d₂⟩ <;> exact hup
    · exact (params_startRecovery _).trans hopen

/-- Every event but one leaves the parameters as they are. -/
theorem params_handle {event : Event} (hevent : ∀ params, event ≠ .reconfigure params)
    (d : Sx1262) : (d.handle event).params = d.params := by
  cases event with
  | tick ms => rfl
  | start =>
      rw [handle]
      split
      · rfl
      · exact params_start d
  | send size => exact params_send size d
  | irq drained =>
      rw [handle]
      split
      · exact params_onIrq drained d
      · rfl
  | txTimeout => exact params_onTxTimeout d
  | recovery => exact params_onRecoveryTimer d
  | supervise =>
      rw [handle]
      split
      · exact params_supervise d
      · rfl
  | channelBusy => exact params_channelBusy d
  | reconfigure params => exact absurd rfl (hevent params)

theorem params_step {call : Event × List Reply} (hcall : ∀ params, call.1 ≠ .reconfigure params)
    (d : Sx1262) : (d.step call).params = d.params :=
  params_handle hcall { d with script := call.2 }

end Coreletd.Radio.Sx1262
