/-
# Runs of the driver

What the flags say holds after every sequence of calls, with every command free to
fail: transmissions are begun and reported in turn, none is begun that nothing will
end, the chip carries the parameters in force whenever the radio is ready and
silent, and no packet on the air is cut short to reprogram it.
-/

import Coreletd.Radio.DriverStates

namespace Coreletd.Radio.Sx1262

open Coreletd.Library

variable {d d' : Sx1262}

/-! ## Transmissions and their reports -/

/-- Whether a trace ends within a transmission. There is no saying if it shows one
begun before the last was reported done, or a report of none. -/
def onAir : List Activity → Option Bool
  | [] => some false
  | .sent _ :: earlier => if onAir earlier = some false then some true else none
  | .txDone _ :: earlier => if onAir earlier = some true then some false else none
  | _ :: earlier => onAir earlier

theorem onAir_cons {a : Activity} (ha : transmits a = false) (trace : List Activity) :
    onAir (a :: trace) = onAir trace := by
  cases a with
  | sent s => simp [transmits] at ha
  | txDone done => simp [transmits] at ha
  | _ => rfl

theorem onAir_append {news : List Activity} (hnews : ∀ a ∈ news, transmits a = false)
    (trace : List Activity) : onAir (news ++ trace) = onAir trace := by
  induction news with
  | nil => rfl
  | cons a news ih =>
      rw [List.cons_append, onAir_cons (hnews a List.mem_cons_self)]
      exact ih fun other hother => hnews other (List.mem_cons_of_mem _ hother)

/-- The trace shows what `tx_busy` says. -/
def Marked (d : Sx1262) : Prop := onAir d.trace = some d.txBusy

theorem Marked.quiet (hd : d.Marked) (hquiet : Quiet d d') : d'.Marked := by
  obtain ⟨news, hnews, htrace⟩ := hquiet.trace
  rw [Marked, htrace, onAir_append hnews, hquiet.txBusy]
  exact hd

theorem Marked.beginTx (hd : d.Marked) (hidle : d.txBusy = false) (size : Nat) :
    (d.beginTx size).Marked := by
  rw [Marked, hidle] at hd
  exact if_pos hd

theorem Marked.deliverTxDone (hd : d.Marked) (hbusy : d.txBusy = true) (hquiet : Quiet d.idle d')
    (airtimeMs : UInt32) : (d'.deliverTxDone airtimeMs).Marked := by
  obtain ⟨news, hnews, htrace⟩ := hquiet.trace
  have hair : onAir d'.trace = some true := by
    rw [htrace, onAir_append hnews, ← hbusy]
    exact hd
  have hsilent : (d'.deliverTxDone airtimeMs).txBusy = false := hquiet.txBusy
  rw [Marked, hsilent]
  exact if_pos hair

theorem Marked.handleTxDone (hd : d.Marked) (hbusy : d.txBusy = true) : d.handleTxDone.Marked := by
  have hoff := (talked_perform d.idle (.line .txen false)).quiet
  have hafter := hoff.trans (quiet_afterTx "returning to RX after TX" hoff.txBusy)
  rw [Sx1262.handleTxDone, if_neg (by simp [hbusy])]
  exact hd.deliverTxDone hbusy hafter _

theorem marked_handle (hd : d.Marked) (event : Event) : (d.handle event).Marked := by
  have houtcome := handle_outcome d event
  generalize d.handle event = d' at houtcome ⊢
  cases houtcome with
  | quiet hquiet => exact hd.quiet hquiet
  | began size hidle hbefore => exact (hd.quiet hbefore).beginTx hidle size
  | timedOut dueMs harmed hdue hbusy hafter => exact hd.deliverTxDone hbusy hafter 0
  | lost hbusy hup hwatch hfails hbefore =>
      have hheld := hd.quiet hbefore
      exact hheld.deliverTxDone (hbefore.txBusy.trans hbusy) (Quiet.refl _) 0
  | @completed irq d₁ d' hbusy hup hwatch hirq hflag hafter =>
      have htake := (talked_takeIrq d).quiet
      rw [hirq] at htake
      exact ((hd.quiet htake).handleTxDone (htake.txBusy.trans hbusy)).quiet hafter

theorem marked_step (hd : d.Marked) (call : Event × List Reply) : (d.step call).Marked :=
  marked_handle (show Marked { d with script := call.2 } from hd) call.1

theorem marked_new (params : RadioParams) (pins : Pins) (retryIntervalMs : UInt32) (time : Nat) :
    (new params pins retryIntervalMs time).Marked := rfl

theorem marked_run (params : RadioParams) (pins : Pins) (retryIntervalMs : UInt32) (time : Nat)
    (calls : List (Event × List Reply)) :
    (run step (new params pins retryIntervalMs time) calls).Marked := by
  have hstep : ∀ (d : Sx1262) (call : Event × List Reply), d.Marked → (d.step call).Marked :=
    fun _ call hd => marked_step hd call
  exact run_invariant hstep (marked_new params pins retryIntervalMs time) calls

theorem send_iff_of_idle (size : Nat) (hidle : d.txBusy = false) :
    (d.send size).1 = true ↔ (d.send size).2.txBusy = true := by
  have hfalse : ∀ {d' : Sx1262}, d'.txBusy = false → (false = true ↔ d'.txBusy = true) :=
    fun h => by simp [h]
  rw [send]
  split
  · exact hfalse hidle
  · split
    · exact hfalse hidle
    · have hcalls := (talked_attempt d txCalls).quiet
      generalize d.attempt txCalls = calls at hcalls ⊢
      rcases calls with ⟨_ | _, d₁⟩
      · have hbefore := hcalls.txBusy.trans hidle
        exact hfalse ((quiet_goDown hbefore).txBusy.trans hbefore)
      · have htx := hcalls.trans (talked_perform d₁ (.cmd .setTx)).quiet
        dsimp only at htx ⊢
        generalize d₁.perform (.cmd .setTx) = tx at htx ⊢
        rcases tx with ⟨_ | _, d₂⟩
        · have hoff := htx.trans (talked_perform d₂ (.line .txen false)).quiet
          have hbefore := hoff.txBusy.trans hidle
          exact hfalse ((quiet_goDown hbefore).txBusy.trans hbefore)
        · exact Iff.rfl

/-- `send` returns true exactly when it has begun a transmission. -/
theorem send_iff (size : Nat) (d : Sx1262) :
    (d.send size).1 = true ↔ d.txBusy = false ∧ (d.send size).2.txBusy = true := by
  by_cases hbusy : d.txBusy = true
  · rw [send, if_pos (by simp [hbusy])]
    simp [hbusy]
  · have hidle : d.txBusy = false := by simpa using hbusy
    rw [send_iff_of_idle size hidle]
    simp [hidle]

/-- A timeout that comes due ends the transmission it was armed for. -/
theorem onTxTimeout_txBusy {dueMs : UInt32} (harmed : d.txTimeout = some dueMs)
    (hdue : d.due dueMs = true) : d.onTxTimeout.txBusy = false := by
  rw [onTxTimeout, harmed]
  dsimp only
  rw [if_neg (by simp [hdue])]
  split
  next hidle => simpa using hidle
  next => exact (quiet_afterTx _ rfl).txBusy

/-- **The driver's state machine.** After every sequence of calls, whatever the
hardware answers: the radio is not both up and recovering; a transmission has a
radio that is up and a timeout; a retune waits only for a transmission; a recovery
has its timer; transmissions and their reports alternate, with `tx_busy` true exactly
between the two, where `send` begins one exactly when it returns true; and the
timeout, when it comes due, ends the one it was armed for. -/
theorem driver_state_machine (params : RadioParams) (pins : Pins) (retryIntervalMs : UInt32)
    (time : Nat) (calls : List (Event × List Reply)) :
    let d := run step (new params pins retryIntervalMs time) calls
    ¬ (d.healthy = true ∧ d.recovering = true) ∧
    (d.txBusy = true → d.healthy = true ∧ d.txTimeout.isSome = true) ∧
    (d.retunePending = true → d.txBusy = true) ∧
    (d.recovering = true → d.recoveryTimer.isSome = true) ∧
    onAir d.trace = some d.txBusy ∧
    (∀ size script, ({ d with script }.send size).1 = true ↔
      d.txBusy = false ∧ (d.step (.send size, script)).txBusy = true) ∧
    (∀ dueMs script, d.txTimeout = some dueMs → d.due dueMs = true →
      (d.step (.txTimeout, script)).txBusy = false) := by
  intro d
  have hmarked : d.Marked := marked_run params pins retryIntervalMs time calls
  obtain ⟨since, hd⟩ : ∃ since, d.Coherent since :=
    coherent_run params pins retryIntervalMs time calls
  refine ⟨?_, hd.transmitting, hd.retune, ?_, hmarked, fun size script => ?_,
    fun dueMs script harmed hdue => ?_⟩
  · rintro ⟨hup, hrecovering⟩
    exact absurd (hd.exclusive hup) (by simp [hrecovering])
  · intro hrecovering
    rw [hd.recovery]
    exact hrecovering
  · exact send_iff size { d with script }
  · exact onTxTimeout_txBusy (d := { d with script }) harmed hdue

/-! ## Reprogramming -/

/-- A command of `configure`, under some parameters. -/
def Configures (opcode : Opcode) : Prop := ∃ p what, (.cmd opcode, what) ∈ configureCalls p

/-- What the interrupt handler needs to take a packet in is not among them. -/
theorem not_configures_of_listens {opcode : Opcode} (hlistens : listens opcode = true) :
    ¬ Configures opcode := by
  rintro ⟨p, what, hcall⟩
  rw [configureCalls] at hcall
  cases opcode <;> simp [listens] at hlistens <;> split at hcall <;> split at hcall <;>
    simp at hcall

/-- The packet on the air is over: its timeout is due, or TxDone is among the flags
of an interrupt. -/
def Ends (d : Sx1262) : Event → Prop
  | .txTimeout => ∃ dueMs, d.txTimeout = some dueMs ∧ d.due dueMs = true
  | .irq drained => drained = true ∧ d.watching = true ∧
      ∃ irq, d.takeIrq.1 = .ok irq ∧ has irq kIrqTxDone = true
  | _ => False

/-- The chip was given no command of `configure`. -/
def Untouched (d d' : Sx1262) : Prop :=
  ∃ news, d'.trace = news ++ d.trace ∧ ∀ opcode, .command opcode ∈ news → ¬ Configures opcode

theorem Untouched.refl (d : Sx1262) : Untouched d d := ⟨[], rfl, by simp⟩

theorem Untouched.of_trace {d d' : Sx1262} (htrace : d'.trace = d.trace) : Untouched d d' :=
  ⟨[], htrace, by simp⟩

theorem Untouched.trans {d d' d'' : Sx1262} (hfirst : Untouched d d') (hsecond : Untouched d' d'') :
    Untouched d d'' := by
  obtain ⟨news, htrace, hnews⟩ := hfirst
  obtain ⟨news', htrace', hnews'⟩ := hsecond
  refine ⟨news' ++ news, by rw [htrace', htrace, List.append_assoc], fun opcode hopcode => ?_⟩
  rcases List.mem_append.mp hopcode with hlate | hearly
  · exact hnews' opcode hlate
  · exact hnews opcode hearly

theorem Issued.untouched {allowed : Opcode → Bool} (h : Issued allowed d d')
    (hallowed : ∀ opcode, allowed opcode = true → ¬ Configures opcode) : Untouched d d' := by
  obtain ⟨_, _, commands, hcommands, _, rfl⟩ := h
  refine ⟨commands.map .command, rfl, fun opcode hopcode => ?_⟩
  obtain ⟨other, hother, hsame⟩ := List.mem_map.mp hopcode
  obtain rfl : other = opcode := by simpa using hsame
  exact hallowed other (hcommands other hother)

theorem Issued.untouched_of_listens (h : Issued listens d d') : Untouched d d' :=
  h.untouched fun _ hlistens => not_configures_of_listens hlistens

theorem untouched_record {a : Activity} (ha : ∀ opcode, a ≠ .command opcode) (d : Sx1262) :
    Untouched d (d.record a) :=
  ⟨[a], rfl, fun opcode hopcode => absurd (List.mem_singleton.mp hopcode).symm (ha opcode)⟩

/-- Switching a line is no command. -/
theorem untouched_line (d : Sx1262) (pin : Line) (level : Bool) :
    Untouched d (d.perform (.line pin level)).2 := by
  have hline := issued_perform listens d (.line pin level) (fun opcode h => by cases h)
  exact hline.untouched_of_listens

theorem untouched_goDown (d : Sx1262) : Untouched d d.goDown := by
  have hmark : Untouched d
      { d with initialFailureReported := true, healthy := false, retunePending := false } :=
    .of_trace rfl
  have hoff := (hmark.trans (untouched_line _ .txen false)).trans (untouched_line _ .rxen false)
  simp only [goDown]
  generalize (perform _ (.line .rxen false)).2 = d' at hoff ⊢
  split
  · have hdone : Untouched d' { d' with txBusy := false, txTimeout := none } := .of_trace rfl
    exact (hoff.trans hdone).trans (untouched_record (by simp) _)
  · exact hoff

theorem untouched_handleReception (irq : UInt16) (d : Sx1262) :
    Untouched d (d.handleReception irq) := by
  rw [handleReception]
  split
  · have hread := (issued_failedReception irq d).untouched_of_listens
    generalize d.failedReception irq = failure at hread ⊢
    obtain ⟨failure, d₁⟩ := failure
    have hreport := hread.trans (untouched_record (a := .rxError failure) (by simp) d₁)
    have hmode := hreport.trans (issued_setRxMode _).untouched_of_listens
    dsimp only at hmode ⊢
    generalize setRxMode _ = mode at hmode ⊢
    rcases mode with ⟨_ | _, d₂⟩
    · exact hmode.trans (untouched_goDown d₂)
    · exact hmode
  · split
    · have hpacket := (issued_readPacket d).untouched_of_listens
      rw [handleRxDone]
      generalize d.readPacket = packet at hpacket ⊢
      rcases packet with ⟨_ | _ | ⟨data, rssi, snr⟩, d₁⟩
      · exact hpacket.trans (untouched_goDown d₁)
      · exact hpacket
      · exact hpacket.trans (untouched_record (by simp) d₁)
    · exact .refl d

theorem untouched_onIrq (drained : Bool) (hwatch : d.watching = true)
    (hgoesOn : ¬ d.Ends (.irq drained)) : Untouched d (d.onIrq drained) := by
  rw [onIrq]
  split
  · exact .refl d
  next hready =>
    obtain ⟨hdrained, -⟩ : drained = true ∧ d.healthy = true := by simpa using hready
    have htake := (issued_takeIrq d).untouched_of_listens
    rw [Ends] at hgoesOn
    generalize d.takeIrq = taken at htake hgoesOn ⊢
    rcases taken with ⟨_ | irq, d₁⟩
    · exact htake.trans (untouched_goDown d₁)
    · dsimp only at htake ⊢
      split
      · exact htake
      · have hflag : has irq kIrqTxDone = false := by
          apply Bool.eq_false_iff.mpr
          intro hflag
          exact hgoesOn ⟨hdrained, hwatch, irq, rfl, hflag⟩
        rw [handleIrq, hflag]
        exact htake.trans (untouched_handleReception irq d₁)

/-- A call that finds the packet over leaves the radio not transmitting. -/
theorem txBusy_of_ends (hup : d.healthy = true) {event : Event} (hends : d.Ends event) :
    (d.handle event).txBusy = false := by
  cases event with
  | txTimeout =>
      obtain ⟨dueMs, harmed, hdue⟩ := hends
      exact onTxTimeout_txBusy harmed hdue
  | irq drained =>
      obtain ⟨rfl, hwatch, irq, htaken, hflag⟩ := hends
      rw [handle, if_pos hwatch, onIrq, if_neg (by simp [hup])]
      generalize d.takeIrq = taken at htaken ⊢
      obtain ⟨result, d₁⟩ := taken
      obtain rfl : result = .ok irq := htaken
      have hsome : irq ≠ 0 := by
        rintro rfl
        exact absurd hflag (by decide)
      dsimp only
      rw [if_neg hsome, handleIrq, if_pos hflag]
      exact (quiet_afterTxDone irq d₁).txBusy.trans (handleTxDone_txBusy d₁)
  | _ => exact hends.elim

/-- While a packet stays on the air, no call gives the chip a command of
`configure`. -/
theorem untouched_handle {since : UInt32} (hd : d.Coherent since) (hbusy : d.txBusy = true)
    (event : Event) (hgoesOn : ¬ d.Ends event) : Untouched d (d.handle event) := by
  obtain ⟨hup, -⟩ := hd.transmitting hbusy
  cases event with
  | tick ms => exact .of_trace rfl
  | start => rw [handle, if_pos (hd.begun (.inl hup))]; exact .refl d
  | send size =>
      rw [handle, send, if_pos (by simp [hbusy])]
      exact .refl d
  | irq drained =>
      rw [handle]
      split
      next hwatch => exact untouched_onIrq drained hwatch hgoesOn
      next => exact .refl d
  | txTimeout =>
      rw [handle, onTxTimeout]
      cases harmed : d.txTimeout with
      | none => exact .refl d
      | some dueMs =>
          have hearly : ¬ d.due dueMs = true := fun hdue => hgoesOn ⟨dueMs, harmed, hdue⟩
          dsimp only
          rw [if_pos (by simpa using hearly)]
          exact .refl d
  | recovery =>
      have hnone : d.recoveryTimer = none := by
        rw [← Option.not_isSome_iff_eq_none, hd.recovery, hd.exclusive hup]
        exact Bool.false_ne_true
      rw [handle, onRecoveryTimer, hnone]
      exact .refl d
  | supervise =>
      rw [handle]
      split
      · rw [supervise, if_neg (by simp [hd.exclusive hup]), if_pos hup, if_pos hbusy]
        exact .refl d
      · exact .refl d
  | channelBusy =>
      rw [handle, channelBusy, if_pos (by simp [hbusy])]
      exact .refl d
  | reconfigure params =>
      simp only [handle, reconfigure]
      split
      · exact .of_trace rfl
      · exact .of_trace rfl

/-- **A retune is never lost.** After every sequence of calls, whatever the hardware
answers, a radio that is ready and not transmitting carries the parameters in force,
all but the duty cycle; and while one transmits, a call either finds the packet over
and ends the transmission, or gives the chip no command of `configure`. -/
theorem retune_never_lost (params : RadioParams) (pins : Pins) (retryIntervalMs : UInt32)
    (time : Nat) (calls : List (Event × List Reply)) :
    let d := run step (new params pins retryIntervalMs time) calls
    (d.healthy = true → d.txBusy = false →
      ∃ p, d.programmed = some p ∧ p.SameOnChip d.params) ∧
    ∀ event script, d.txBusy = true →
      Ends { d with script } event ∧ (d.step (event, script)).txBusy = false ∨
        Untouched d (d.step (event, script)) := by
  intro d
  obtain ⟨since, hd⟩ : ∃ since, d.Coherent since :=
    coherent_run params pins retryIntervalMs time calls
  refine ⟨fun hup hidle => hd.programmed hup ?_, fun event script hbusy => ?_⟩
  · apply Bool.eq_false_iff.mpr
    intro hpending
    exact absurd (hd.retune hpending) (Bool.eq_false_iff.mp hidle)
  · have hready := hd.answering script
    by_cases hends : Ends { d with script } event
    · exact .inl ⟨hends, txBusy_of_ends (hready.transmitting hbusy).1 hends⟩
    · exact .inr (untouched_handle hready hbusy event hends)

end Coreletd.Radio.Sx1262
