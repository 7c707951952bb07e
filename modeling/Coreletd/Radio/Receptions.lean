/-
# Receptions and the polls that see them

The chip latches a flag when it detects a preamble and another when a header is
valid, and the driver's `channel_busy` reads them. It remembers since when it has
seen one, to give up on a reception that never completes. The receptions themselves
are outside the driver; they are numbered here, and each poll that sees one is kept,
so that the time it has been seen for can be told from the time on record.
-/

import Coreletd.Radio.DriverRuns
import Coreletd.Radio.TransmitCharge
import Coreletd.Util.Bytes

namespace Coreletd.Radio

open Coreletd.Library
open Coreletd.Library.SerialClock
open Coreletd.Radio.Sx1262

/-- How a reception ends, by the flag it raises. -/
inductive Ending where
  | done
  | crcError
  | headerError
  deriving DecidableEq, Repr

def Ending.flag : Ending → UInt16
  | .done => kIrqRxDone
  | .crcError => kIrqCrcErr
  | .headerError => kIrqHeaderErr

/-- The driver and the chip's flags, with the reception in progress, how many there
were before it, and which one each poll saw when. -/
structure Band where
  driver : Sx1262
  flags : UInt16 := 0
  reception : Option Nat := none
  count : Nat := 0
  observed : List (Nat × Nat) := []

namespace Band

/-- What happens on the band: a reception begins, has a valid header, ends with a
flag or fades without one; the chip is done transmitting; or the driver is called. -/
inductive Event where
  | preamble
  | header
  | finish (ending : Ending)
  | fade
  | transmitted
  | call (event : Sx1262.Event) (replies : List Reply)

/-- The two bytes in which the chip reports its flags. -/
def flagBytes (flags : UInt16) : List UInt8 := [(flags >>> 8).toUInt8, flags.toUInt8]

/-- The first reply carries the flags. -/
def reporting (flags : UInt16) : List Reply → List Reply
  | [] => [{ data := flagBytes flags }]
  | reply :: replies => { reply with data := flagBytes flags } :: replies

/-- The replies to a call. Those that ask for the flags first are answered with them. -/
def replies (flags : UInt16) : Sx1262.Event → List Reply → List Reply
  | .irq _, replies => reporting flags replies
  | .channelBusy, replies => reporting flags replies
  | _, replies => replies

/-- The driver at the moment it is called. -/
def called (s : Band) (event : Sx1262.Event) (answers : List Reply) : Sx1262 :=
  { s.driver with script := replies s.flags event answers }

/-- The flags a reception in progress raises. -/
def kReceiving : UInt16 := kIrqPreambleDetected ||| kIrqHeaderValid

/-- The chip accepted a ClearIrqStatus between the two states of the driver. -/
def cleared (before after : Sx1262) : Bool :=
  (after.trace.take (after.trace.length - before.trace.length)).contains
    (.command .clearIrqStatus)

/-- The flags after a call: a poll clears those of a reception, every other call
that clears any clears them all. -/
def flagsAfter (s : Band) (event : Sx1262.Event) (after : Sx1262) : UInt16 :=
  if cleared s.driver after then
    if event matches .channelBusy then s.flags &&& ~~~kReceiving else 0
  else s.flags

/-- The driver listens: the chip is up and not transmitting, and answers with its
flags. -/
def Listens (d : Sx1262) : Prop :=
  d.healthy = true ∧ d.txBusy = false ∧ (d.read .getIrqStatus 2).1.isSome = true

instance (d : Sx1262) : Decidable (Listens d) := inferInstanceAs (Decidable (_ ∧ _ ∧ _))

/-- The time at which a poll has its flags. -/
def polledAt (d : Sx1262) : Nat := (d.read .getIrqStatus 2).2.time

/-- What a poll sees: the reception in progress, if its flag is up. -/
def sees (s : Band) (event : Sx1262.Event) (answers : List Reply) : List (Nat × Nat) :=
  match event, s.reception with
  | .channelBusy, some n =>
      let d := s.called .channelBusy answers
      if Listens d ∧ has s.flags kReceiving = true then [(n, polledAt d)] else []
  | _, _ => []

def step (s : Band) : Event → Band
  | .preamble =>
      { s with
        reception := some s.count
        count := s.count + 1
        flags := s.flags ||| kIrqPreambleDetected }
  | .header => if s.reception.isSome then { s with flags := s.flags ||| kIrqHeaderValid } else s
  | .finish ending =>
      if s.reception.isSome then { s with reception := none, flags := s.flags ||| ending.flag } else s
  | .fade => { s with reception := none }
  | .transmitted => { s with flags := s.flags ||| kIrqTxDone }
  | .call event answers =>
      let after := (s.called event answers).handle event
      { s with
        driver := after
        flags := s.flagsAfter event after
        observed := s.sees event answers ++ s.observed }

/-- How long a reception may be on record before it is given up: a header must
arrive in its time, a packet in that of the longest there is. -/
def deadline (flags : UInt16) (p : RadioParams) : UInt32 :=
  if has flags kIrqHeaderValid then p.airtimeMs 255 else p.symbolsMs (p.preambleSymbols + 16)

/-- A poll that answers "not busy" over a reception in progress whose flag is up
has seen that reception before, longer ago than the deadline. -/
def NotWrittenOffEarly (s : Band) (answers : List Reply) : Prop :=
  let d := s.called .channelBusy answers
  Listens d → has s.flags kReceiving = true → ∀ n, s.reception = some n →
    d.channelBusy.1 = false →
    ∃ seenAt, (n, seenAt) ∈ s.observed ∧
      (deadline s.flags s.driver.params).toNat < polledAt d - seenAt

/-- No reception begins while an earlier one is on record: a poll has found the
channel idle in between. -/
def BeginsFresh (s : Band) (event : Event) : Prop :=
  event = .preamble → s.driver.rxSinceMs = 0

/-! ## What one poll does -/

theorem irqWord_flagBytes (flags : UInt16) : irqWord (flagBytes flags) = flags := by
  have hjoined := join_putU16 flags
  rw [UInt16.or_comm] at hjoined
  exact hjoined

theorem exists_reporting (flags : UInt16) (answers : List Reply) :
    ∃ (reply : Reply) (rest : List Reply),
      reporting flags answers = { reply with data := flagBytes flags } :: rest := by
  cases answers with
  | nil => exact ⟨{}, [], rfl⟩
  | cons reply rest => exact ⟨reply, rest, rfl⟩

/-- What is read of the chip's flags is what they are. -/
theorem irqWord_of_read {s : Band} {answers : List Reply} {status : List UInt8}
    (hread : ((s.called .channelBusy answers).read .getIrqStatus 2).1 = some status) :
    irqWord status = s.flags := by
  obtain ⟨reply, rest, hscript⟩ := exists_reporting s.flags answers
  rw [called, replies, hscript, Sx1262.read, io] at hread
  dsimp only at hread
  split at hread
  · obtain rfl := Option.some.inj hread
    exact irqWord_flagBytes s.flags
  · exact absurd hread (by simp)

/-- What one poll can do to the time on record. -/
inductive Polled (d : Sx1262) (flags : UInt16) (answer : Bool) (after : Sx1262) : Prop
  | deaf (hdeaf : ¬ Listens d) (hkept : after.rxSinceMs = d.rxSinceMs)
  | idle (hflag : has flags kReceiving = false) (hreset : after.rxSinceMs = 0)
  | writtenOff (hanswer : answer = false) (hreset : after.rxSinceMs = 0)
      (hold : d.rxSinceMs ≠ 0)
      (hlate : deadline flags d.params < reading (polledAt d) - d.rxSinceMs)
  | noted (hanswer : answer = true) (hlistens : Listens d) (hflag : has flags kReceiving = true)
      (hsince : after.rxSinceMs =
        if d.rxSinceMs = 0 then reading (polledAt d) else d.rxSinceMs)
      (htime : after.time = polledAt d)

theorem polled_channelBusy {s : Band} (answers : List Reply) :
    Polled (s.called .channelBusy answers) s.flags (s.called .channelBusy answers).channelBusy.1
      (s.called .channelBusy answers).channelBusy.2 := by
  have hword : ∀ status, ((s.called .channelBusy answers).read .getIrqStatus 2).1 = some status →
      irqWord status = s.flags := fun _ hread => irqWord_of_read hread
  generalize s.called .channelBusy answers = d at hword ⊢
  rw [channelBusy]
  split
  next hdown =>
    refine .deaf (fun hlistens => ?_) rfl
    simp [hlistens.1, hlistens.2.1] at hdown
  next hup =>
    obtain ⟨hhealthy, hsilent⟩ : d.healthy = true ∧ d.txBusy = false := by simpa using hup
    have htalked := (talked_read d .getIrqStatus 2).sameControl
    cases hread : d.read .getIrqStatus 2 with
    | mk status d₁ =>
        rw [hread] at htalked hword
        cases status with
        | none =>
            refine .deaf (fun hlistens => ?_) htalked.rxSinceMs
            have hanswered := hlistens.2.2
            rw [hread] at hanswered
            exact Bool.false_ne_true hanswered
        | some status =>
            have hlistens : Listens d := ⟨hhealthy, hsilent, by rw [hread]; rfl⟩
            have hpolled : polledAt d = d₁.time := by rw [polledAt, hread]
            dsimp only
            rw [hword status rfl]
            split
            next hflag => exact .idle (by simpa [kReceiving] using hflag) rfl
            next hflag =>
              have hraised : has s.flags kReceiving = true := by simpa [kReceiving] using hflag
              have hnoting : (if d₁.rxSinceMs = 0 then { d₁ with rxSinceMs := d₁.millis } else d₁) =
                  { d₁ with
                    rxSinceMs := if d₁.rxSinceMs = 0 then d₁.millis else d₁.rxSinceMs } := by
                split <;> rfl
              have hsince : (if d₁.rxSinceMs = 0 then d₁.millis else d₁.rxSinceMs) =
                  if d.rxSinceMs = 0 then reading (polledAt d) else d.rxSinceMs := by
                rw [htalked.rxSinceMs, hpolled, millis]
              have hlimit : (if has s.flags kIrqHeaderValid then d₁.params.airtimeMs 255
                  else d₁.params.symbolsMs (d₁.params.preambleSymbols + 16)) =
                  deadline s.flags d.params := by
                rw [← htalked.params]
                rfl
              rw [hnoting]
              dsimp only
              rw [hlimit, hsince]
              have hclock : d₁.millis = reading (polledAt d) := by rw [hpolled, millis]
              by_cases hold : d.rxSinceMs = 0
              · -- seen for the first time, it is not late for any deadline
                rw [if_pos hold, hclock, UInt32.sub_self, if_neg (by simp)]
                exact .noted rfl hlistens hraised (if_pos hold).symm hpolled.symm
              · rw [if_neg hold, hclock]
                split
                next hlate => exact .writtenOff rfl rfl hold hlate
                next => exact .noted rfl hlistens hraised (if_neg hold).symm hpolled.symm

/-! ## Whole runs -/

/-- What is on record is a poll that saw the reception in progress, if there is one. -/
structure OnRecord (s : Band) : Prop where
  coherent : s.driver.Coherent s.driver.rxSinceMs
  seen : s.driver.rxSinceMs ≠ 0 → ∀ n, s.reception = some n →
    ∃ seenAt, (n, seenAt) ∈ s.observed ∧ s.driver.rxSinceMs = reading seenAt ∧
      seenAt ≤ s.driver.time

theorem time_le_handleTxDone (d : Sx1262) : d.time ≤ d.handleTxDone.time := by
  rw [handleTxDone]
  split
  · exact le_rfl
  · have hoff := (talked_perform d.idle (.line .txen false)).quiet
    exact le_trans hoff.time (quiet_afterTx "returning to RX after TX" hoff.txBusy).time

theorem time_le_handle (d : Sx1262) (event : Sx1262.Event) : d.time ≤ (d.handle event).time := by
  have houtcome := handle_outcome d event
  generalize d.handle event = d' at houtcome ⊢
  cases houtcome with
  | quiet hquiet => exact hquiet.time
  | began size hidle hbefore => exact hbefore.time
  | timedOut dueMs harmed hdue hbusy hafter => exact hafter.time
  | lost hbusy hup hwatch hfails hbefore => exact hbefore.time
  | @completed irq d₁ d' hbusy hup hwatch hirq hflag hafter =>
      have htake := (talked_takeIrq d).quiet
      rw [hirq] at htake
      exact le_trans (le_trans htake.time (time_le_handleTxDone d₁)) hafter.time

/-- A call of the driver that is no poll leaves the record as it is. -/
theorem OnRecord.call {s : Band} (hs : s.OnRecord) {event : Sx1262.Event}
    (hpoll : event ≠ .channelBusy) (answers : List Reply) :
    (s.step (.call event answers)).OnRecord := by
  have hready : (s.called event answers).Coherent s.driver.rxSinceMs :=
    hs.coherent.answering _
  have hafter := coherent_handle hready event hpoll
  have hkept : (s.step (.call event answers)).driver.rxSinceMs = s.driver.rxSinceMs :=
    hafter.rxSinceMs
  refine ⟨?_, fun hsome n hn => ?_⟩
  · rw [hkept]
    exact hafter
  · rw [hkept] at hsome ⊢
    obtain ⟨seenAt, hin, hstamp, hearlier⟩ := hs.seen hsome n hn
    exact ⟨seenAt, List.mem_append_right _ hin, hstamp,
      le_trans hearlier (time_le_handle (s.called event answers) event)⟩

/-- A poll leaves on record what it saw, or nothing. -/
theorem OnRecord.poll {s : Band} (hs : s.OnRecord) (answers : List Reply) :
    (s.step (.call .channelBusy answers)).OnRecord := by
  have hready : (s.called .channelBusy answers).Coherent s.driver.rxSinceMs :=
    hs.coherent.answering _
  have hlater := time_le_handle (s.called .channelBusy answers) .channelBusy
  refine ⟨(hready.noting _).same (sameControl_channelBusy _), fun hsome n hn => ?_⟩
  have hkeep : s.driver.rxSinceMs ≠ 0 →
      (s.called .channelBusy answers).channelBusy.2.rxSinceMs = s.driver.rxSinceMs →
      ∃ seenAt, (n, seenAt) ∈ (s.step (.call .channelBusy answers)).observed ∧
        (s.called .channelBusy answers).channelBusy.2.rxSinceMs = reading seenAt ∧
        seenAt ≤ (s.step (.call .channelBusy answers)).driver.time := by
    intro hold hsame
    obtain ⟨seenAt, hin, hstamp, hearlier⟩ := hs.seen hold n hn
    exact ⟨seenAt, List.mem_append_right _ hin, hsame.trans hstamp, le_trans hearlier hlater⟩
  change s.reception = some n at hn
  change (s.called .channelBusy answers).channelBusy.2.rxSinceMs ≠ 0 at hsome
  rcases polled_channelBusy answers with
    ⟨-, hkept⟩ | ⟨-, hreset⟩ | ⟨-, hreset, -, -⟩ | ⟨-, hlistens, hflag, hsince, htime⟩
  · exact hkeep (fun hzero => hsome (hkept.trans hzero)) hkept
  · exact absurd hreset hsome
  · exact absurd hreset hsome
  · by_cases hold : s.driver.rxSinceMs = 0
    · rw [show (s.called .channelBusy answers).rxSinceMs = s.driver.rxSinceMs from rfl,
        if_pos hold] at hsince
      have hsees : s.sees .channelBusy answers =
          [(n, polledAt (s.called .channelBusy answers))] := by
        simp only [sees, hn]
        exact if_pos ⟨hlistens, hflag⟩
      refine ⟨polledAt (s.called .channelBusy answers), ?_, hsince, htime.ge⟩
      exact List.mem_append_left _ (by rw [hsees]; exact List.mem_cons_self)
    · rw [show (s.called .channelBusy answers).rxSinceMs = s.driver.rxSinceMs from rfl,
        if_neg hold] at hsince
      exact hkeep hold hsince

theorem OnRecord.step {s : Band} (hs : s.OnRecord) {event : Event} (hok : s.BeginsFresh event) :
    (s.step event).OnRecord := by
  cases event with
  | preamble => exact ⟨hs.coherent, fun hsome => absurd (hok rfl) hsome⟩
  | header =>
      rw [Band.step]
      split
      · exact ⟨hs.coherent, hs.seen⟩
      · exact hs
  | finish ending =>
      rw [Band.step]
      split
      · exact ⟨hs.coherent, fun _ n hn => absurd hn (by simp)⟩
      · exact hs
  | fade => exact ⟨hs.coherent, fun _ n hn => absurd hn (by simp [Band.step])⟩
  | transmitted => exact ⟨hs.coherent, hs.seen⟩
  | call event answers =>
      by_cases hpoll : event = .channelBusy
      · subst hpoll
        exact hs.poll answers
      · exact hs.call hpoll answers

/-- What is on record gives a reception its time. -/
theorem OnRecord.notWrittenOffEarly {s : Band} (hs : s.OnRecord) (answers : List Reply) :
    s.NotWrittenOffEarly answers := by
  intro hlistens hflag n hn hanswer
  rcases polled_channelBusy answers with
    ⟨hdeaf, -⟩ | ⟨hnone, -⟩ | ⟨-, -, hold, hlate⟩ | ⟨hbusy, -⟩
  · exact absurd hlistens hdeaf
  · exact absurd hflag (Bool.eq_false_iff.mp hnone)
  · obtain ⟨seenAt, hin, hstamp, hearlier⟩ := hs.seen hold n hn
    have hread : s.driver.time ≤ polledAt (s.called .channelBusy answers) :=
      (talked_read (s.called .channelBusy answers) .getIrqStatus 2).quiet.time
    -- what a 32-bit difference shows is no more than the true difference
    have hshown := toNat_reading_sub_le (le_trans hearlier hread)
    rw [show (s.called .channelBusy answers).rxSinceMs = s.driver.rxSinceMs from rfl, hstamp,
      UInt32.lt_iff_toNat_lt] at hlate
    exact ⟨seenAt, hin, Nat.lt_of_lt_of_le hlate hshown⟩
  · exact absurd (hanswer.symm.trans hbusy) Bool.false_ne_true

/-- A driver just constructed, with nothing on the air. -/
def new (params : RadioParams) (pins : Pins) (retryIntervalMs : UInt32) (time : Nat) : Band :=
  { driver := Sx1262.new params pins retryIntervalMs time }

/-- **A live reception is not written off early, where each begins afresh.** In every
run in which a poll finds the channel idle between a reception that was seen and the
next, a poll that answers "not busy" over a reception in progress has seen that one
before, longer ago than its deadline. -/
theorem not_written_off_early (params : RadioParams) (pins : Pins) (retryIntervalMs : UInt32)
    (time : Nat) (events : List Event)
    (hfresh : Along step BeginsFresh (new params pins retryIntervalMs time) events)
    (answers : List Reply) :
    (run step (new params pins retryIntervalMs time) events).NotWrittenOffEarly answers := by
  have hinit : (new params pins retryIntervalMs time).OnRecord :=
    ⟨coherent_new params pins retryIntervalMs time, fun hsome => absurd rfl hsome⟩
  have hstep : ∀ (s : Band) (event : Event), s.OnRecord → s.BeginsFresh event →
      (s.step event).OnRecord := fun _ _ hs hok => hs.step hok
  exact (Along.invariant hstep hinit hfresh).notWrittenOffEarly answers

/-- A preamble that leads to nothing, polled once and then after 300 ms; a header at
these settings takes 197 ms. -/
def falsePreamble : List Event :=
  [.call .start chipAnswers, .preamble, .call .channelBusy [], .call (.tick 300) []]

/-- It is given up, having been seen 300 ms ago. -/
theorem not_written_off_early_false_preamble :
    let s := run step (new tuned {} 0 0) falsePreamble
    (s.called .channelBusy []).channelBusy.1 = false ∧ s.observed = [(0, 27)] ∧
      ∃ seenAt, (0, seenAt) ∈ s.observed ∧
        (deadline s.flags s.driver.params).toNat < polledAt (s.called .channelBusy []) - seenAt := by
  refine ⟨by decide +kernel, by decide +kernel, ?_⟩
  refine not_written_off_early tuned {} 0 0 falsePreamble
    ⟨fun h => absurd h (by simp), fun _ => by decide +kernel, fun h => absurd h (by simp),
      fun h => absurd h (by simp), trivial⟩ [] ?_ ?_ 0 ?_ ?_ <;> decide +kernel

/-- A packet that a poll sees arrives and is taken in by the interrupt; 300 ms later
the next begins. -/
def backToBack : List Event :=
  [.call .start chipAnswers, .preamble, .call .channelBusy [], .header, .finish .done,
    .call (.irq true) [{}, {}, { data := [1, 0] }, { data := [7] }, { data := [80, 20, 0] }],
    .call (.tick 300) [], .preamble]

/-- The first poll to see the second packet writes it off. -/
theorem second_packet_written_off :
    ¬ (run step (new tuned {} 0 0) backToBack).NotWrittenOffEarly [] := by
  intro hnever
  obtain ⟨seenAt, hin, -⟩ := hnever (by decide +kernel) (by decide +kernel) 1 (by decide +kernel)
    (by decide +kernel)
  have hobserved : (run step (new tuned {} 0 0) backToBack).observed = [(0, 27)] := by
    decide +kernel
  rw [hobserved] at hin
  simp at hin

end Band

end Coreletd.Radio
