/-
# The queue is never left asleep

One timer serves every reason the pump has to wait, and a transmission in progress
wakes it without one. The source keeps neither the true time its timer is due nor
whether the radio is on the air. Both are kept beside the dispatcher here, so that
what the 32-bit comparison in `schedule_pump` decides can be held against what is
the case.
-/

import Coreletd.Mesh.PumpExits

namespace Coreletd.Mesh

open Coreletd.Crypto
open Coreletd.Library
open Coreletd.Library.SerialClock
open Coreletd.Proto

universe u v

/-- How long a packet's backoff still lasts, as the pump reads it. -/
def Queued.backoffLeft {H : Type u} (now : UInt32) (q : Queued H) : Nat :=
  (signed (q.notBeforeMs - now)).toNat

namespace Dispatcher

variable {H : Type u} {σ : Type v} {call : Handler H σ} {radio : RadioView} {d : Dispatcher H σ}

/-- When the armed timer is due after a step: as before if it was armed and its
due reading is the same, and otherwise the delay it was armed with after now. -/
def dueAfter (before after : Dispatcher H σ) (dueAt : Nat) : Nat :=
  if before.pumpTimer = true ∧ after.pumpDueMs = before.pumpDueMs then dueAt
  else after.time + (after.pumpDueMs - after.nowMs).toNat

/-- The dispatcher's record of an armed timer is the reading of its due time,
which is less than half the clock's range ahead. -/
structure Timed (d : Dispatcher H σ) (dueAt : Nat) : Prop where
  due : d.pumpTimer = true → d.pumpDueMs = reading dueAt
  near : d.pumpTimer = true → dueAt < d.time + 2 ^ 31

/-- The same timer, if one is armed, at the same time. -/
structure SameTimer (d d' : Dispatcher H σ) : Prop where
  time : d'.time = d.time
  pumpTimer : d'.pumpTimer = d.pumpTimer
  pumpDueMs : d.pumpTimer = true → d'.pumpDueMs = d.pumpDueMs

theorem SameTimers.sameTimer {d' : Dispatcher H σ} (hsame : SameTimers d d') : SameTimer d d' :=
  ⟨hsame.time, hsame.pumpTimer, hsame.pumpDueMs⟩

theorem SameTimer.trans {d' d'' : Dispatcher H σ} (hfirst : SameTimer d d')
    (hsecond : SameTimer d' d'') : SameTimer d d'' where
  time := hsecond.time.trans hfirst.time
  pumpTimer := hsecond.pumpTimer.trans hfirst.pumpTimer
  pumpDueMs := fun harmed =>
    (hsecond.pumpDueMs (hfirst.pumpTimer.trans harmed)).trans (hfirst.pumpDueMs harmed)

/-! ## One call of `schedule_pump` -/

theorem schedulePump_armed (d : Dispatcher H σ) (delayMs : UInt32) :
    (d.schedulePump delayMs).pumpTimer = true := by
  rw [schedulePump]
  split
  next hkept => exact (Bool.and_eq_true_iff.mp hkept).1
  · rfl

/-- The timer is due no later than asked for, whatever it was armed for before. -/
theorem timed_schedulePump {d' : Dispatcher H σ} {dueAt : Nat} {delayMs : UInt32}
    (hd : d.Timed dueAt) (hsame : SameTimer d d') (hdelay : delayMs.toNat < 2 ^ 31) :
    (d'.schedulePump delayMs).Timed (dueAfter d (d'.schedulePump delayMs) dueAt) ∧
      dueAfter d (d'.schedulePump delayMs) dueAt ≤ d.time + delayMs.toNat := by
  have hasked : d'.nowMs + delayMs = reading (d.time + delayMs.toNat) := by
    rw [nowMs, hsame.time, reading_add_word]
  rw [schedulePump]
  split
  next hkept =>
    rw [hsame.pumpTimer, Bool.and_eq_true, decide_eq_true_eq] at hkept
    obtain ⟨harmed, hlater⟩ := hkept
    have hdue : dueAfter d d' dueAt = dueAt := if_pos ⟨harmed, hsame.pumpDueMs harmed⟩
    rw [hdue]
    have hnear := hd.near harmed
    refine ⟨⟨fun _ => ?_, fun _ => ?_⟩, ?_⟩
    · rw [hsame.pumpDueMs harmed, hd.due harmed]
    · rw [hsame.time]
      exact hnear
    · -- a timer due later than asked for would have compared as later
      rw [hasked, hsame.pumpDueMs harmed, hd.due harmed, signed_sub_eq_ite] at hlater
      split at hlater <;> omega
  next hreplaced =>
    have hdue : dueAfter d { d' with pumpDueMs := d'.nowMs + delayMs, pumpTimer := true } dueAt =
        d.time + delayMs.toNat := by
      rw [dueAfter, if_neg]
      · change d'.time + (d'.nowMs + delayMs - d'.nowMs).toNat = _
        rw [hsame.time, UInt32.add_comm, UInt32.add_sub_cancel]
      · rintro ⟨harmed, hequal⟩
        apply hreplaced
        change d'.nowMs + delayMs = d.pumpDueMs at hequal
        rw [hsame.pumpTimer, harmed, hsame.pumpDueMs harmed, hequal, UInt32.sub_self]
        rfl
    rw [hdue]
    refine ⟨⟨fun _ => hasked, fun _ => ?_⟩, Nat.le_refl _⟩
    change d.time + delayMs.toNat < d'.time + 2 ^ 31
    rw [hsame.time]
    omega

/-- An armed timer gives way to one due earlier, or due at least half the clock's
range later. -/
theorem dueAfter_schedulePump {d' : Dispatcher H σ} {dueAt : Nat} {delayMs : UInt32}
    (hd : d.Timed dueAt) (hsame : SameTimer d d') (harmed : d.pumpTimer = true) :
    dueAfter d (d'.schedulePump delayMs) dueAt ≤ dueAt ∨
      dueAt + 2 ^ 31 ≤ dueAfter d (d'.schedulePump delayMs) dueAt := by
  have hasked : d'.nowMs + delayMs = reading (d.time + delayMs.toNat) := by
    rw [nowMs, hsame.time, reading_add_word]
  rw [schedulePump]
  split
  next hkept =>
    rw [dueAfter, if_pos ⟨harmed, hsame.pumpDueMs harmed⟩]
    exact .inl (Nat.le_refl _)
  next hreplaced =>
    rw [hsame.pumpTimer, harmed, hsame.pumpDueMs harmed, Bool.true_and, decide_eq_true_eq, hasked,
      hd.due harmed, signed_sub_eq_ite] at hreplaced
    rw [dueAfter]
    split
    · exact .inl (Nat.le_refl _)
    · change d'.time + (d'.nowMs + delayMs - d'.nowMs).toNat ≤ _ ∨
        _ ≤ d'.time + (d'.nowMs + delayMs - d'.nowMs).toNat
      rw [hsame.time, UInt32.add_comm, UInt32.add_sub_cancel]
      split at hreplaced <;> omega

/-! ## How long the pump sleeps -/

theorem signed_lt (word : UInt32) : signed word < 2 ^ 31 := Int32.toInt_lt _

/-- The pump sleeps no longer than the shortest backoff. -/
theorem backoffMs_le {now : UInt32} {queue : List (Queued H)} {q : Queued H} (hq : q ∈ queue) :
    (backoffMs now queue).toNat ≤ max 30000 (q.backoffLeft now) ∧
      (backoffMs now queue).toNat < 2 ^ 31 := by
  have hmem : signed (q.notBeforeMs - now) ∈ queue.map fun q => signed (q.notBeforeMs - now) :=
    List.mem_map_of_mem hq
  have hbound := signed_lt (q.notBeforeMs - now)
  rw [backoffMs, Queued.backoffLeft]
  generalize (queue.map fun q => signed (q.notBeforeMs - now)) = waits at hmem ⊢
  generalize signed (q.notBeforeMs - now) = wait at hmem hbound ⊢
  have hsoonest : waits.foldl min (waits.headD 0) ≤ wait := by
    rw [List.foldl_min_eq_min (List.ne_nil_of_mem hmem)]
    exact Int.le_trans (Int.min_le_right _ _) (List.min_le_of_mem hmem)
  generalize waits.foldl min (waits.headD 0) = soonest at hsoonest ⊢
  split
  · have hsmall : soonest.toNat < 2 ^ 32 := by omega
    rw [UInt32.toNat_ofNat_of_lt' hsmall]
    omega
  · exact ⟨le_max_of_le_left (by decide), by decide⟩

theorem toNat_min_le (a b : UInt32) : (min a b).toNat ≤ b.toNat := by
  change (if a ≤ b then a else b).toNat ≤ b.toNat
  split
  next hle => exact UInt32.le_iff_toNat_le.mp hle
  next => exact Nat.le_refl _

/-- What a call of the pump leaves to wake the next one. -/
inductive Leaves (radio : RadioView) (d d' : Dispatcher H σ) : Prop
  | nothing (hsame : SameTimer d d') (hempty : d'.queue = [])
  | transmission (hsame : SameTimer d d')
      (hbusy : radio.txBusy = true ∨ d.stats.txTotal < d'.stats.txTotal)
  | timer (base : Dispatcher H σ) (delayMs : UInt32) (hsame : SameTimer d base)
      (hafter : d' = base.schedulePump delayMs) (hdelay : delayMs.toNat < 2 ^ 31)
      (hsleep : ∀ q ∈ base.queue, delayMs.toNat ≤ max 30000 (q.backoffLeft d.nowMs))

theorem leaves_pump (call : Handler H σ) (radio : RadioView) (hd : d.Sane) :
    Leaves radio d (pump call radio d) := by
  have hexpiry := (sameTimers_afterExpiry call d).sameTimer
  have hexit := pump_exit call radio hd
  generalize pump call radio d = d' at hexit ⊢
  cases hexit with
  | idle hempty => exact .nothing (SameTimers.refl d).sameTimer hempty
  | transmitting hqueue hbusy => exact .transmission (SameTimers.refl d).sameTimer (.inl hbusy)
  | expired hqueue hidle hempty => exact .nothing hexpiry hempty
  | down => exact .timer _ _ hexpiry rfl (by decide) fun q _ => le_max_of_le_left (by decide)
  | backoff hqueue hidle hleft hwaiting =>
      obtain ⟨first, hfirst⟩ := List.exists_mem_of_ne_nil _ hleft
      exact .timer _ _ hexpiry rfl (backoffMs_le hfirst).2 fun q hq => (backoffMs_le hq).1
  | held hqueue hidle q hfirst hwait =>
      have hmin : (min ((d.afterExpiry call).budget radio q).1 30000).toNat ≤ 30000 :=
        toNat_min_le _ _
      have hsame : SameTimer d ((d.afterExpiry call).budgeted radio q) :=
        ⟨hexpiry.time, hexpiry.pumpTimer, hexpiry.pumpDueMs⟩
      exact .timer _ _ hsame rfl (by omega) fun q _ => le_max_of_le_left hmin
  | @deferred hqueue hidle ahead q behind hselected hbusy hrecent =>
      have hretry : (kChannelBusyRetryMs + radio.random.toUInt32 % kChannelBusyJitterMs).toNat ≤
          30000 := by
        have hjitter : (radio.random.toUInt32 % kChannelBusyJitterMs).toNat < 60 := by
          rw [UInt32.toNat_mod]
          exact Nat.mod_lt _ (by decide)
        rw [UInt32.toNat_add, show kChannelBusyRetryMs.toNat = 60 from rfl]
        omega
      refine .timer _ _ ?_ rfl (by omega) fun q _ => le_max_of_le_left hretry
      exact ⟨hexpiry.time, hexpiry.pumpTimer, hexpiry.pumpDueMs⟩
  | @handed hqueue hidle ahead q behind hselected hforced stats htotal =>
      cases hok : radio.sendOk with
      | true =>
          rw [transmit_accepted _ _ _ hok]
          have hcounted : ∀ counted : Dispatcher H σ,
              SameTimers counted (notify call counted q true) :=
            fun counted => (SameTimers.refl counted).notify q true
          refine .transmission (.trans ?_ (hcounted _).sameTimer) (.inr ?_)
          · exact ⟨hexpiry.time, hexpiry.pumpTimer, hexpiry.pumpDueMs⟩
          rw [(hcounted _).txTotal, htotal]
          exact Nat.lt_succ_self _
      | false =>
          rw [transmit_refused _ _ _ hok]
          refine .timer _ _ ?_ rfl (by decide) fun q _ => le_max_of_le_left (by decide)
          exact ⟨hexpiry.time, hexpiry.pumpTimer, hexpiry.pumpDueMs⟩

theorem toNat_pause_le (random : UInt8) :
    (1 + random.toUInt32 * kJitterMs / 255).toNat ≤ 401 := by
  have hrandom := random.toNat_lt
  rw [UInt32.toNat_add, UInt32.toNat_div, UInt32.toNat_mul, UInt8.toNat_toUInt32,
    show (1 : UInt32).toNat = 1 from rfl, show (255 : UInt32).toNat = 255 from rfl,
    show kJitterMs.toNat = 400 from rfl,
      Nat.mod_eq_of_lt (show random.toNat * 400 < 2 ^ 32 by omega)]
  have hshare : random.toNat * 400 / 255 ≤ 400 := by omega
  exact Nat.le_trans (Nat.mod_le _ _) (by omega)

end Dispatcher

/-! ## Whole runs -/

/-- A dispatcher beside its radio and the loop's record of its timer. -/
structure Paced (H : Type u) (σ : Type v) where
  dispatcher : Dispatcher H σ
  /-- Whether the radio is transmitting. -/
  busy : Bool
  /-- The true time at which the timer is due, if it is armed. -/
  dueAt : Nat

namespace Paced

open Dispatcher

variable {H : Type u} {σ : Type v} {call : Handler H σ}

/-- Whether the radio transmits after an event: not after it has reported the end
of a transmission, and otherwise if it says so or has accepted a packet. -/
def busyAfter (s : Paced H σ) (after : Dispatcher H σ) : Event H → Bool
  | .txDone _ _ => false
  | event =>
      match event.radio? with
      | some radio => radio.txBusy || decide (s.dispatcher.stats.txTotal < after.stats.txTotal)
      | none => s.busy

theorem busyAfter_of_radio {s : Paced H σ} {after : Dispatcher H σ} {event : Event H}
    {radio : RadioView} (hradio : event.radio? = some radio) :
    s.busyAfter after event =
      (radio.txBusy || decide (s.dispatcher.stats.txTotal < after.stats.txTotal)) := by
  cases event with
  | send p priority delayMs onResult radio' =>
      obtain rfl := Option.some.inj hradio
      rfl
  | pumpTimer radio' =>
      obtain rfl := Option.some.inj hradio
      rfl
  | reconfigure percent radio' =>
      obtain rfl := Option.some.inj hradio
      rfl
  | _ => simp [Event.radio?] at hradio

def step (lib : Library) (call : Handler H σ) (s : Paced H σ) (event : Event H) : Paced H σ :=
  let after := s.dispatcher.step lib call event
  { dispatcher := after
    busy := s.busyAfter after event
    dueAt := dueAfter (s.dispatcher.fired event) after s.dueAt }

/-- `tx_busy` turns false only by reporting the end of the transmission. -/
def Truthful (s : Paced H σ) (event : Event H) : Prop :=
  s.busy = true → ∀ radio, event.radio? = some radio → radio.txBusy = true

/-- Something will wake the pump if anything is queued: a transmission in progress,
or the timer, within 30 s or the shortest backoff if that is longer. -/
def Wakes (s : Paced H σ) : Prop :=
  s.dispatcher.queue ≠ [] →
    s.busy = true ∨
    s.dispatcher.pumpTimer = true ∧ ∀ q ∈ s.dispatcher.queue,
      s.dueAt ≤ s.dispatcher.time + max 30000 (q.backoffLeft s.dispatcher.nowMs)

/-- What every state of a run keeps. -/
structure Awake (s : Paced H σ) : Prop where
  accounted : s.dispatcher.Accounted
  sane : s.dispatcher.Sane
  timed : s.dispatcher.Timed s.dueAt
  wakes : s.Wakes

/-- What an event does to what wakes the pump. -/
inductive Follows (s : Paced H σ) (event : Event H) (s' : Paced H σ) : Prop
  | ticked (ms : Nat) (hevent : event = .tick ms)
  | quiet (hfired : s.dispatcher.fired event = s.dispatcher)
      (hsame : SameTimer s.dispatcher s'.dispatcher)
      (hqueue : s'.dispatcher.queue = s.dispatcher.queue) (hbusy : s.busy = true → s'.busy = true)
  | awaited (hsame : SameTimer (s.dispatcher.fired event) s'.dispatcher)
      (hawaited : s'.dispatcher.queue = [] ∨ s'.busy = true)
  | armed (base : Dispatcher H σ) (delayMs : UInt32)
      (hsame : SameTimer (s.dispatcher.fired event) base)
      (hafter : s'.dispatcher = base.schedulePump delayMs) (hdelay : delayMs.toNat < 2 ^ 31)
      (hsleep : ∀ q ∈ base.queue,
        delayMs.toNat ≤ max 30000 (q.backoffLeft s.dispatcher.nowMs))

/-- An event that pumps leaves what the pump leaves. -/
theorem follows_of_entering {lib : Library} {s : Paced H σ} (hs : s.Awake) {event : Event H}
    {radio : RadioView} {d : Dispatcher H σ}
    (hentering : entering lib call s.dispatcher event = some (radio, d)) :
    s.Follows event (s.step lib call event) := by
  obtain ⟨hentered, hradio⟩ := sameTimers_entering hentering
  have hsame := hentered.sameTimer
  have htotal : d.stats.txTotal = s.dispatcher.stats.txTotal := by
    rw [hentered.txTotal, (fired_frame s.dispatcher event).2.2]
  have hsane := sane_entering hs.accounted.numbered hs.sane hentering
  have hbusy : s.busyAfter (s.dispatcher.step lib call event) event = _ :=
    busyAfter_of_radio hradio
  have hstep := step_of_entering hentering
  have hnow : d.nowMs = s.dispatcher.nowMs := by rw [nowMs, nowMs, hsane.2.1]
  rcases leaves_pump call radio hsane.1 with
    ⟨hkept, hempty⟩ | ⟨hkept, hwhy⟩ | ⟨base, delayMs, hkept, hafter, hdelay, hsleep⟩
  · rw [← hstep] at hkept hempty
    exact .awaited (hsame.trans hkept) (.inl hempty)
  · rw [← hstep] at hkept hwhy
    refine .awaited (hsame.trans hkept) (.inr ?_)
    change s.busyAfter _ event = true
    rw [hbusy, ← htotal]
    simpa using hwhy
  · rw [← hstep] at hafter
    rw [hnow] at hsleep
    exact .armed base delayMs (hsame.trans hkept) hafter hdelay hsleep

theorem follows_step (lib : Library) (call : Handler H σ) {s : Paced H σ} (hs : s.Awake)
    {event : Event H} (hradio : s.Truthful event) : s.Follows event (s.step lib call event) := by
  cases hentering : entering lib call s.dispatcher event with
  | some entered => exact follows_of_entering hs hentering
  | none =>
      cases event with
      | tick ms => exact .ticked ms rfl
      | send p priority delayMs onResult radio =>
          rw [entering] at hentering
          split at hentering
          · simp at hentering
          next hvalid =>
            have hafter : (s.step lib call (.send p priority delayMs onResult radio)).dispatcher =
                { s.dispatcher with stats := { s.dispatcher.stats with
                  txDropped := s.dispatcher.stats.txDropped + 1 } } := by
              rw [step]
              dsimp only
              rw [Dispatcher.step, send, if_pos (by simpa using hvalid)]
            refine .quiet rfl ?_ ?_ fun hbusy => ?_
            · rw [hafter]
              exact ⟨rfl, rfl, fun _ => rfl⟩
            · rw [hafter]
            · change (radio.txBusy || _) = true
              rw [hradio hbusy radio rfl, Bool.true_or]
      | pumpTimer radio =>
          rw [entering] at hentering
          split at hentering
          · simp at hentering
          next hunarmed =>
            have hfired : s.dispatcher.fired (.pumpTimer radio) = s.dispatcher := by
              rw [fired, ← Bool.eq_false_of_not_eq_true hunarmed]
            have hafter : (s.step lib call (.pumpTimer radio)).dispatcher = s.dispatcher := by
              change s.dispatcher.onPumpTimer call radio = s.dispatcher
              rw [onPumpTimer, if_neg hunarmed]
            refine .quiet hfired ?_ ?_ fun hbusy => ?_
            · rw [hafter]
              exact ⟨rfl, rfl, fun _ => rfl⟩
            · rw [hafter]
            · change (radio.txBusy || _) = true
              rw [hradio hbusy radio rfl, Bool.true_or]
      | txDone airtimeMs random =>
          have hpause := toNat_pause_le random
          refine .armed _ _ ?_ rfl (by omega) fun q _ => le_max_of_le_left (by omega)
          exact ⟨rfl, rfl, fun _ => rfl⟩
      | reconfigure percent radio => simp [entering] at hentering
      | rx raw rssi snrQ4 =>
          exact .quiet rfl (sameTimers_onRadioRx lib s.dispatcher raw rssi snrQ4).sameTimer
            (quietly_onRadioRx lib s.dispatcher raw rssi snrQ4).queue id
      | sweep => exact .quiet rfl ⟨rfl, rfl, fun _ => rfl⟩ rfl id

/-- A tick of the clock shortens a backoff by no more than itself. -/
theorem backoffLeft_tick (q : Queued H) (time ms : Nat) :
    q.backoffLeft (reading time) ≤ q.backoffLeft (reading (time + ms)) + ms := by
  rw [Queued.backoffLeft, Queued.backoffLeft, Queued.notBeforeMs, reading_add_word,
    signed_sub_eq_ite, signed_sub_eq_ite]
  split <;> split <;> omega

theorem Awake.timed_fired {s : Paced H σ} (hs : s.Awake) (event : Event H) :
    (s.dispatcher.fired event).Timed s.dueAt := by
  cases event with
  | pumpTimer radio =>
      exact ⟨fun h => absurd h Bool.false_ne_true, fun h => absurd h Bool.false_ne_true⟩
  | _ => exact hs.timed

/-- A timer left alone is due when it was. -/
theorem timed_of_same {d d' : Dispatcher H σ} {dueAt : Nat} (hd : d.Timed dueAt)
    (hsame : SameTimer d d') :
    d'.Timed (dueAfter d d' dueAt) ∧ (d.pumpTimer = true → dueAfter d d' dueAt = dueAt) := by
  have hdue : d.pumpTimer = true → dueAfter d d' dueAt = dueAt :=
    fun harmed => if_pos ⟨harmed, hsame.pumpDueMs harmed⟩
  refine ⟨⟨fun harmed => ?_, fun harmed => ?_⟩, hdue⟩
  · rw [hsame.pumpTimer] at harmed
    rw [hdue harmed, hsame.pumpDueMs harmed, hd.due harmed]
  · rw [hsame.pumpTimer] at harmed
    rw [hdue harmed, hsame.time]
    exact hd.near harmed

theorem Awake.step (lib : Library) (call : Handler H σ) {s : Paced H σ} (hs : s.Awake)
    {event : Event H} (hradio : s.Truthful event) : (s.step lib call event).Awake := by
  have haccounted := accounted_step lib call hs.accounted event
  have hsane := sane_step lib call hs.accounted hs.sane event
  have htimed := hs.timed_fired event
  have htime := (fired_frame s.dispatcher event).1
  suffices h : (s.step lib call event).dispatcher.Timed (s.step lib call event).dueAt ∧
      (s.step lib call event).Wakes from ⟨haccounted, hsane, h.1, h.2⟩
  rcases follows_step lib call hs hradio with
    ⟨ms, rfl⟩ | ⟨hfired, hsame, hqueue, hbusy⟩ | ⟨hsame, hawaited⟩ |
      ⟨base, delayMs, hsame, hafter, hdelay, hsleep⟩
  · have hdue : s.dispatcher.pumpTimer = true → (s.step lib call (.tick ms)).dueAt = s.dueAt :=
      fun harmed => if_pos ⟨harmed, rfl⟩
    refine ⟨⟨fun harmed => ?_, fun harmed => ?_⟩, fun hleft => ?_⟩
    · rw [hdue harmed]
      exact hs.timed.due harmed
    · rw [hdue harmed]
      exact Nat.lt_of_lt_of_le (hs.timed.near harmed) (Nat.add_le_add_right (Nat.le_add_right _ _) _)
    · rcases hs.wakes hleft with honAir | ⟨harmed, hsoon⟩
      · exact .inl honAir
      · refine .inr ⟨harmed, fun q hq => ?_⟩
        rw [hdue harmed]
        have hbefore := hsoon q hq
        have hshorter := backoffLeft_tick q s.dispatcher.time ms
        change s.dueAt ≤ s.dispatcher.time + ms +
          max 30000 (q.backoffLeft (reading (s.dispatcher.time + ms)))
        rw [nowMs] at hbefore
        omega
  · obtain ⟨hafter, hdue⟩ := timed_of_same hs.timed hsame
    have hdueAt : (s.step lib call event).dueAt =
        dueAfter s.dispatcher (s.step lib call event).dispatcher s.dueAt := by
      rw [← hfired]
      rfl
    rw [← hdueAt] at hafter hdue
    refine ⟨hafter, fun hleft => ?_⟩
    rw [hqueue] at hleft ⊢
    rcases hs.wakes hleft with honAir | ⟨harmed, hsoon⟩
    · exact .inl (hbusy honAir)
    · refine .inr ⟨hsame.pumpTimer.trans harmed, fun q hq => ?_⟩
      rw [hdue harmed, nowMs, hsame.time]
      exact hsoon q hq
  · refine ⟨(timed_of_same htimed hsame).1, fun hleft => ?_⟩
    rcases hawaited with hempty | honAir
    · exact absurd hempty hleft
    · exact .inl honAir
  · obtain ⟨hafterTimed, hsoon⟩ := timed_schedulePump htimed hsame hdelay
    have harmed := schedulePump_armed base delayMs
    rw [← hafter] at hafterTimed harmed hsoon
    refine ⟨hafterTimed, fun _ => .inr ⟨harmed, fun q hq => ?_⟩⟩
    have hafterTime : (s.step lib call event).dispatcher.time = s.dispatcher.time := by
      rw [hafter, schedulePump_time, hsame.time, htime]
    rw [hafter, schedulePump_queue] at hq
    rw [nowMs, hafterTime]
    rw [htime] at hsoon
    exact Nat.le_trans hsoon (Nat.add_le_add_left (hsleep q hq) _)

/-- An armed timer that does not fire stays armed, and is put off only by half the
clock's range or more. -/
theorem Awake.dueAt_step (lib : Library) (call : Handler H σ) {s : Paced H σ} (hs : s.Awake)
    {event : Event H} (hradio : s.Truthful event) (hfires : ∀ radio, event ≠ .pumpTimer radio)
    (harmed : s.dispatcher.pumpTimer = true) :
    (s.step lib call event).dispatcher.pumpTimer = true ∧
      ((s.step lib call event).dueAt ≤ s.dueAt ∨
        s.dueAt + 2 ^ 31 ≤ (s.step lib call event).dueAt) := by
  have hfired : s.dispatcher.fired event = s.dispatcher := by
    cases event with
    | pumpTimer radio => exact absurd rfl (hfires radio)
    | _ => rfl
  have hkept : ∀ d, SameTimer s.dispatcher d → d.pumpTimer = true ∧
      (dueAfter s.dispatcher d s.dueAt ≤ s.dueAt ∨
        s.dueAt + 2 ^ 31 ≤ dueAfter s.dispatcher d s.dueAt) := by
    intro d hsame
    rw [(timed_of_same hs.timed hsame).2 harmed]
    exact ⟨hsame.pumpTimer.trans harmed, .inl (Nat.le_refl _)⟩
  change _ ∧
    (dueAfter (s.dispatcher.fired event) _ _ ≤ _ ∨ _ ≤ dueAfter (s.dispatcher.fired event) _ _)
  rcases follows_step lib call hs hradio with
    ⟨ms, rfl⟩ | ⟨-, hsame, -, -⟩ | ⟨hsame, -⟩ | ⟨base, delayMs, hsame, hafter, -, -⟩
  · refine ⟨harmed, .inl ?_⟩
    rw [dueAfter, if_pos ⟨harmed, rfl⟩]
  · rw [hfired]
    exact hkept _ hsame
  · rw [hfired] at hsame ⊢
    exact hkept _ hsame
  · rw [hfired] at hsame ⊢
    have hnext := schedulePump_armed base delayMs
    have hdue : dueAfter s.dispatcher (base.schedulePump delayMs) s.dueAt ≤ _ ∨ _ :=
      dueAfter_schedulePump hs.timed hsame harmed
    rw [← hafter] at hnext hdue
    exact ⟨hnext, hdue⟩

/-- A dispatcher just constructed, beside a radio in any state. -/
def new (percent : ℚ) (limit : Nat) (client : σ) (time : Nat) (busy : Bool) : Paced H σ :=
  { dispatcher := .new percent limit client time, busy, dueAt := time }

theorem awake_new (percent : ℚ) (limit : Nat) (client : σ) (time : Nat) (busy : Bool) :
    (new percent limit client time busy : Paced H σ).Awake where
  accounted := accounted_new percent limit client time
  sane := ⟨by simp [new, Dispatcher.new], by simp [new, Dispatcher.new],
    by simp [new, Dispatcher.new]⟩
  timed := ⟨fun h => absurd h Bool.false_ne_true, fun h => absurd h Bool.false_ne_true⟩
  wakes := fun h => absurd rfl h

/-- **The transmit queue is never left asleep.** In every state of every run over a
radio that ends its transmissions by reporting them, something wakes the pump if
anything is queued; and `schedule_pump`, called there or by the next event, unless
that is the timer's own, leaves an armed timer armed and puts it off only by half the
clock's range or more. -/
theorem queue_wakes (lib : Library) (call : Handler H σ) (percent : ℚ) (limit : Nat) (client : σ)
    (time : Nat) (busy : Bool) (events : List (Event H))
    (hradio : Along (step lib call) Truthful (new percent limit client time busy) events) :
    let s := run (step lib call) (new percent limit client time busy) events
    s.Wakes ∧
      (∀ delayMs, s.dispatcher.pumpTimer = true →
        let after := s.dispatcher.schedulePump delayMs
        after.pumpTimer = true ∧
          (dueAfter s.dispatcher after s.dueAt ≤ s.dueAt ∨
            s.dueAt + 2 ^ 31 ≤ dueAfter s.dispatcher after s.dueAt)) ∧
      ∀ event, s.Truthful event → (∀ radio, event ≠ .pumpTimer radio) →
        s.dispatcher.pumpTimer = true →
        (s.step lib call event).dispatcher.pumpTimer = true ∧
          ((s.step lib call event).dueAt ≤ s.dueAt ∨
            s.dueAt + 2 ^ 31 ≤ (s.step lib call event).dueAt) := by
  have hstep : ∀ (s : Paced H σ) (event : Event H), s.Awake → s.Truthful event →
      (s.step lib call event).Awake := fun s event hs hok => hs.step lib call hok
  have hs := Along.invariant hstep (awake_new percent limit client time busy) hradio
  refine ⟨hs.wakes, fun delayMs harmed => ?_, fun event hok hfires harmed =>
    hs.dueAt_step lib call hok hfires harmed⟩
  exact ⟨schedulePump_armed _ delayMs,
    dueAfter_schedulePump hs.timed ⟨rfl, rfl, fun _ => rfl⟩ harmed⟩

/-- A packet goes out, a second is queued meanwhile, and the transmission ends. -/
def secondPacket : List (Event Unit) :=
  [.send { payload := [1] } kPriorityFlood 0 none (.idle 100),
    .send { payload := [2] } kPriorityFlood 0 none { RadioView.idle 100 with txBusy := true },
    .tick 100, .txDone 100 255]

/-- The second packet is left to the timer. -/
theorem queue_wakes_second_packet :
    let s := run (step Library.transparent (fun _ client _ _ => client)) (new 10 128 () 0 false)
      secondPacket
    s.dispatcher.queue ≠ [] ∧ s.busy = false ∧ s.dueAt = 501 ∧ s.Wakes := by
  have hradio : Along (step Library.transparent (fun _ client _ _ => client)) Truthful
      (new 10 128 () 0 false) secondPacket := by
    refine ⟨fun hbusy => absurd hbusy (by decide +kernel), ?_, ?_, ?_, trivial⟩
    · intro _ radio hradio
      obtain rfl := Option.some.inj hradio
      rfl
    · exact fun _ radio hradio => absurd hradio (by simp [Event.radio?])
    · exact fun _ radio hradio => absurd hradio (by simp [Event.radio?])
  refine ⟨by decide +kernel, by decide +kernel, by decide +kernel, ?_⟩
  exact (queue_wakes Library.transparent _ 10 128 () 0 false secondPacket hradio).1

/-- A transmission is over, and the timer that follows it a millisecond overdue. -/
def overdue : List (Event Unit) :=
  [.send { payload := [1] } kPriorityFlood 0 none (.idle 100), .txDone 100 0, .tick 2]

/-- A packet to be held back as long as the signed comparison can tell. -/
def heldBack : Event Unit :=
  .send { payload := [2] } kPriorityFlood 2147483647 none (.idle 100)

/-- The overdue timer gives way to one due 24 days later. -/
theorem overdue_timer_put_off :
    ¬ ∀ events : List (Event Unit),
      Along (step Library.transparent (fun _ client _ _ => client)) Truthful
        (new 10 128 () 0 false) events →
      let s := run (step Library.transparent (fun _ client _ _ => client))
        (new 10 128 () 0 false) events
      s.Wakes ∧
        ∀ event, s.Truthful event → (∀ radio, event ≠ .pumpTimer radio) →
          s.dispatcher.pumpTimer = true →
          (s.step Library.transparent (fun _ client _ _ => client) event).dueAt ≤ s.dueAt := by
  intro hnever
  have hradio : Along (step Library.transparent (fun _ client _ _ => client)) Truthful
      (new 10 128 () 0 false) overdue := by
    refine ⟨fun hbusy => absurd hbusy (by decide +kernel), ?_, ?_, trivial⟩
    · exact fun _ radio hradio => absurd hradio (by simp [Event.radio?])
    · exact fun _ radio hradio => absurd hradio (by simp [Event.radio?])
  have hkept := (hnever overdue hradio).2 heldBack (fun hbusy => absurd hbusy (by decide +kernel))
    (fun radio => by simp [heldBack]) (by decide +kernel)
  exact absurd hkept (by decide +kernel)

end Paced

end Coreletd.Mesh
