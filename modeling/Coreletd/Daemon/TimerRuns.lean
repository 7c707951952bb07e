/-
# What the timers promise over a run

For every timer that was armed one statement ties its entry in the table, its
firings, its registration and its place in the pass under way together. Each
step keeps it, as long as passes open often enough for the 32-bit clock, and the
promises follow for every run.
-/

import Coreletd.Daemon.Timers

namespace Coreletd.Daemon

open Coreletd.Library
open Coreletd.Library.SerialClock

universe u v

namespace Timers

variable {H : Type v} {β : Type u} [DecidableEq H]

/-! ## What every step keeps -/

/-- What the table knows of a timer that was armed. -/
structure Kept (largest : Nat) (timers : Timers H β) (a : Arming) : Prop where
  registered : a.id < timers.loop.nextTimer
  short : a.delayMs.toNat ≤ largest
  repeated : 0 < a.intervalMs → a.delayMs = a.intervalMs
  live : timers.Pending a → ∃ cb, timers.loop.find a.id =
    some { id := a.id, dueMs := reading (a.dueAt timers.loop), intervalMs := a.intervalMs, cb }
  pending : ∀ t, timers.loop.find a.id = some t → t.dead = false → timers.Pending a
  past : EventLoop.lastInstant a.armed ((timers.loop.firingsOf a.id).map (·.now)) ≤
    timers.loop.time
  waited : timers.Pending a → ∀ opening, Awaited timers.loop opening a.id →
    a.dueAt timers.loop ≤ opening
  ahead : timers.Pending a →
    (∃ opening, Awaited timers.loop opening a.id) ∨ timers.opened ≤ a.dueAt timers.loop
  obeyed : Obeyed timers.loop a

omit [DecidableEq H] in
/-- A step that leaves a timer's entry, firings and registration alone, and its
place in the pass, leaves what is known of it. -/
theorem Kept.frame {largest : Nat} {timers after : Timers H β} {a : Arming}
    (hkept : Kept largest timers a)
    (hnext : timers.loop.nextTimer ≤ after.loop.nextTimer)
    (htime : timers.loop.time ≤ after.loop.time) (hopened : after.opened = timers.opened)
    (hreleased : a.id ∈ after.released ↔ a.id ∈ timers.released)
    (hfirings : after.loop.firingsOf a.id = timers.loop.firingsOf a.id)
    (hawaited : timers.Pending a → ∀ opening,
      Awaited after.loop opening a.id ↔ Awaited timers.loop opening a.id)
    (hfind : ∀ t : TimerEntry β, t.dead = false →
      (after.loop.find a.id = some t ↔ timers.loop.find a.id = some t)) :
    Kept largest after a := by
  have hsame : after.Pending a ↔ timers.Pending a := by
    rw [Pending, Pending, hreleased, hfirings]
  have hdue : a.dueAt after.loop = a.dueAt timers.loop := by
    rw [Arming.dueAt, Arming.dueAt, hfirings]
  refine ⟨Nat.lt_of_lt_of_le hkept.registered hnext, hkept.short, hkept.repeated, ?_, ?_, ?_, ?_,
    ?_, ?_⟩
  · intro hpending
    obtain ⟨cb, hentry⟩ := hkept.live (hsame.mp hpending)
    exact ⟨cb, by rw [hdue]; exact (hfind _ rfl).mpr hentry⟩
  · intro t ht halive
    exact hsame.mpr (hkept.pending t ((hfind t halive).mp ht) halive)
  · rw [hfirings]
    exact Nat.le_trans hkept.past htime
  · intro hpending opening hawaits
    rw [hdue]
    have hbefore := hsame.mp hpending
    exact hkept.waited hbefore opening ((hawaited hbefore opening).mp hawaits)
  · intro hpending
    have hbefore := hsame.mp hpending
    rw [hdue, hopened]
    rcases hkept.ahead hbefore with ⟨opening, hawaits⟩ | hlate
    · exact .inl ⟨opening, (hawaited hbefore opening).mpr hawaits⟩
    · exact .inr hlate
  · obtain ⟨hspaced, hentered, honce⟩ := hkept.obeyed
    exact ⟨by rw [hfirings]; exact hspaced, by rw [hfirings]; exact hentered,
      by rw [hfirings]; exact honce⟩

/-- A loop whose handles are in order: no two hold one timer, what they hold was
never let go, and every entry and every firing is of a timer that was armed. -/
structure Consistent (largest : Nat) (timers : Timers H β) : Prop where
  wellFormed : timers.loop.WellFormed
  held : ∀ handle id, timers.handles handle = some id →
    id < timers.loop.nextTimer ∧ id ∉ timers.released
  single : ∀ handle other id, timers.handles handle = some id → timers.handles other = some id →
    handle = other
  letGo : ∀ id ∈ timers.released, id < timers.loop.nextTimer
  distinct : (timers.armings.map (·.id)).Nodup
  entries : ∀ t ∈ timers.loop.timers, ∃ a ∈ timers.armings, a.id = t.id
  firings : ∀ firing ∈ timers.loop.fired, ∃ a ∈ timers.armings, a.id = firing.id
  opening : timers.opened ≤ timers.loop.time
  openPass : ∀ pass, timers.loop.pass = some pass → pass.now = timers.opened
  kept : ∀ a ∈ timers.armings, Kept largest timers a

variable {largest : Nat} {timers : Timers H β}

omit [DecidableEq H] in
theorem Consistent.start (largest time : Nat) :
    (Timers.start time : Timers H β).Consistent largest where
  wellFormed := EventLoop.wellFormed_start time
  held := by simp [Timers.start]
  single := by simp [Timers.start]
  letGo := by simp [Timers.start]
  distinct := List.nodup_nil
  entries := by simp [Timers.start]
  firings := by simp [Timers.start]
  opening := Nat.le_refl _
  openPass := by simp [Timers.start]
  kept := by simp [Timers.start]

/-! ## Handles -/

/-- What is still held when a handle was emptied was held before, by another. -/
theorem held_of_update {handles : H → Option Nat} {handle other : H} {id : Nat}
    (hheld : Function.update handles handle none other = some id) :
    other ≠ handle ∧ handles other = some id := by
  by_cases hself : other = handle
  · subst hself
    simp at hheld
  · rw [Function.update_of_ne hself] at hheld
    exact ⟨hself, hheld⟩

theorem Consistent.reset (hcons : timers.Consistent largest) (handle : H) :
    (timers.reset handle).Consistent largest := by
  rw [Timers.reset]
  split
  · exact hcons
  · next id hheld =>
      have hwell := hcons.wellFormed.step (.cancelTimer id)
      obtain ⟨hbelow, -⟩ := hcons.held handle id hheld
      refine ⟨hwell, ?_, ?_, ?_, hcons.distinct, ?_, ?_, ?_, ?_, ?_⟩
      · intro other otherId hother
        show otherId < (timers.loop.cancelTimer id).nextTimer ∧ otherId ∉ id :: timers.released
        rw [EventLoop.nextTimer_cancelTimer]
        obtain ⟨hne, hbefore⟩ := held_of_update hother
        obtain ⟨hlt, hkept⟩ := hcons.held other otherId hbefore
        refine ⟨hlt, fun hmem => ?_⟩
        rcases List.mem_cons.mp hmem with rfl | hold
        · exact hne (hcons.single other handle otherId hbefore hheld)
        · exact hkept hold
      · intro first second otherId hfirst hsecond
        exact hcons.single first second otherId (held_of_update hfirst).2
          (held_of_update hsecond).2
      · intro otherId hmem
        show otherId < (timers.loop.cancelTimer id).nextTimer
        rw [EventLoop.nextTimer_cancelTimer]
        rcases List.mem_cons.mp hmem with rfl | hold
        · exact hbelow
        · exact hcons.letGo otherId hold
      · intro t ht
        have hids : t.id ∈ (timers.loop.cancelTimer id).timers.map (·.id) :=
          List.mem_map_of_mem ht
        have hkept : (timers.loop.cancelTimer id).timers.map (·.id) =
            timers.loop.timers.map (·.id) := by
          rw [EventLoop.cancelTimer]
          split
          · rfl
          · exact EventLoop.ids_modify id _ fun _ => rfl
        rw [hkept] at hids
        obtain ⟨old, hold, hsame⟩ := List.mem_map.mp hids
        obtain ⟨a, ha, hid⟩ := hcons.entries old hold
        exact ⟨a, ha, hid.trans hsame⟩
      · intro firing hfiring
        rw [EventLoop.fired_cancelTimer] at hfiring
        exact hcons.firings firing hfiring
      · show timers.opened ≤ (timers.loop.cancelTimer id).time
        rw [EventLoop.time_cancelTimer]
        exact hcons.opening
      · intro pass hpass
        rw [EventLoop.pass_cancelTimer] at hpass
        exact hcons.openPass pass hpass
      · intro a ha
        have hkept := hcons.kept a ha
        have hfirings : (timers.loop.cancelTimer id).firingsOf a.id =
            timers.loop.firingsOf a.id := by
          rw [EventLoop.firingsOf, EventLoop.fired_cancelTimer]
          rfl
        have hawaited : ∀ opening, Awaited (timers.loop.cancelTimer id) opening a.id ↔
            Awaited timers.loop opening a.id := by
          intro opening
          rw [Awaited, Awaited, EventLoop.pass_cancelTimer]
        by_cases hself : a.id = id
        · -- The timer that is let go: nothing more is promised of it.
          have hover : ∀ P : Prop, ({ timers with
              loop := timers.loop.cancelTimer id
              handles := Function.update timers.handles handle none
              released := id :: timers.released } : Timers H β).Pending a → P :=
            fun _ hpending => absurd (hself ▸ List.mem_cons_self) hpending.1
          refine ⟨?_, hkept.short, hkept.repeated, hover _, ?_, ?_, hover _, hover _, ?_⟩
          · rw [EventLoop.nextTimer_cancelTimer]
            exact hkept.registered
          · intro t ht halive
            rw [hself] at ht
            have hdead := hcons.wellFormed.dead_of_cancelTimer ht
            rw [halive] at hdead
            exact absurd hdead (by decide)
          · rw [hfirings, EventLoop.time_cancelTimer]
            exact hkept.past
          · exact ⟨by rw [hfirings]; exact hkept.obeyed.spaced,
              by rw [hfirings]; exact hkept.obeyed.entered,
              by rw [hfirings]; exact hkept.obeyed.once⟩
        · refine hkept.frame ?_ ?_ rfl ?_ hfirings (fun _ => hawaited) ?_
          · rw [EventLoop.nextTimer_cancelTimer]
          · rw [EventLoop.time_cancelTimer]
          · simp [hself]
          · intro t _
            rw [EventLoop.find_cancelTimer_of_ne hself]

/-- A registration that no handle holds yet may be assigned over any handle. -/
theorem Consistent.assign (hcons : timers.Consistent largest) (handle : H) {id : Nat}
    (hbelow : id < timers.loop.nextTimer) (hfree : ∀ other, timers.handles other ≠ some id)
    (hkept : id ∉ timers.released) : (timers.assign handle id).Consistent largest := by
  have hreset := hcons.reset handle
  have hnext : (timers.reset handle).loop.nextTimer = timers.loop.nextTimer := by
    rw [Timers.reset]
    split
    · rfl
    · exact EventLoop.nextTimer_cancelTimer _ _
  have hfreeAfter : ∀ other, (timers.reset handle).handles other ≠ some id := by
    intro other hother
    rw [Timers.reset] at hother
    split at hother
    · exact hfree other hother
    · exact hfree other (held_of_update hother).2
  have hkeptAfter : id ∉ (timers.reset handle).released := by
    rw [Timers.reset]
    split
    · exact hkept
    · next old hold =>
        intro hmem
        rcases List.mem_cons.mp hmem with rfl | hbefore
        · exact hfree handle hold
        · exact hkept hbefore
  have hheld : ∀ other otherId, (timers.assign handle id).handles other = some otherId →
      (other = handle ∧ otherId = id) ∨
      (other ≠ handle ∧ (timers.reset handle).handles other = some otherId) := by
    intro other otherId hother
    by_cases hself : other = handle
    · subst hself
      simp only [Timers.assign, Function.update_self, Option.some.injEq] at hother
      exact .inl ⟨rfl, hother.symm⟩
    · simp only [Timers.assign] at hother
      rw [Function.update_of_ne hself] at hother
      exact .inr ⟨hself, hother⟩
  refine ⟨hreset.wellFormed, ?_, ?_, hreset.letGo, hreset.distinct, hreset.entries,
    hreset.firings, hreset.opening, hreset.openPass, fun a ha => { hreset.kept a ha with }⟩
  · intro other otherId hother
    rcases hheld other otherId hother with ⟨-, rfl⟩ | ⟨-, hbefore⟩
    · exact ⟨hnext ▸ hbelow, hkeptAfter⟩
    · exact hreset.held other otherId hbefore
  · intro first second otherId hfirst hsecond
    rcases hheld first otherId hfirst with ⟨rfl, rfl⟩ | ⟨-, hbeforeFirst⟩
    · rcases hheld second otherId hsecond with ⟨rfl, -⟩ | ⟨-, hbeforeSecond⟩
      · rfl
      · exact absurd hbeforeSecond (hfreeAfter second)
    · rcases hheld second otherId hsecond with ⟨-, rfl⟩ | ⟨-, hbeforeSecond⟩
      · exact absurd hbeforeFirst (hfreeAfter first)
      · exact hreset.single first second otherId hbeforeFirst hbeforeSecond

/-- Registering a timer and recording that it was armed, before a handle takes it. -/
def enrol (timers : Timers H β) (delayMs intervalMs : UInt32) (cb : β) : Timers H β :=
  { timers with
    loop := (timers.loop.register (timers.loop.nowMs + delayMs) intervalMs cb).2
    armings := { id := timers.loop.nextTimer, armed := timers.loop.time, delayMs, intervalMs } ::
      timers.armings }

omit [DecidableEq H] in
theorem Consistent.enrol (hcons : timers.Consistent largest) {delayMs intervalMs : UInt32}
    (cb : β) (hshort : delayMs.toNat ≤ largest)
    (hrepeated : 0 < intervalMs → delayMs = intervalMs) :
    (timers.enrol delayMs intervalMs cb).Consistent largest := by
  have hwell := hcons.wellFormed.register (timers.loop.nowMs + delayMs) intervalMs cb
  have hfresh : ∀ a ∈ timers.armings, a.id ≠ timers.loop.nextTimer :=
    fun a ha => Nat.ne_of_lt (hcons.kept a ha).registered
  refine ⟨hwell, ?_, hcons.single, ?_, ?_, ?_, ?_, hcons.opening, hcons.openPass, ?_⟩
  · intro handle id hheld
    obtain ⟨hlt, hkept⟩ := hcons.held handle id hheld
    exact ⟨Nat.lt_succ_of_lt hlt, hkept⟩
  · exact fun id hid => Nat.lt_succ_of_lt (hcons.letGo id hid)
  · refine List.nodup_cons.mpr ⟨fun hmem => ?_, hcons.distinct⟩
    obtain ⟨a, ha, hid⟩ := List.mem_map.mp hmem
    exact hfresh a ha hid
  · intro t ht
    rcases List.mem_append.mp ht with hold | hnew
    · obtain ⟨a, ha, hid⟩ := hcons.entries t hold
      exact ⟨a, List.mem_cons_of_mem _ ha, hid⟩
    · rw [List.mem_singleton.mp hnew]
      exact ⟨_, List.mem_cons_self, rfl⟩
  · intro firing hfiring
    obtain ⟨a, ha, hid⟩ := hcons.firings firing hfiring
    exact ⟨a, List.mem_cons_of_mem _ ha, hid⟩
  · intro a ha
    rcases List.mem_cons.mp ha with rfl | hold
    · -- The new timer: its id has not been seen before.
      have hnone : (timers.enrol delayMs intervalMs cb).loop.firingsOf timers.loop.nextTimer =
          [] := by
        refine List.filter_eq_nil_iff.mpr fun firing hfiring => ?_
        have hlt := hcons.wellFormed.firedBelow firing hfiring
        simp only [decide_eq_true_eq]
        omega
      have hidle : ∀ opening, ¬ Awaited (timers.enrol delayMs intervalMs cb).loop opening
          timers.loop.nextTimer := by
        rintro opening ⟨due, hpass, hmem⟩
        exact absurd (hcons.wellFormed.dueBelow _ hpass _ hmem) (Nat.lt_irrefl _)
      have hdue : Arming.dueAt ⟨timers.loop.nextTimer, timers.loop.time, delayMs, intervalMs⟩
          (timers.enrol delayMs intervalMs cb).loop = timers.loop.time + delayMs.toNat := by
        rw [Arming.dueAt, hnone]
        rfl
      refine ⟨Nat.lt_succ_self _, hshort, hrepeated, ?_, ?_, ?_, ?_, ?_, ?_⟩
      · intro _
        refine ⟨cb, ?_⟩
        rw [hdue, ← reading_add_word]
        exact hcons.wellFormed.find_register _ _ _
      · intro _ _ _
        refine ⟨fun hmem => ?_, fun _ => hnone⟩
        exact absurd (hcons.letGo _ hmem) (Nat.lt_irrefl _)
      · rw [hnone]
        exact Nat.le_refl _
      · exact fun _ opening hawaits => absurd hawaits (hidle opening)
      · intro _
        rw [hdue]
        exact .inr (Nat.le_add_right_of_le hcons.opening)
      · exact ⟨by rw [hnone]; trivial, by simp [hnone], by simp [hnone]⟩
    · refine (hcons.kept a hold).frame (Nat.le_succ _) (Nat.le_refl _) rfl Iff.rfl rfl
        (fun _ _ => Iff.rfl) fun t _ => ?_
      show EventLoop.find _ _ = _ ↔ _
      rw [Timers.enrol, EventLoop.find_register_of_ne _ _ _ (hfresh a hold)]

theorem addTimer_eq (timers : Timers H β) (handle : H) (delayMs : UInt32) (cb : β) :
    timers.addTimer handle delayMs cb =
      (timers.enrol delayMs 0 cb).assign handle timers.loop.nextTimer := rfl

theorem addRepeating_eq (timers : Timers H β) (handle : H) (intervalMs : UInt32) (cb : β) :
    timers.addRepeating handle intervalMs cb =
      (timers.enrol (repeatInterval intervalMs) (repeatInterval intervalMs) cb).assign handle
        timers.loop.nextTimer := rfl

theorem Consistent.arm (hcons : timers.Consistent largest) (handle : H)
    {delayMs intervalMs : UInt32} (cb : β) (hshort : delayMs.toNat ≤ largest)
    (hrepeated : 0 < intervalMs → delayMs = intervalMs) :
    ((timers.enrol delayMs intervalMs cb).assign handle timers.loop.nextTimer).Consistent
      largest := by
  refine (hcons.enrol cb hshort hrepeated).assign handle (Nat.lt_succ_self _) ?_ ?_
  · intro other hother
    exact absurd (hcons.held other _ hother).1 (Nat.lt_irrefl _)
  · intro hmem
    exact absurd (hcons.letGo _ hmem) (Nat.lt_irrefl _)

theorem Consistent.move (hcons : timers.Consistent largest) (source target : H) :
    (timers.move source target).Consistent largest := by
  rw [Timers.move]
  split
  · exact hcons
  · next hne =>
      have hreset := hcons.reset target
      -- What is held after the move was held before it: the target's is the source's.
      have hheld : ∀ other id,
          Function.update (Function.update (timers.reset target).handles target
            ((timers.reset target).handles source)) source none other = some id →
          other ≠ source ∧
            (timers.reset target).handles (if other = target then source else other) =
              some id := by
        intro other id hother
        obtain ⟨hsource, hbefore⟩ := held_of_update hother
        refine ⟨hsource, ?_⟩
        by_cases htarget : other = target
        · subst htarget
          rw [Function.update_self] at hbefore
          rw [if_pos rfl]
          exact hbefore
        · rw [Function.update_of_ne htarget] at hbefore
          rw [if_neg htarget]
          exact hbefore
      refine ⟨hreset.wellFormed, ?_, ?_, hreset.letGo, hreset.distinct, hreset.entries,
        hreset.firings, hreset.opening, hreset.openPass, fun a ha => { hreset.kept a ha with }⟩
      · intro other id hother
        exact hreset.held _ id (hheld other id hother).2
      · intro first second id hfirst hsecond
        obtain ⟨hfirstNe, hfirstHeld⟩ := hheld first id hfirst
        obtain ⟨hsecondNe, hsecondHeld⟩ := hheld second id hsecond
        have hsame := hreset.single _ _ id hfirstHeld hsecondHeld
        by_cases hfirstTarget : first = target
        · by_cases hsecondTarget : second = target
          · rw [hfirstTarget, hsecondTarget]
          · rw [if_pos hfirstTarget, if_neg hsecondTarget] at hsame
            exact absurd hsame.symm hsecondNe
        · by_cases hsecondTarget : second = target
          · rw [if_neg hfirstTarget, if_pos hsecondTarget] at hsame
            exact absurd hsame hfirstNe
          · rw [if_neg hfirstTarget, if_neg hsecondTarget] at hsame
            exact hsame

/-! ## Passes -/

omit [DecidableEq H] in
/-- Dispatched often enough, a pass that opens finds exactly the timers due whose
true time has come. -/
theorem Consistent.isDue_iff (hcons : timers.Consistent largest) (hlargest : largest < 2 ^ 31)
    (hidle : timers.loop.pass = none)
    (hoften : timers.loop.time + largest ≤ timers.opened + 2 ^ 31) {a : Arming}
    (ha : a ∈ timers.armings) (hpending : timers.Pending a) {t : TimerEntry β}
    (hfind : timers.loop.find a.id = some t) :
    EventLoop.isDue timers.loop.nowMs t = true ↔ a.dueAt timers.loop ≤ timers.loop.time := by
  have hkept := hcons.kept a ha
  obtain ⟨cb, hentry⟩ := hkept.live hpending
  obtain rfl : t = _ := Option.some.inj (hfind.symm.trans hentry)
  have hahead : timers.opened ≤ a.dueAt timers.loop := by
    rcases hkept.ahead hpending with ⟨opening, due, hpass, -⟩ | hlate
    · rw [hidle] at hpass
      simp at hpass
    · exact hlate
  have hnear : a.dueAt timers.loop < timers.loop.time + 2 ^ 31 := by
    have hpast := hkept.past
    have hshort := hkept.short
    rw [Arming.dueAt]
    omega
  rw [EventLoop.isDue, Bool.not_false, Bool.true_and, decide_eq_true_iff]
  exact signed_sub_nonpos_iff (by omega) hnear

omit [DecidableEq H] in
theorem Consistent.beginPass (hcons : timers.Consistent largest) (hlargest : largest < 2 ^ 31)
    (hidle : timers.loop.pass = none)
    (hoften : timers.loop.time + largest ≤ timers.opened + 2 ^ 31) :
    ({ timers with loop := timers.loop.beginPass, opened := timers.loop.time } :
      Timers H β).Consistent largest ∧
    ∀ a ∈ timers.armings, timers.Pending a → ∀ opening,
      Awaited timers.loop.beginPass opening a.id ↔
        opening = timers.loop.time ∧ a.dueAt timers.loop ≤ timers.loop.time := by
  have hopened : timers.loop.beginPass = { timers.loop with
      pass := some
        { now := timers.loop.time
          due := (timers.loop.timers.filter (EventLoop.isDue timers.loop.nowMs)).map (·.id) } } := by
    rw [EventLoop.beginPass, hidle]
  have hwell := hcons.wellFormed.step .beginPass
  rw [EventLoop.step, hopened] at hwell
  have hawaited : ∀ a ∈ timers.armings, timers.Pending a → ∀ opening,
      Awaited timers.loop.beginPass opening a.id ↔
        opening = timers.loop.time ∧ a.dueAt timers.loop ≤ timers.loop.time := by
    intro a ha hpending opening
    obtain ⟨cb, hentry⟩ := (hcons.kept a ha).live hpending
    have hdue := hcons.isDue_iff hlargest hidle hoften ha hpending hentry
    rw [Awaited, hopened]
    constructor
    · rintro ⟨due, hpass, hmem⟩
      simp only [Option.some.injEq, Pass.mk.injEq] at hpass
      obtain ⟨rfl, rfl⟩ := hpass
      obtain ⟨t, ht, hid⟩ := List.mem_map.mp hmem
      obtain ⟨htimer, hisDue⟩ := List.mem_filter.mp ht
      have hfind := hcons.wellFormed.find_iff.mpr ⟨htimer, hid⟩
      rw [hentry] at hfind
      obtain rfl := Option.some.inj hfind
      exact ⟨rfl, hdue.mp hisDue⟩
    · rintro ⟨rfl, hcome⟩
      obtain ⟨htimer, hid⟩ := hcons.wellFormed.find_iff.mp hentry
      exact ⟨_, rfl, List.mem_map.mpr ⟨_, List.mem_filter.mpr ⟨htimer, hdue.mpr hcome⟩, hid⟩⟩
  refine ⟨⟨?_, ?_, hcons.single, ?_, hcons.distinct, ?_, ?_, ?_, ?_, ?_⟩, hawaited⟩
  · rw [hopened]
    exact hwell
  · rw [hopened]
    exact hcons.held
  · rw [hopened]
    exact hcons.letGo
  · rw [hopened]
    exact hcons.entries
  · rw [hopened]
    exact hcons.firings
  · rw [hopened]
  · rw [hopened]
    rintro pass ⟨⟩
    rfl
  · intro a ha
    have hkept := hcons.kept a ha
    have hplace := hawaited a ha
    rw [hopened] at hplace ⊢
    refine { hkept with waited := ?_, ahead := ?_, obeyed := { hkept.obeyed with } }
    · intro hpending opening hawaits
      obtain ⟨rfl, hcome⟩ := (hplace hpending opening).mp hawaits
      exact hcome
    · intro hpending
      by_cases hcome : a.dueAt timers.loop ≤ timers.loop.time
      · exact .inl ⟨_, (hplace hpending _).mpr ⟨rfl, hcome⟩⟩
      · exact .inr (Nat.le_of_not_le hcome)

omit [DecidableEq H] in
/-- What one turn of a pass means for a timer: it is left alone, or the turn is
its own and it runs. -/
theorem Consistent.turn (hcons : timers.Consistent largest) {a : Arming}
    (ha : a ∈ timers.armings) :
    (timers.loop.fireNext.firingsOf a.id = timers.loop.firingsOf a.id ∧
      (∀ t, timers.loop.fireNext.find a.id = some t ↔ timers.loop.find a.id = some t) ∧
      (timers.Pending a → ∀ opening,
        Awaited timers.loop.fireNext opening a.id ↔ Awaited timers.loop opening a.id)) ∨
    ∃ opening cb, timers.Pending a ∧ Awaited timers.loop opening a.id ∧
      timers.loop.fireNext.firingsOf a.id =
        { id := a.id, now := opening, ran := timers.loop.time } :: timers.loop.firingsOf a.id ∧
      (∀ other, ¬ Awaited timers.loop.fireNext other a.id) ∧
      timers.loop.fireNext.find a.id = some
        (if 0 < a.intervalMs then
          { id := a.id, dueMs := reading opening + a.intervalMs, intervalMs := a.intervalMs, cb }
        else
          { id := a.id, dueMs := reading (a.dueAt timers.loop), intervalMs := a.intervalMs, cb
            dead := true }) := by
  have hkept := hcons.kept a ha
  rcases timers.loop.fireNext_cases with
    ⟨-, hsame⟩ | ⟨now, hpass, hclosed⟩ | ⟨now, id, due, hpass, hturn⟩
  · rw [hsame]
    exact .inl ⟨rfl, fun _ => Iff.rfl, fun _ _ => Iff.rfl⟩
  · rw [hclosed]
    refine .inl ⟨rfl, fun _ => Iff.rfl, fun _ opening => ?_⟩
    simp [Awaited, hpass]
  · by_cases hself : a.id = id
    · subst hself
      rcases hturn with ⟨hskipped, hdead⟩ | ⟨t, f, hfind, halive, hf, hran⟩
      · rw [hskipped]
        refine .inl ⟨rfl, fun _ => Iff.rfl, fun hpending => ?_⟩
        obtain ⟨cb, hentry⟩ := hkept.live hpending
        exact absurd (hdead _ hentry) (by simp)
      · have hpending := hkept.pending t hfind halive
        obtain ⟨cb, hentry⟩ := hkept.live hpending
        obtain rfl : t = _ := Option.some.inj (hfind.symm.trans hentry)
        have hid : ∀ t, (f t).id = t.id := by
          intro t
          rw [hf]
          split <;> rfl
        have honce := (List.nodup_cons.mp (hcons.wellFormed.once _ hpass)).1
        refine .inr ⟨now, cb, hpending, ⟨_, hpass, List.mem_cons_self⟩, ?_, ?_, ?_⟩
        · rw [hran]
          simp [EventLoop.firingsOf]
        · rw [hran]
          rintro other ⟨rest, hrest, hmem⟩
          simp only [Option.some.injEq, Pass.mk.injEq] at hrest
          rw [← hrest.2] at hmem
          exact honce hmem
        · rw [hran]
          have hfound := (hcons.wellFormed.find_modify hid).mpr ⟨_, hfind, rfl⟩
          refine hfound.trans ?_
          rw [hf]
          split <;> rfl
    · -- The turn is another timer's.
      have hplace : ∀ opening,
          (∃ rest, some (Pass.mk now due) = some (Pass.mk opening rest) ∧ a.id ∈ rest) ↔
            Awaited timers.loop opening a.id := by
        intro opening
        rw [Awaited, hpass]
        constructor
        · rintro ⟨rest, hrest, hmem⟩
          simp only [Option.some.injEq, Pass.mk.injEq] at hrest
          obtain ⟨rfl, rfl⟩ := hrest
          exact ⟨_, rfl, List.mem_cons_of_mem _ hmem⟩
        · rintro ⟨rest, hrest, hmem⟩
          simp only [Option.some.injEq, Pass.mk.injEq] at hrest
          obtain ⟨rfl, rfl⟩ := hrest
          rcases List.mem_cons.mp hmem with hhead | hrest
          · exact absurd hhead hself
          · exact ⟨_, rfl, hrest⟩
      rcases hturn with ⟨hskipped, -⟩ | ⟨t, f, -, -, hf, hran⟩
      · rw [hskipped]
        exact .inl ⟨rfl, fun _ => Iff.rfl, fun _ => hplace⟩
      · have hid : ∀ t, (f t).id = t.id := by
          intro t
          rw [hf]
          split <;> rfl
        rw [hran]
        refine .inl ⟨?_, fun t => ?_, fun _ => hplace⟩
        · have hne : ¬ id = a.id := fun hequal => hself hequal.symm
          simp [EventLoop.firingsOf, hne]
        · have hother : (timers.loop.modify id f).find a.id = timers.loop.find a.id :=
            EventLoop.find_modify_of_ne hid hself
          rw [← hother]
          exact Iff.rfl

omit [DecidableEq H] in
theorem Consistent.fireNext (hcons : timers.Consistent largest) :
    ({ timers with loop := timers.loop.fireNext } : Timers H β).Consistent largest := by
  obtain ⟨hnext, htime, hids, hpass, hfired⟩ := timers.loop.fireNext_frame
  refine ⟨hcons.wellFormed.fireNext, ?_, hcons.single, ?_, hcons.distinct, ?_, ?_, ?_, ?_, ?_⟩
  · rw [hnext]
    exact hcons.held
  · rw [hnext]
    exact hcons.letGo
  · intro t ht
    have hmem : t.id ∈ timers.loop.timers.map (·.id) := hids ▸ List.mem_map_of_mem ht
    obtain ⟨old, hold, hsame⟩ := List.mem_map.mp hmem
    obtain ⟨a, ha, hid⟩ := hcons.entries old hold
    exact ⟨a, ha, hid.trans hsame⟩
  · intro firing hfiring
    rcases hfired firing hfiring with hold | ⟨t, ht, hid⟩
    · exact hcons.firings firing hold
    · obtain ⟨a, ha, hsame⟩ := hcons.entries t ht
      exact ⟨a, ha, hsame.trans hid⟩
  · rw [htime]
    exact hcons.opening
  · intro after hafter
    obtain ⟨before, hbefore, hnow⟩ := hpass after hafter
    exact hnow.trans (hcons.openPass before hbefore)
  · intro a ha
    have hkept := hcons.kept a ha
    rcases hcons.turn ha with ⟨hfirings, hfind, hplace⟩ |
      ⟨opening, cb, hpending, hawaits, hfirings, hdone, hentry⟩
    · exact hkept.frame (Nat.le_of_eq hnext.symm) (Nat.le_of_eq htime.symm) rfl Iff.rfl hfirings
        hplace fun t _ => hfind t
    · -- The timer runs: its delay was over when the pass opened.
      have hwaited := hkept.waited hpending opening hawaits
      have hopened : opening = timers.opened := by
        obtain ⟨due, hopen, -⟩ := hawaits
        exact hcons.openPass _ hopen
      have hdue : a.dueAt timers.loop.fireNext = opening + a.delayMs.toNat := by
        rw [Arming.dueAt, hfirings]
        rfl
      refine ⟨hnext ▸ hkept.registered, hkept.short, hkept.repeated, ?_, ?_, ?_, ?_, ?_, ?_, ?_, ?_⟩
      · rintro ⟨-, honce⟩
        have hrepeats : 0 < a.intervalMs := by
          refine UInt32.pos_iff_ne_zero.mpr fun hzero => ?_
          have hnone := honce hzero
          rw [hfirings] at hnone
          exact absurd hnone (by simp)
        refine ⟨cb, hentry.trans ?_⟩
        rw [if_pos hrepeats, hdue, hkept.repeated hrepeats, reading_add_word]
      · intro t ht halive
        refine ⟨hpending.1, fun hzero => ?_⟩
        rw [hentry, if_neg (by rw [hzero]; decide)] at ht
        obtain rfl := Option.some.inj ht
        exact absurd halive (by simp)
      · rw [hfirings, htime, hopened]
        exact hcons.opening
      · exact fun _ other hother => absurd hother (hdone other)
      · intro _
        rw [hdue, hopened]
        exact .inr (Nat.le_add_right _ _)
      · rw [hfirings]
        exact ⟨hwaited, hkept.obeyed.spaced⟩
      · intro firing hfiring
        rw [hfirings] at hfiring
        rcases List.mem_cons.mp hfiring with rfl | hold
        · rw [hopened]
          exact hcons.opening
        · exact hkept.obeyed.entered firing hold
      · intro hzero
        rw [hfirings, hpending.2 hzero]
        exact Nat.le_refl _

/-- Every step of a loop dispatched often enough keeps it consistent. -/
theorem Consistent.step (hcons : timers.Consistent largest) (hlargest : largest < 2 ^ 31)
    {event : Event H β} (hoften : Dispatched largest timers event) :
    (timers.step event).Consistent largest := by
  cases event with
  | tick ms =>
      refine { hcons with
        wellFormed := hcons.wellFormed.step (.tick ms)
        opening := Nat.le_add_right_of_le hcons.opening
        kept := ?_ }
      exact fun a ha => (hcons.kept a ha).frame (Nat.le_refl _) (Nat.le_add_right _ _) rfl Iff.rfl
        rfl (fun _ _ => Iff.rfl) fun _ _ => Iff.rfl
  | addTimer handle delayMs cb =>
      rw [Timers.step, addTimer_eq]
      exact hcons.arm handle cb hoften fun hpos => absurd hpos (by decide)
  | addRepeating handle intervalMs cb =>
      rw [Timers.step, addRepeating_eq]
      exact hcons.arm handle cb hoften fun _ => rfl
  | reset handle => exact hcons.reset handle
  | move source target => exact hcons.move source target
  | beginPass =>
      rw [Timers.step]
      cases hopen : timers.loop.pass with
      | some pass =>
          have hsame : timers.loop.beginPass = timers.loop := by
            rw [EventLoop.beginPass, hopen]
          rw [hsame]
          exact hcons
      | none => exact (hcons.beginPass hlargest hopen (hoften hopen)).1
  | fireNext => exact hcons.fireNext
  | reap =>
      have hwell := hcons.wellFormed.step .reap
      have hreap : timers.loop.reap.fired = timers.loop.fired ∧
          timers.loop.reap.time = timers.loop.time ∧ timers.loop.reap.pass = timers.loop.pass ∧
          timers.loop.reap.nextTimer = timers.loop.nextTimer ∧
          ∀ t ∈ timers.loop.reap.timers, t ∈ timers.loop.timers := by
        rw [EventLoop.reap]
        split
        · exact ⟨rfl, rfl, rfl, rfl, fun _ => id⟩
        · exact ⟨rfl, rfl, rfl, rfl, fun t ht => (List.mem_filter.mp ht).1⟩
      obtain ⟨hfired, htime, hpass, hnext, hentries⟩ := hreap
      refine ⟨hwell, ?_, hcons.single, ?_, hcons.distinct, ?_, ?_, ?_, ?_, ?_⟩
      · rw [Timers.step, hnext]
        exact hcons.held
      · rw [Timers.step, hnext]
        exact hcons.letGo
      · exact fun t ht => hcons.entries t (hentries t ht)
      · rw [Timers.step, hfired]
        exact hcons.firings
      · rw [Timers.step, htime]
        exact hcons.opening
      · rw [Timers.step, hpass]
        exact hcons.openPass
      · intro a ha
        refine (hcons.kept a ha).frame (Nat.le_of_eq hnext.symm) (Nat.le_of_eq htime.symm) rfl
          Iff.rfl ?_ ?_ fun t halive => hcons.wellFormed.find_reap halive
        · rw [Timers.step, EventLoop.firingsOf, hfired]
          rfl
        · intro _ opening
          rw [Timers.step, Awaited, Awaited, hpass]

theorem consistent_run (hlargest : largest < 2 ^ 31) {time : Nat} {events : List (Event H β)}
    (hrun : Along step (Dispatched largest) (Timers.start time) events) :
    (run step (Timers.start time) events).Consistent largest :=
  Along.invariant (fun _ _ hcons hoften => hcons.step hlargest hoften)
    (Consistent.start largest time) hrun

/-! ## What later steps leave as it is -/

theorem reset_frame (timers : Timers H β) (handle : H) :
    (timers.reset handle).loop.fired = timers.loop.fired ∧
    (timers.reset handle).loop.pass = timers.loop.pass ∧
    (timers.reset handle).armings = timers.armings ∧
    ∀ id ∈ timers.released, id ∈ (timers.reset handle).released := by
  rw [Timers.reset]
  split
  · exact ⟨rfl, rfl, rfl, fun _ => id⟩
  · exact ⟨EventLoop.fired_cancelTimer _ _, EventLoop.pass_cancelTimer _ _, rfl,
      fun _ => List.mem_cons_of_mem _⟩

/-- What was armed and what was let go stays so; only a turn of a pass fires
anything, and only between passes does one open. -/
theorem step_frame (timers : Timers H β) (event : Event H β) :
    (∀ a ∈ timers.armings, a ∈ (timers.step event).armings) ∧
    (∀ id ∈ timers.released, id ∈ (timers.step event).released) ∧
    (event = .fireNext ∨ (timers.step event).loop.fired = timers.loop.fired ∧
      ((timers.step event).loop.pass = timers.loop.pass ∨ timers.loop.pass = none)) := by
  cases event with
  | tick ms => exact ⟨fun _ => id, fun _ => id, .inr ⟨rfl, .inl rfl⟩⟩
  | addTimer handle delayMs cb =>
      obtain ⟨hfired, hpass, harmings, hreleased⟩ :=
        reset_frame (timers.enrol delayMs 0 cb) handle
      refine ⟨fun a ha => ?_, hreleased, .inr ⟨hfired, .inl hpass⟩⟩
      show a ∈ ((timers.enrol delayMs 0 cb).reset handle).armings
      rw [harmings]
      exact List.mem_cons_of_mem _ ha
  | addRepeating handle intervalMs cb =>
      obtain ⟨hfired, hpass, harmings, hreleased⟩ :=
        reset_frame (timers.enrol (repeatInterval intervalMs) (repeatInterval intervalMs) cb) handle
      refine ⟨fun a ha => ?_, hreleased, .inr ⟨hfired, .inl hpass⟩⟩
      show a ∈ ((timers.enrol (repeatInterval intervalMs) (repeatInterval intervalMs) cb).reset
        handle).armings
      rw [harmings]
      exact List.mem_cons_of_mem _ ha
  | reset handle =>
      obtain ⟨hfired, hpass, harmings, hreleased⟩ := reset_frame timers handle
      exact ⟨fun a ha => harmings ▸ ha, hreleased, .inr ⟨hfired, .inl hpass⟩⟩
  | move source target =>
      rw [step, move]
      split
      · exact ⟨fun _ => id, fun _ => id, .inr ⟨rfl, .inl rfl⟩⟩
      · obtain ⟨hfired, hpass, harmings, hreleased⟩ := reset_frame timers target
        exact ⟨fun a ha => harmings ▸ ha, hreleased, .inr ⟨hfired, .inl hpass⟩⟩
  | beginPass =>
      refine ⟨fun _ => id, fun _ => id, .inr ?_⟩
      rw [step, EventLoop.beginPass]
      cases hopen : timers.loop.pass with
      | some pass => exact ⟨rfl, .inl hopen⟩
      | none => exact ⟨rfl, .inr rfl⟩
  | fireNext => exact ⟨fun _ => id, fun _ => id, .inl rfl⟩
  | reap =>
      refine ⟨fun _ => id, fun _ => id, .inr ?_⟩
      rw [step, EventLoop.reap]
      split <;> exact ⟨rfl, .inl rfl⟩

/-- A timer that was let go does not fire again. -/
theorem Consistent.silent (hcons : timers.Consistent largest) {a : Arming}
    (ha : a ∈ timers.armings) (hreleased : a.id ∈ timers.released) (event : Event H β) :
    (timers.step event).loop.firingsOf a.id = timers.loop.firingsOf a.id := by
  obtain ⟨-, -, rfl | ⟨hfired, -⟩⟩ := timers.step_frame event
  · rcases hcons.turn ha with ⟨hfirings, -, -⟩ | ⟨_, _, hpending, -⟩
    · exact hfirings
    · exact absurd hreleased hpending.1
  · rw [EventLoop.firingsOf, hfired]
    rfl

/-- What a pass found due stays answered for. -/
theorem Answered.step (hcons : timers.Consistent largest) {a : Arming} {opening : Nat}
    (ha : a ∈ timers.armings) (hanswered : timers.Answered opening a) (event : Event H β) :
    (timers.step event).Answered opening a := by
  obtain ⟨-, hreleased, hevent⟩ := timers.step_frame event
  rcases hanswered with ⟨hawaits, hpending⟩ | ⟨firing, hfiring, hnow⟩ | hgone
  · rcases hevent with rfl | ⟨hfired, hpass⟩
    · rcases hcons.turn ha with ⟨hfirings, -, hplace⟩ | ⟨now, cb, -, hopen, hfirings, -, -⟩
      · refine .inl ⟨(hplace hpending opening).mpr hawaits, hpending.1, fun hzero => ?_⟩
        exact hfirings.trans (hpending.2 hzero)
      · have hsame : now = opening := by
          obtain ⟨due, hthis, -⟩ := hawaits
          obtain ⟨other, hthat, -⟩ := hopen
          rw [hthis] at hthat
          simp only [Option.some.injEq, Pass.mk.injEq] at hthat
          exact hthat.1.symm
        refine .inr (.inl ⟨{ id := a.id, now, ran := timers.loop.time }, ?_, hsame⟩)
        rw [show (timers.step .fireNext).loop.firingsOf a.id = _ from hfirings]
        exact List.mem_cons_self
    · by_cases hgone : a.id ∈ (timers.step event).released
      · exact .inr (.inr hgone)
      · have hopen : (timers.step event).loop.pass = timers.loop.pass := by
          rcases hpass with hsame | hnone
          · exact hsame
          · obtain ⟨due, hthis, -⟩ := hawaits
            rw [hnone] at hthis
            simp at hthis
        refine .inl ⟨?_, hgone, fun hzero => ?_⟩
        · rw [Awaited, hopen]
          exact hawaits
        · rw [EventLoop.firingsOf, hfired]
          exact hpending.2 hzero
  · refine .inr (.inl ⟨firing, ?_, hnow⟩)
    rcases hevent with rfl | ⟨hfired, -⟩
    · rcases hcons.turn ha with ⟨hfirings, -, -⟩ | ⟨_, _, -, -, hfirings, -, -⟩
      · rw [show (timers.step .fireNext).loop.firingsOf a.id = _ from hfirings]
        exact hfiring
      · rw [show (timers.step .fireNext).loop.firingsOf a.id = _ from hfirings]
        exact List.mem_cons_of_mem _ hfiring
    · rw [EventLoop.firingsOf, hfired]
      exact hfiring
  · exact .inr (.inr (hreleased a.id hgone))

/-- A pass takes up every timer whose time has come. -/
theorem Consistent.answered_of_beginPass (hcons : timers.Consistent largest)
    (hlargest : largest < 2 ^ 31) {a : Arming} (ha : a ∈ timers.armings)
    (hpending : timers.Pending a) (hidle : timers.loop.pass = none)
    (hoften : timers.loop.time + largest ≤ timers.opened + 2 ^ 31)
    (hcome : a.dueAt timers.loop ≤ timers.loop.time) :
    (timers.step .beginPass).Answered timers.loop.time a := by
  obtain ⟨-, hawaited⟩ := hcons.beginPass hlargest hidle hoften
  refine .inl ⟨(hawaited a ha hpending _).mpr ⟨rfl, hcome⟩, hpending.1, fun hzero => ?_⟩
  obtain ⟨-, -, hfired | ⟨hsame, -⟩⟩ := timers.step_frame .beginPass
  · exact absurd hfired (by simp)
  · rw [EventLoop.firingsOf, hsame]
    exact hpending.2 hzero

/-! ## Whole runs -/

/-- The loop after a run from a new one. -/
def reached (time : Nat) (events : List (Event H β)) : Timers H β :=
  run step (Timers.start time) events

theorem silent_run (hlargest : largest < 2 ^ 31) {a : Arming} {events : List (Event H β)}
    (hcons : timers.Consistent largest) (ha : a ∈ timers.armings)
    (hreleased : a.id ∈ timers.released) (hrun : Along step (Dispatched largest) timers events) :
    (run step timers events).loop.firingsOf a.id = timers.loop.firingsOf a.id := by
  have hstep : ∀ (after : Timers H β) (event : Event H β),
      (after.Consistent largest ∧ a ∈ after.armings ∧ a.id ∈ after.released ∧
        after.loop.firingsOf a.id = timers.loop.firingsOf a.id) →
      Dispatched largest after event →
      (after.step event).Consistent largest ∧ a ∈ (after.step event).armings ∧
        a.id ∈ (after.step event).released ∧
        (after.step event).loop.firingsOf a.id = timers.loop.firingsOf a.id := by
    rintro after event ⟨hafter, harmed, hgone, hsame⟩ hoften
    obtain ⟨harmings, hletGo, -⟩ := after.step_frame event
    exact ⟨hafter.step hlargest hoften, harmings a harmed, hletGo a.id hgone,
      (hafter.silent harmed hgone event).trans hsame⟩
  exact (Along.invariant hstep ⟨hcons, ha, hreleased, rfl⟩ hrun).2.2.2

theorem answered_run (hlargest : largest < 2 ^ 31) {a : Arming} {opening : Nat}
    {events : List (Event H β)} (hcons : timers.Consistent largest) (ha : a ∈ timers.armings)
    (hanswered : timers.Answered opening a)
    (hrun : Along step (Dispatched largest) timers events) :
    (run step timers events).Answered opening a := by
  have hstep : ∀ (after : Timers H β) (event : Event H β),
      (after.Consistent largest ∧ a ∈ after.armings ∧ after.Answered opening a) →
      Dispatched largest after event →
      (after.step event).Consistent largest ∧ a ∈ (after.step event).armings ∧
        (after.step event).Answered opening a := by
    rintro after event ⟨hafter, harmed, hstill⟩ hoften
    exact ⟨hafter.step hlargest hoften, (after.step_frame event).1 a harmed,
      hstill.step hafter harmed event⟩
  exact (Along.invariant hstep ⟨hcons, ha, hanswered⟩ hrun).2.2

/-- Timer semantics. No delay is 2^31 or more, the clock starts anywhere, and a
pass opens at least every 2^31 milliseconds less the largest delay. Then a timer
fires as its delay says, a one-shot once at most; a timer that was let go never
fires again; a timer not let go before its turn fires in the pass that opens when
its time has come, which is the first; and resetting a handle touches the timer it
holds and no other. -/
theorem timer_semantics (hlargest : largest < 2 ^ 31) {time : Nat}
    {first second : List (Event H β)}
    (hrun : Along step (Dispatched largest) (Timers.start time) (first ++ second)) :
    ((reached time first).armings.map (·.id)).Nodup ∧
    (∀ firing ∈ (reached time first).loop.fired,
      ∃ a ∈ (reached time first).armings, a.id = firing.id) ∧
    (∀ a ∈ (reached time first).armings, Obeyed (reached time first).loop a) ∧
    (∀ a ∈ (reached time first).armings, a.id ∈ (reached time first).released →
      (reached time (first ++ second)).loop.firingsOf a.id =
        (reached time first).loop.firingsOf a.id) ∧
    (∀ a ∈ (reached time first).armings, (reached time first).Pending a →
      (reached time first).loop.pass = none →
      a.dueAt (reached time first).loop ≤ (reached time first).loop.time →
      ∀ rest, second = .beginPass :: rest →
        (reached time (first ++ second)).Answered (reached time first).loop.time a) ∧
    (∀ handle id, (reached time first).handles handle ≠ some id →
      ((reached time first).reset handle).loop.find id = (reached time first).loop.find id) ∧
    (∀ handle other id, (reached time first).handles handle = some id →
      (reached time first).handles other = some id → handle = other) := by
  rw [along_append] at hrun
  obtain ⟨hfirst, hsecond⟩ := hrun
  have hcons := consistent_run hlargest hfirst
  simp only [reached, run_append]
  refine ⟨hcons.distinct, hcons.firings, fun a ha => (hcons.kept a ha).obeyed,
    fun a ha hreleased => silent_run hlargest hcons ha hreleased hsecond, ?_, ?_, hcons.single⟩
  · rintro a ha hpending hidle hcome rest rfl
    obtain ⟨hoften, hrest⟩ := hsecond
    have hanswered := hcons.answered_of_beginPass hlargest ha hpending hidle (hoften hidle) hcome
    have hafter := answered_run hlargest (hcons.step hlargest hoften) ha hanswered hrest
    exact hafter
  · intro handle id hother
    rw [Timers.reset]
    split
    · rfl
    · next held hheld =>
        refine EventLoop.find_cancelTimer_of_ne fun hequal => hother ?_
        rw [hheld, hequal]

/-- Two timers come due in one pass, after the wrap of the clock, and the second
has run when the pass is over. -/
theorem timer_semantics_across_wrap :
    (reached (2 ^ 32 - 2) [Event.addTimer false 5 (), .addTimer true 5 (), .tick 5,
        .beginPass, .fireNext, .fireNext, .fireNext]).Answered (2 ^ 32 + 3)
      { id := 2, armed := 2 ^ 32 - 2, delayMs := 5, intervalMs := 0 } := by
  have hrun : Along step (Dispatched 5) (Timers.start (2 ^ 32 - 2))
      ([Event.addTimer false 5 (), .addTimer true 5 (), .tick 5] ++
        [.beginPass, .fireNext, .fireNext, .fireNext]) := by
    exact ⟨Nat.le_refl 5, Nat.le_refl 5, trivial, fun _ => by decide, trivial, trivial, trivial,
      trivial⟩
  obtain ⟨-, -, -, -, htaken, -⟩ := timer_semantics (by decide) hrun
  exact htaken _ (by decide) ⟨by decide, fun _ => by decide⟩ (by decide) (by decide) _ rfl

/-- A timer that has come due, not cancelled, when a pass opens, need not run in
it: another callback of the pass may let it go first. -/
theorem cancelled_in_its_pass :
    ¬ ∀ (first rest : List (Event Bool Unit)),
      Along step (Dispatched 5) (Timers.start 0) (first ++ .beginPass :: rest) →
      ∀ a ∈ (reached 0 first).armings, (reached 0 first).Pending a →
        (reached 0 first).loop.pass = none →
        a.dueAt (reached 0 first).loop = (reached 0 first).loop.time →
        (reached 0 (first ++ .beginPass :: rest)).loop.pass = none →
        ∃ firing ∈ (reached 0 (first ++ .beginPass :: rest)).loop.firingsOf a.id,
          firing.now = (reached 0 first).loop.time := by
  intro hclaim
  have hfires := hclaim [.addTimer false 5 (), .addTimer true 5 (), .tick 5]
    [.fireNext, .reset true, .fireNext, .fireNext]
    ⟨Nat.le_refl 5, Nat.le_refl 5, trivial, fun _ => by decide, trivial, trivial, trivial, trivial,
      trivial⟩
    { id := 2, armed := 0, delayMs := 5, intervalMs := 0 } (by decide)
    ⟨by decide, fun _ => by decide⟩ (by decide) (by decide) (by decide)
  obtain ⟨firing, hfiring, -⟩ := hfires
  have hnone : (reached 0 [Event.addTimer false 5 (), .addTimer true 5 (), .tick 5, .beginPass,
      .fireNext, .reset true, .fireNext, .fireNext]).loop.firingsOf 2 = [] := by rfl
  rw [List.cons_append, List.cons_append, List.cons_append, List.nil_append, hnone] at hfiring
  exact absurd hfiring (by simp)

end Timers

end Coreletd.Daemon
