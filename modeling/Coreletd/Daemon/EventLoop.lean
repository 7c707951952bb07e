/-
# The event loop's timers

True time is a natural number of milliseconds; the loop sees its 32-bit reading.
One call of `run_due_timers` is several steps of the machine, because the
callbacks it runs may add and cancel timers and take time themselves: a pass
opens by reading the clock and taking the due ids down, and each further step
runs the next of them. Whatever callbacks do to the loop appears as events
between those steps.
-/

import Coreletd.Library.Runs
import Coreletd.Library.SerialClock

namespace Coreletd.Daemon

open Coreletd.Library
open Coreletd.Library.SerialClock

universe u

/-- One registered timer; an interval of 0 is a one-shot. -/
structure TimerEntry (β : Type u) where
  id : Nat
  dueMs : UInt32
  intervalMs : UInt32
  cb : β
  dead : Bool := false

/-- A call of `run_due_timers` under way: the clock it read and the ids it has
still to run. -/
structure Pass where
  now : Nat
  due : List Nat

/-- A callback that was run. `now` is the clock of its pass, which is the
instant the loop takes the timer to have fired at, and `ran` the moment the
callback was entered. -/
structure Firing where
  id : Nat
  now : Nat
  ran : Nat

/-- The loop, its clock, and the firings so far, newest first. -/
structure EventLoop (β : Type u) where
  time : Nat := 0
  timers : List (TimerEntry β) := []
  nextTimer : Nat := 1
  dirty : Bool := false
  pass : Option Pass := none
  fired : List Firing := []

namespace EventLoop

variable {β : Type u}

/-- `now_ms`, the clock as the daemon reads it. -/
def nowMs (loop : EventLoop β) : UInt32 := reading loop.time

/-- Register a timer under the next id. -/
def register (loop : EventLoop β) (dueMs intervalMs : UInt32) (cb : β) : Nat × EventLoop β :=
  (loop.nextTimer,
    { loop with
      timers := loop.timers ++ [{ id := loop.nextTimer, dueMs, intervalMs, cb }]
      nextTimer := loop.nextTimer + 1 })

def addTimer (loop : EventLoop β) (delayMs : UInt32) (cb : β) : Nat × EventLoop β :=
  loop.register (loop.nowMs + delayMs) 0 cb

def addRepeating (loop : EventLoop β) (intervalMs : UInt32) (cb : β) : Nat × EventLoop β :=
  let intervalMs := if intervalMs = 0 then 1 else intervalMs
  loop.register (loop.nowMs + intervalMs) intervalMs cb

def find (loop : EventLoop β) (id : Nat) : Option (TimerEntry β) :=
  loop.timers.find? (·.id = id)

/-- Rewrite the entry of one id. -/
def modify (loop : EventLoop β) (id : Nat) (f : TimerEntry β → TimerEntry β) : EventLoop β :=
  { loop with timers := loop.timers.map fun t => if t.id = id then f t else t }

/-- Tombstone a timer: a pass may hold its id. -/
def cancelTimer (loop : EventLoop β) (id : Nat) : EventLoop β :=
  match loop.find id with
  | none => loop
  | some _ => { loop.modify id fun t => { t with dead := true } with dirty := true }

/-- The test of `run_due_timers`: the signed difference has run out. -/
def isDue (now : UInt32) (t : TimerEntry β) : Bool :=
  !t.dead && signed (t.dueMs - now) ≤ 0

/-- `run_due_timers` up to its second loop. One thread runs the loop, so a pass
never opens inside another. -/
def beginPass (loop : EventLoop β) : EventLoop β :=
  match loop.pass with
  | some _ => loop
  | none =>
      { loop with
        pass := some
          { now := loop.time, due := (loop.timers.filter (isDue loop.nowMs)).map (·.id) } }

/-- One turn of the second loop. A repeating timer is rescheduled from the
pass's clock before its callback runs; a one-shot is dead before it runs. -/
def fireNext (loop : EventLoop β) : EventLoop β :=
  match loop.pass with
  | none => loop
  | some { due := [], .. } => { loop with pass := none }
  | some { now, due := id :: due } =>
      let loop := { loop with pass := some { now, due } }
      match loop.find id with
      | none => loop
      | some t =>
          if t.dead then loop
          else
            let firing : Firing := { id, now, ran := loop.time }
            if 0 < t.intervalMs then
              { loop.modify id fun t => { t with dueMs := reading now + t.intervalMs } with
                fired := firing :: loop.fired }
            else
              { loop.modify id fun t => { t with dead := true } with
                dirty := true, fired := firing :: loop.fired }

/-- Erase the tombstones, outside of any pass. -/
def reap (loop : EventLoop β) : EventLoop β :=
  if !loop.dirty || loop.pass.isSome then loop
  else { loop with timers := loop.timers.filter fun t => !t.dead, dirty := false }

/-- What can happen to the loop. -/
inductive Event (β : Type u) where
  | tick (ms : Nat)
  | addTimer (delayMs : UInt32) (cb : β)
  | addRepeating (intervalMs : UInt32) (cb : β)
  | cancelTimer (id : Nat)
  | beginPass
  | fireNext
  | reap

def step (loop : EventLoop β) : Event β → EventLoop β
  | .tick ms => { loop with time := loop.time + ms }
  | .addTimer delayMs cb => (loop.addTimer delayMs cb).2
  | .addRepeating intervalMs cb => (loop.addRepeating intervalMs cb).2
  | .cancelTimer id => loop.cancelTimer id
  | .beginPass => loop.beginPass
  | .fireNext => loop.fireNext
  | .reap => loop.reap

/-! ## Well-formed loops -/

/-- Ids are handed out once, and a pass belongs to the past. -/
structure WellFormed (loop : EventLoop β) : Prop where
  distinct : (loop.timers.map (·.id)).Nodup
  below : ∀ t ∈ loop.timers, t.id < loop.nextTimer
  passed : ∀ pass, loop.pass = some pass → pass.now ≤ loop.time
  once : ∀ pass, loop.pass = some pass → pass.due.Nodup
  dueBelow : ∀ pass, loop.pass = some pass → ∀ id ∈ pass.due, id < loop.nextTimer
  firedBelow : ∀ firing ∈ loop.fired, firing.id < loop.nextTimer
  ranAfter : ∀ firing ∈ loop.fired, firing.now ≤ firing.ran

variable {loop : EventLoop β}

theorem ids_modify (id : Nat) (f : TimerEntry β → TimerEntry β) (hid : ∀ t, (f t).id = t.id) :
    (loop.modify id f).timers.map (·.id) = loop.timers.map (·.id) := by
  rw [modify, List.map_map]
  apply List.map_congr_left
  intro t _
  show (if t.id = id then f t else t).id = t.id
  split
  · exact hid t
  · rfl

theorem mem_modify {id : Nat} {f : TimerEntry β → TimerEntry β} {t : TimerEntry β}
    (hmem : t ∈ (loop.modify id f).timers) :
    (t ∈ loop.timers ∧ t.id ≠ id) ∨ ∃ old ∈ loop.timers, old.id = id ∧ t = f old := by
  obtain ⟨old, hold, rfl⟩ := List.mem_map.mp hmem
  by_cases hid : old.id = id
  · exact .inr ⟨old, hold, hid, by rw [if_pos hid]⟩
  · rw [if_neg hid]
    exact .inl ⟨hold, hid⟩

theorem WellFormed.modify (hloop : loop.WellFormed) (id : Nat)
    (f : TimerEntry β → TimerEntry β) (hid : ∀ t, (f t).id = t.id) :
    (loop.modify id f).WellFormed where
  distinct := by
    rw [ids_modify id f hid]
    exact hloop.distinct
  below := by
    intro t ht
    rcases mem_modify ht with ⟨hmem, -⟩ | ⟨old, hold, -, rfl⟩
    · exact hloop.below t hmem
    · rw [hid]
      exact hloop.below old hold
  passed := hloop.passed
  once := hloop.once
  dueBelow := hloop.dueBelow
  firedBelow := hloop.firedBelow
  ranAfter := hloop.ranAfter

theorem WellFormed.register (hloop : loop.WellFormed) (dueMs intervalMs : UInt32) (cb : β) :
    (loop.register dueMs intervalMs cb).2.WellFormed where
  distinct := by
    rw [EventLoop.register, List.map_append]
    refine List.nodup_append.mpr ⟨hloop.distinct, by simp, ?_⟩
    intro id hid new hnew
    obtain ⟨t, ht, rfl⟩ := List.mem_map.mp hid
    rw [List.map_singleton, List.mem_singleton] at hnew
    rw [hnew]
    exact Nat.ne_of_lt (hloop.below t ht)
  below := by
    intro t ht
    show t.id < loop.nextTimer + 1
    rcases List.mem_append.mp ht with hold | hnew
    · exact Nat.lt_succ_of_lt (hloop.below t hold)
    · rw [List.mem_singleton.mp hnew]
      exact Nat.lt_succ_self _
  passed := hloop.passed
  once := hloop.once
  dueBelow := fun pass hpass id hid => Nat.lt_succ_of_lt (hloop.dueBelow pass hpass id hid)
  firedBelow := fun firing hfiring => Nat.lt_succ_of_lt (hloop.firedBelow firing hfiring)
  ranAfter := hloop.ranAfter

/-- What one turn of a pass does: nothing but move on, or run one live timer. -/
theorem fireNext_cases (loop : EventLoop β) :
    (loop.pass = none ∧ loop.fireNext = loop) ∨
    (∃ now, loop.pass = some { now, due := [] } ∧ loop.fireNext = { loop with pass := none }) ∨
    ∃ now id due, loop.pass = some { now, due := id :: due } ∧
      (loop.fireNext = { loop with pass := some { now, due } } ∧
          (∀ t, loop.find id = some t → t.dead = true) ∨
      ∃ t f, loop.find id = some t ∧ t.dead = false ∧
        f = (if 0 < t.intervalMs then
            fun t : TimerEntry β => { t with dueMs := reading now + t.intervalMs }
          else fun t => { t with dead := true }) ∧
        loop.fireNext =
          { loop.modify id f with
            pass := some { now, due }
            dirty := loop.dirty || decide (¬ 0 < t.intervalMs)
            fired := { id, now, ran := loop.time } :: loop.fired }) := by
  rw [fireNext]
  split
  · rename_i hpass
    exact .inl ⟨hpass, rfl⟩
  · rename_i now hpass
    exact .inr (.inl ⟨now, hpass, rfl⟩)
  · rename_i now id due hpass
    refine .inr (.inr ⟨now, id, due, hpass, ?_⟩)
    simp only [find]
    split
    · rename_i hnone
      exact .inl ⟨rfl, by simp [hnone]⟩
    · rename_i t hfind
      split
      · rename_i hdead
        refine .inl ⟨rfl, ?_⟩
        rintro other hother
        rw [hfind] at hother
        obtain rfl := Option.some.inj hother
        exact hdead
      · rename_i halive
        refine .inr ⟨t, _, hfind, by simpa using halive, rfl, ?_⟩
        by_cases hrepeats : 0 < t.intervalMs
        · simp [hrepeats, EventLoop.modify]
        · simp [hrepeats, EventLoop.modify]

theorem WellFormed.fireNext (hloop : loop.WellFormed) : loop.fireNext.WellFormed := by
  rcases loop.fireNext_cases with ⟨-, hsame⟩ | ⟨now, -, hclosed⟩ | ⟨now, id, due, hpass, hturn⟩
  · rw [hsame]
    exact hloop
  · rw [hclosed]
    exact { hloop with
      passed := by simp
      once := by simp
      dueBelow := by simp }
  · have hnow := hloop.passed _ hpass
    have honce := hloop.once _ hpass
    have hbelow := hloop.dueBelow _ hpass
    have hmoved : ({ loop with pass := some { now, due } } : EventLoop β).WellFormed :=
      { hloop with
        passed := by
          rintro pass ⟨⟩
          exact hnow
        once := by
          rintro pass ⟨⟩
          exact (List.nodup_cons.mp honce).2
        dueBelow := by
          rintro pass ⟨⟩
          exact fun other hother => hbelow other (List.mem_cons_of_mem _ hother) }
    rcases hturn with ⟨hskipped, -⟩ | ⟨t, f, -, -, hf, hran⟩
    · rw [hskipped]
      exact hmoved
    · have hid : ∀ t, (f t).id = t.id := by
        intro t
        rw [hf]
        split <;> rfl
      have hmodified := hmoved.modify id f hid
      rw [hran]
      exact { hmodified with
        firedBelow := by
          intro firing hfiring
          rcases List.mem_cons.mp hfiring with rfl | hold
          · exact hbelow id List.mem_cons_self
          · exact hloop.firedBelow firing hold
        ranAfter := by
          intro firing hfiring
          rcases List.mem_cons.mp hfiring with rfl | hold
          · exact hnow
          · exact hloop.ranAfter firing hold }

/-- Every step keeps the loop well-formed. -/
theorem WellFormed.step (hloop : loop.WellFormed) (event : Event β) :
    (loop.step event).WellFormed := by
  cases event with
  | tick ms =>
      exact { hloop with
        passed := fun pass hpass => Nat.le_add_right_of_le (hloop.passed pass hpass) }
  | addTimer delayMs cb => exact hloop.register _ _ _
  | addRepeating intervalMs cb => exact hloop.register _ _ _
  | cancelTimer id =>
      simp only [EventLoop.step, cancelTimer]
      split
      · exact hloop
      · have hmodified := hloop.modify id (fun t => { t with dead := true }) fun _ => rfl
        exact { hmodified with }
  | beginPass =>
      simp only [EventLoop.step, beginPass]
      split
      · exact hloop
      · refine { hloop with passed := ?_, once := ?_, dueBelow := ?_ }
        · rintro pass ⟨⟩
          exact Nat.le_refl _
        · rintro pass ⟨⟩
          exact hloop.distinct.sublist (List.filter_sublist.map _)
        · rintro pass ⟨⟩ id hid
          obtain ⟨t, ht, rfl⟩ := List.mem_map.mp hid
          exact hloop.below t (List.mem_filter.mp ht).1
  | fireNext => exact hloop.fireNext
  | reap =>
      simp only [EventLoop.step, reap]
      split
      · exact hloop
      · exact { hloop with
          distinct := hloop.distinct.sublist (List.filter_sublist.map _)
          below := fun t ht => hloop.below t (List.mem_filter.mp ht).1 }

/-! ## Pacing of one repeating timer -/

/-- The firings of one timer, newest first. -/
def firingsOf (loop : EventLoop β) (id : Nat) : List Firing :=
  loop.fired.filter (·.id = id)

/-- When a timer last fired, or else was armed. -/
def lastInstant (armed : Nat) (instants : List Nat) : Nat := instants.head?.getD armed

/-- Instants, newest first, each at least `interval` after the one before it and
the first of them after `armed`. -/
def Spaced (interval armed : Nat) : List Nat → Prop
  | [] => True
  | instant :: earlier =>
      lastInstant armed earlier + interval ≤ instant ∧ Spaced interval armed earlier

/-- What the loop knows of a repeating timer armed at `armed` with `interval`. -/
structure Paced (id : Nat) (interval : UInt32) (armed : Nat) (loop : EventLoop β) : Prop where
  wellFormed : loop.WellFormed
  registered : id < loop.nextTimer
  scheduled : ∀ t ∈ loop.timers, t.id = id → t.intervalMs = interval ∧
    t.dueMs =
      reading (lastInstant armed ((loop.firingsOf id).map (·.now)) + interval.toNat)
  past : lastInstant armed ((loop.firingsOf id).map (·.now)) ≤ loop.time
  elapsed : ∀ pass, loop.pass = some pass → id ∈ pass.due →
    lastInstant armed ((loop.firingsOf id).map (·.now)) + interval.toNat ≤ pass.now
  spaced : Spaced interval.toNat armed ((loop.firingsOf id).map (·.now))

/-- A due timer whose interval is below half the clock's range has really waited
its interval out. -/
theorem elapsed_of_isDue {t : TimerEntry β} {last now : Nat} {interval : UInt32}
    (hdue : t.dueMs = reading (last + interval.toNat)) (hpast : last ≤ now)
    (hhalf : interval.toNat < 2 ^ 31) (hisDue : isDue (reading now) t = true) :
    last + interval.toNat ≤ now := by
  by_contra hahead
  have hpos := signed_sub_pos_of_ahead (Nat.lt_of_not_le hahead)
    (show last + interval.toNat < now + 2 ^ 31 by omega)
  rw [isDue, hdue, Bool.and_eq_true, decide_eq_true_eq] at hisDue
  omega

variable {id armed : Nat} {interval : UInt32}

theorem Paced.fireNext (hpaced : Paced id interval armed loop) (hrepeats : 0 < interval) :
    Paced id interval armed loop.fireNext := by
  have hwell := hpaced.wellFormed.fireNext
  rcases loop.fireNext_cases with
    ⟨-, hsame⟩ | ⟨now, -, hclosed⟩ | ⟨now, next, due, hpass, hturn⟩
  · rw [hsame]
    exact hpaced
  · rw [hclosed] at hwell ⊢
    exact { hpaced with wellFormed := hwell, elapsed := by simp }
  · have helapsed := hpaced.elapsed _ hpass
    rcases hturn with ⟨hskipped, -⟩ | ⟨t, f, hfind, halive, hf, hran⟩
    · rw [hskipped] at hwell ⊢
      refine { hpaced with wellFormed := hwell, elapsed := ?_ }
      rintro pass ⟨⟩ hmem
      exact helapsed (List.mem_cons_of_mem _ hmem)
    · rw [hran] at hwell ⊢
      by_cases hself : next = id
      · -- The timer itself runs: its pass had found the interval elapsed.
        subst hself
        have hwaited := helapsed List.mem_cons_self
        have ht : t ∈ loop.timers ∧ t.id = next := by
          refine ⟨List.mem_of_find?_eq_some hfind, ?_⟩
          have hkey := List.find?_some hfind
          simpa using hkey
        have hinterval := (hpaced.scheduled t ht.1 ht.2).1
        rw [hinterval, if_pos hrepeats] at hf
        have hfirings : ∀ (timers : List (TimerEntry β)) (pass : Option Pass) (dirty : Bool),
            firingsOf ({ loop with
              timers := timers
              pass := pass
              dirty := dirty
              fired := { id := next, now := now, ran := loop.time } :: loop.fired }) next =
            { id := next, now := now, ran := loop.time } :: loop.firingsOf next := by
          intro timers pass dirty
          simp [firingsOf]
        refine ⟨hwell, hpaced.registered, ?_, ?_, ?_, ?_⟩
        · intro other hother hid
          rw [EventLoop.modify, hfirings]
          rcases mem_modify hother with ⟨-, hne⟩ | ⟨old, hold, holdId, rfl⟩
          · exact absurd hid hne
          · have hkept := (hpaced.scheduled old hold holdId).1
            rw [hf]
            refine ⟨hkept, ?_⟩
            show reading now + old.intervalMs = _
            rw [hkept, reading_add_word]
            rfl
        · rw [EventLoop.modify, hfirings]
          exact hpaced.wellFormed.passed _ hpass
        · rintro pass ⟨⟩ hmem
          exact absurd hmem (List.nodup_cons.mp (hpaced.wellFormed.once _ hpass)).1
        · rw [EventLoop.modify, hfirings]
          exact ⟨hwaited, hpaced.spaced⟩
      · have hfirings : ∀ (timers : List (TimerEntry β)) (pass : Option Pass) (dirty : Bool),
            firingsOf ({ loop with
              timers := timers
              pass := pass
              dirty := dirty
              fired := { id := next, now := now, ran := loop.time } :: loop.fired }) id =
            loop.firingsOf id := by
          intro timers pass dirty
          simp [firingsOf, hself]
        refine ⟨hwell, hpaced.registered, ?_, ?_, ?_, ?_⟩
        · intro other hother hid
          rw [EventLoop.modify, hfirings]
          rcases mem_modify hother with ⟨hold, -⟩ | ⟨old, hold, holdId, rfl⟩
          · exact hpaced.scheduled other hold hid
          · have hkept : (f old).id = old.id := by
              rw [hf]
              split <;> rfl
            exact absurd (holdId.symm.trans (hkept.symm.trans hid)) hself
        · rw [EventLoop.modify, hfirings]
          exact hpaced.past
        · rintro pass ⟨⟩ hmem
          rw [EventLoop.modify, hfirings]
          exact helapsed (List.mem_cons_of_mem _ hmem)
        · rw [EventLoop.modify, hfirings]
          exact hpaced.spaced

/-- Below half the clock's range no step makes the timer fire early. -/
theorem Paced.step (hpaced : Paced id interval armed loop) (hrepeats : 0 < interval)
    (hhalf : interval.toNat < 2 ^ 31) (event : Event β) :
    Paced id interval armed (loop.step event) := by
  have hwell := hpaced.wellFormed.step event
  -- A new timer never takes this one's id.
  have hregister : ∀ dueMs intervalMs cb,
      (loop.register dueMs intervalMs cb).2.WellFormed →
      Paced id interval armed (loop.register dueMs intervalMs cb).2 := by
    intro dueMs intervalMs cb hnew
    refine { hpaced with
      wellFormed := hnew, registered := Nat.lt_succ_of_lt hpaced.registered, scheduled := ?_ }
    intro t ht hid
    rcases List.mem_append.mp ht with hold | hlast
    · exact hpaced.scheduled t hold hid
    · rw [List.mem_singleton.mp hlast] at hid
      exact absurd hid (Nat.ne_of_gt hpaced.registered)
  cases event with
  | tick ms =>
      exact { hpaced with wellFormed := hwell, past := Nat.le_add_right_of_le hpaced.past }
  | addTimer delayMs cb => exact hregister _ _ _ hwell
  | addRepeating intervalMs cb => exact hregister _ _ _ hwell
  | cancelTimer other =>
      simp only [EventLoop.step, cancelTimer] at hwell ⊢
      split
      · exact hpaced
      · rename_i hfound
        rw [hfound] at hwell
        refine { hpaced with wellFormed := hwell, scheduled := ?_ }
        intro t ht hid
        rcases mem_modify ht with ⟨hold, -⟩ | ⟨old, hold, -, rfl⟩
        · exact hpaced.scheduled t hold hid
        · exact hpaced.scheduled old hold hid
  | beginPass =>
      simp only [EventLoop.step, beginPass] at hwell ⊢
      split
      · exact hpaced
      · rename_i hidle
        rw [hidle] at hwell
        refine { hpaced with wellFormed := hwell, elapsed := ?_ }
        rintro pass ⟨⟩ hmem
        obtain ⟨t, ht, hid⟩ := List.mem_map.mp hmem
        obtain ⟨htimer, hisDue⟩ := List.mem_filter.mp ht
        exact elapsed_of_isDue (hpaced.scheduled t htimer hid).2 hpaced.past hhalf hisDue
  | fireNext => exact hpaced.fireNext hrepeats
  | reap =>
      simp only [EventLoop.step, reap] at hwell ⊢
      split
      · exact hpaced
      · rename_i hreaped
        rw [if_neg hreaped] at hwell
        refine { hpaced with wellFormed := hwell, scheduled := ?_ }
        exact fun t ht => hpaced.scheduled t (List.mem_filter.mp ht).1

/-- A freshly armed repeating timer is paced. -/
theorem Paced.addRepeating (hloop : loop.WellFormed) (hrepeats : 0 < interval) (cb : β) :
    Paced (loop.addRepeating interval cb).1 interval loop.time
      (loop.addRepeating interval cb).2 := by
  have hnonzero : interval ≠ 0 := by
    rintro rfl
    exact absurd hrepeats (by decide)
  rw [EventLoop.addRepeating, if_neg hnonzero]
  have hnone : firingsOf (loop.register (loop.nowMs + interval) interval cb).2 loop.nextTimer =
      [] := by
    refine List.filter_eq_nil_iff.mpr fun firing hfiring => ?_
    have hlt := hloop.firedBelow firing hfiring
    simp only [decide_eq_true_eq]
    omega
  refine ⟨hloop.register _ _ _, Nat.lt_succ_self _, ?_, ?_, ?_, ?_⟩
  · intro t ht hid
    rcases List.mem_append.mp ht with hold | hlast
    · exact absurd hid (Nat.ne_of_lt (hloop.below t hold))
    · show _ ∧ t.dueMs = reading (lastInstant loop.time
        ((firingsOf (loop.register _ _ _).2 loop.nextTimer).map _) + _)
      rw [hnone, List.mem_singleton.mp hlast]
      exact ⟨rfl, reading_add_word _ _⟩
  · show lastInstant loop.time ((firingsOf (loop.register _ _ _).2 loop.nextTimer).map _) ≤ _
    rw [hnone]
    exact Nat.le_refl _
  · intro pass hpass hmem
    exact absurd (hloop.dueBelow pass hpass _ hmem) (Nat.lt_irrefl _)
  · show Spaced _ _ ((firingsOf (loop.register _ _ _).2 loop.nextTimer).map _)
    rw [hnone]
    trivial

theorem wellFormed_start (time : Nat) : ({ time := time } : EventLoop β).WellFormed where
  distinct := List.nodup_nil
  below := by simp
  passed := by simp
  once := by simp
  dueBelow := by simp
  firedBelow := by simp
  ranAfter := by simp

/-- Every reachable loop is well-formed. -/
theorem wellFormed_run (time : Nat) (events : List (Event β)) :
    (run step ({ time := time } : EventLoop β) events).WellFormed :=
  run_invariant (fun _ event hloop => hloop.step event) (wellFormed_start time) events

/-! ## Callbacks that take no time -/

/-- The clock does not move while a pass runs its callbacks, which the loop asks
of them: they must not block. -/
def Still (loop : EventLoop β) : Event β → Prop
  | .tick ms => loop.pass = none ∨ ms = 0
  | _ => True

/-- The clock of an open pass is the present, and every callback was entered at
the clock of its pass. -/
structure Prompt (loop : EventLoop β) : Prop where
  present : ∀ pass, loop.pass = some pass → pass.now = loop.time
  entered : ∀ firing ∈ loop.fired, firing.ran = firing.now

theorem Prompt.step (hprompt : loop.Prompt) {event : Event β} (hstill : Still loop event) :
    (loop.step event).Prompt := by
  cases event with
  | tick ms =>
      refine ⟨fun pass hpass => ?_, hprompt.entered⟩
      rcases hstill with hidle | rfl
      · rw [EventLoop.step, hidle] at hpass
        simp at hpass
      · exact hprompt.present pass hpass
  | addTimer delayMs cb => exact ⟨hprompt.present, hprompt.entered⟩
  | addRepeating intervalMs cb => exact ⟨hprompt.present, hprompt.entered⟩
  | cancelTimer id =>
      simp only [EventLoop.step, cancelTimer]
      split <;> exact ⟨hprompt.present, hprompt.entered⟩
  | beginPass =>
      simp only [EventLoop.step, beginPass]
      split
      · exact hprompt
      · refine ⟨?_, hprompt.entered⟩
        rintro pass ⟨⟩
        rfl
  | fireNext =>
      rcases loop.fireNext_cases with
        ⟨-, hsame⟩ | ⟨now, -, hclosed⟩ | ⟨now, next, due, hpass, hturn⟩
      · rw [EventLoop.step, hsame]
        exact hprompt
      · rw [EventLoop.step, hclosed]
        exact ⟨by simp, hprompt.entered⟩
      · have hnow := hprompt.present _ hpass
        rcases hturn with ⟨hskipped, -⟩ | ⟨t, f, -, -, -, hran⟩
        · rw [EventLoop.step, hskipped]
          refine ⟨?_, hprompt.entered⟩
          rintro pass ⟨⟩
          exact hnow
        · rw [EventLoop.step, hran]
          constructor
          · rintro pass ⟨⟩
            exact hnow
          · intro firing hfiring
            rcases List.mem_cons.mp hfiring with rfl | hold
            · exact hnow.symm
            · exact hprompt.entered firing hold
  | reap =>
      simp only [EventLoop.step, reap]
      split <;> exact ⟨hprompt.present, hprompt.entered⟩

theorem Prompt.firings (hprompt : loop.Prompt) (id : Nat) :
    (loop.firingsOf id).map (·.ran) = (loop.firingsOf id).map (·.now) :=
  List.map_congr_left fun firing hfiring =>
    hprompt.entered firing (List.mem_filter.mp hfiring).1

/-! ## A pass runs what it found due -/

/-- Writing to a timer leaves every other as it is. -/
theorem find_modify_of_ne {other : Nat} {f : TimerEntry β → TimerEntry β}
    (hid : ∀ t, (f t).id = t.id) (hne : id ≠ other) :
    (loop.modify other f).find id = loop.find id := by
  show List.find? _ (List.map _ _) = _
  rw [List.find?_map]
  have hkey : ((fun entry : TimerEntry β => decide (entry.id = id)) ∘
      fun entry => if entry.id = other then f entry else entry) =
      fun entry => decide (entry.id = id) := by
    funext entry
    show decide ((if entry.id = other then f entry else entry).id = id) = _
    split
    · rw [hid]
    · rfl
  rw [hkey]
  cases hfind : loop.find id with
  | none =>
      rw [find] at hfind
      rw [hfind]
      rfl
  | some t =>
      have hkept := List.find?_some hfind
      have htid : t.id = id := by simpa using hkept
      rw [find] at hfind
      rw [hfind, Option.map_some, if_neg (by rw [htid]; exact hne)]

/-- Other turns of a pass leave a timer as it is. -/
theorem fireNext_runs {now : Nat} {before after : List Nat} {t : TimerEntry β}
    (hpass : loop.pass = some { now, due := before ++ id :: after })
    (hbefore : id ∉ before) (hfind : loop.find id = some t) (halive : t.dead = false) :
    ∃ ran, { id, now, ran } ∈
      (run step loop (List.replicate (before.length + 1) Event.fireNext)).fired := by
  induction before generalizing loop with
  | nil =>
      refine ⟨loop.time, ?_⟩
      show _ ∈ loop.fireNext.fired
      rw [fireNext, hpass]
      simp only [List.nil_append, find] at hfind ⊢
      rw [hfind]
      simp only [halive, Bool.false_eq_true, if_false]
      split <;> exact List.mem_cons_self
  | cons next before ih =>
      rw [List.length_cons, List.replicate_succ, run_cons]
      have hne : next ≠ id := fun hequal => hbefore (hequal ▸ List.mem_cons_self)
      -- One turn for another timer: the pass moves on and this entry stays.
      have hturn : (loop.step .fireNext).pass = some { now, due := before ++ id :: after } ∧
          (loop.step .fireNext).find id = some t := by
        rcases loop.fireNext_cases with
          ⟨hidle, -⟩ | ⟨_, hclosed, -⟩ | ⟨clock, first, due, hopen, hturn⟩
        · rw [hpass] at hidle
          simp at hidle
        · rw [hpass] at hclosed
          simp at hclosed
        · rw [hpass] at hopen
          simp only [List.cons_append, Option.some.injEq, Pass.mk.injEq, List.cons.injEq] at hopen
          obtain ⟨rfl, rfl, rfl⟩ := hopen
          rcases hturn with ⟨hskipped, -⟩ | ⟨other, f, -, -, hf, hran⟩
          · rw [EventLoop.step, hskipped]
            exact ⟨rfl, hfind⟩
          · rw [EventLoop.step, hran]
            refine ⟨rfl, ?_⟩
            have hkept : ∀ entry, (f entry).id = entry.id := by
              intro entry
              rw [hf]
              split <;> rfl
            exact (find_modify_of_ne hkept hne.symm).trans hfind
      exact ih hturn.1 (fun hmem => hbefore (List.mem_cons_of_mem _ hmem)) hturn.2

end EventLoop

end Coreletd.Daemon
