/-
# Timers and the handles that own them

A callback never names a timer by its id: it holds a registration, which cancels
the timer when it is reset, destroyed or assigned over. This machine puts those
handles over the loop. It also keeps what the claims about timers speak of and
no program sees: every timer that was armed, with the moment it was armed, and
every id whose registration was let go.
-/

import Mathlib.Data.List.Nodup
import Mathlib.Logic.Function.Basic
import Coreletd.Daemon.EventLoop

namespace Coreletd.Daemon

open Coreletd.Library
open Coreletd.Library.SerialClock

universe u v

/-! ## The entry of one id -/

namespace EventLoop

variable {β : Type u} {loop : EventLoop β} {id : Nat}

/-- Ids are handed out once, so the entry found is the only one. -/
theorem WellFormed.find_iff (hloop : loop.WellFormed) {t : TimerEntry β} :
    loop.find id = some t ↔ t ∈ loop.timers ∧ t.id = id := by
  constructor
  · intro hfind
    have hkey := List.find?_some hfind
    exact ⟨List.mem_of_find?_eq_some hfind, by simpa using hkey⟩
  · rintro ⟨hmem, hid⟩
    cases hfind : loop.find id with
    | none =>
        have hnone := List.find?_eq_none.mp hfind t hmem
        simp [hid] at hnone
    | some other =>
        have hother := List.mem_of_find?_eq_some hfind
        have hkey := List.find?_some hfind
        have hsame : other.id = t.id := by simpa [hid] using hkey
        rw [List.inj_on_of_nodup_map hloop.distinct hother hmem hsame]

theorem find_register_of_ne (dueMs intervalMs : UInt32) (cb : β) (hne : id ≠ loop.nextTimer) :
    (loop.register dueMs intervalMs cb).2.find id = loop.find id := by
  have hnew : ¬ loop.nextTimer = id := fun hequal => hne hequal.symm
  simp [register, find, List.find?_append, hnew]

theorem WellFormed.find_register (hloop : loop.WellFormed) (dueMs intervalMs : UInt32) (cb : β) :
    (loop.register dueMs intervalMs cb).2.find loop.nextTimer =
      some { id := loop.nextTimer, dueMs, intervalMs, cb } := by
  rw [(hloop.register dueMs intervalMs cb).find_iff]
  exact ⟨List.mem_append_right _ (List.mem_singleton_self _), rfl⟩

theorem WellFormed.find_modify (hloop : loop.WellFormed) {f : TimerEntry β → TimerEntry β}
    (hid : ∀ t, (f t).id = t.id) {t : TimerEntry β} :
    (loop.modify id f).find id = some t ↔ ∃ old, loop.find id = some old ∧ t = f old := by
  rw [(hloop.modify id f hid).find_iff]
  constructor
  · rintro ⟨hmem, hkey⟩
    rcases mem_modify hmem with ⟨-, hne⟩ | ⟨old, hold, holdId, rfl⟩
    · exact absurd hkey hne
    · exact ⟨old, hloop.find_iff.mpr ⟨hold, holdId⟩, rfl⟩
  · rintro ⟨old, hfind, rfl⟩
    obtain ⟨hmem, hkey⟩ := hloop.find_iff.mp hfind
    refine ⟨List.mem_map.mpr ⟨old, hmem, by rw [if_pos hkey]⟩, ?_⟩
    rw [hid, hkey]

/-- Cancelling touches the entry of its own id only. -/
theorem find_cancelTimer_of_ne {other : Nat} (hne : id ≠ other) :
    (loop.cancelTimer other).find id = loop.find id := by
  rw [cancelTimer]
  split
  · rfl
  · exact find_modify_of_ne (fun _ => rfl) hne

theorem WellFormed.dead_of_cancelTimer (hloop : loop.WellFormed) {t : TimerEntry β}
    (hfind : (loop.cancelTimer id).find id = some t) : t.dead = true := by
  rw [cancelTimer] at hfind
  split at hfind
  · next hnone =>
      rw [hnone] at hfind
      exact absurd hfind (by simp)
  · obtain ⟨old, -, rfl⟩ :=
      (hloop.find_modify (f := fun t => { t with dead := true }) fun _ => rfl).mp hfind
    rfl

/-- Reaping erases exactly the tombstones. -/
theorem WellFormed.find_reap (hloop : loop.WellFormed) {t : TimerEntry β}
    (hlive : t.dead = false) : loop.reap.find id = some t ↔ loop.find id = some t := by
  have hreaped := hloop.step .reap
  rw [show (loop.reap.find id = some t) = ((loop.step .reap).find id = some t) from rfl,
    hreaped.find_iff, hloop.find_iff]
  show t ∈ loop.reap.timers ∧ _ ↔ _
  rw [reap]
  split
  · exact Iff.rfl
  · simp [hlive]

/-- What a turn of a pass leaves alone. -/
theorem fireNext_frame (loop : EventLoop β) :
    loop.fireNext.nextTimer = loop.nextTimer ∧ loop.fireNext.time = loop.time ∧
    loop.fireNext.timers.map (·.id) = loop.timers.map (·.id) ∧
    (∀ after, loop.fireNext.pass = some after → ∃ before, loop.pass = some before ∧
      after.now = before.now) ∧
    ∀ firing ∈ loop.fireNext.fired, firing ∈ loop.fired ∨ ∃ t ∈ loop.timers, t.id = firing.id := by
  rcases loop.fireNext_cases with
    ⟨-, hsame⟩ | ⟨now, hpass, hclosed⟩ | ⟨now, id, due, hpass, hturn⟩
  · rw [hsame]
    exact ⟨rfl, rfl, rfl, fun after hafter => ⟨after, hafter, rfl⟩, fun _ => .inl⟩
  · rw [hclosed]
    exact ⟨rfl, rfl, rfl, by simp, fun _ => .inl⟩
  · rw [hpass]
    rcases hturn with ⟨hskipped, -⟩ | ⟨t, f, hfind, -, hf, hran⟩
    · rw [hskipped]
      refine ⟨rfl, rfl, rfl, ?_, fun _ => .inl⟩
      rintro after ⟨⟩
      exact ⟨_, rfl, rfl⟩
    · rw [hran]
      refine ⟨rfl, rfl, ?_, ?_, ?_⟩
      · refine ids_modify id f fun t => ?_
        rw [hf]
        split <;> rfl
      · rintro after ⟨⟩
        exact ⟨_, rfl, rfl⟩
      · intro firing hfiring
        rcases List.mem_cons.mp hfiring with rfl | hold
        · have hkey := List.find?_some hfind
          exact .inr ⟨t, List.mem_of_find?_eq_some hfind, by simpa using hkey⟩
        · exact .inl hold

theorem fired_cancelTimer (loop : EventLoop β) (other : Nat) :
    (loop.cancelTimer other).fired = loop.fired := by
  rw [cancelTimer]
  split <;> rfl

theorem time_cancelTimer (loop : EventLoop β) (other : Nat) :
    (loop.cancelTimer other).time = loop.time := by
  rw [cancelTimer]
  split <;> rfl

theorem pass_cancelTimer (loop : EventLoop β) (other : Nat) :
    (loop.cancelTimer other).pass = loop.pass := by
  rw [cancelTimer]
  split <;> rfl

theorem nextTimer_cancelTimer (loop : EventLoop β) (other : Nat) :
    (loop.cancelTimer other).nextTimer = loop.nextTimer := by
  rw [cancelTimer]
  split <;> rfl

end EventLoop

/-! ## The handles -/

/-- A timer that was armed at `armed`. As in its entry, an interval of 0 is a
one-shot; a repeating timer's delay is its interval. -/
structure Arming where
  id : Nat
  armed : Nat
  delayMs : UInt32
  intervalMs : UInt32
  deriving DecidableEq

/-- The true time an armed timer is due next: its delay after it last fired, or
else after it was armed. -/
def Arming.dueAt {β : Type u} (a : Arming) (loop : EventLoop β) : Nat :=
  EventLoop.lastInstant a.armed ((loop.firingsOf a.id).map (·.now)) + a.delayMs.toNat

/-- The loop with the handles registered on it: which id each of them holds, if
it holds one. `armings` and `released` record what happened, and `opened` is when
the last pass opened, or else when the loop was made. -/
structure Timers (H : Type v) (β : Type u) where
  loop : EventLoop β
  handles : H → Option Nat
  armings : List Arming
  released : List Nat
  opened : Nat

namespace Timers

variable {H : Type v} {β : Type u} [DecidableEq H]

/-- A new loop; every handle is inert. -/
def start (time : Nat) : Timers H β where
  loop := { time := time }
  handles := fun _ => none
  armings := []
  released := []
  opened := time

/-- `Registration::reset`, which the destructor calls too. -/
def reset (timers : Timers H β) (handle : H) : Timers H β :=
  match timers.handles handle with
  | none => timers
  | some id =>
      { timers with
        loop := timers.loop.cancelTimer id
        handles := Function.update timers.handles handle none
        released := id :: timers.released }

/-- Assign a registration that was just handed out over a handle. -/
def assign (timers : Timers H β) (handle : H) (id : Nat) : Timers H β :=
  let timers := timers.reset handle
  { timers with handles := Function.update timers.handles handle (some id) }

/-- `handle = loop.add_timer(..)`. -/
def addTimer (timers : Timers H β) (handle : H) (delayMs : UInt32) (cb : β) : Timers H β :=
  let (id, loop) := timers.loop.addTimer delayMs cb
  let arming : Arming := { id, armed := timers.loop.time, delayMs, intervalMs := 0 }
  assign { timers with loop, armings := arming :: timers.armings } handle id

/-- The interval a repeating timer runs at. -/
def repeatInterval (intervalMs : UInt32) : UInt32 := if intervalMs = 0 then 1 else intervalMs

/-- `handle = loop.add_repeating(..)`. -/
def addRepeating (timers : Timers H β) (handle : H) (intervalMs : UInt32) (cb : β) :
    Timers H β :=
  let (id, loop) := timers.loop.addRepeating intervalMs cb
  let every := repeatInterval intervalMs
  let arming : Arming := { id, armed := timers.loop.time, delayMs := every, intervalMs := every }
  assign { timers with loop, armings := arming :: timers.armings } handle id

/-- Move one registration over another; a moved-from handle is inert. -/
def move (timers : Timers H β) (source target : H) : Timers H β :=
  if source = target then timers
  else
    let timers := timers.reset target
    { timers with
      handles :=
        Function.update (Function.update timers.handles target (timers.handles source))
          source none }

/-- What the daemon does with its timers, in callbacks or outside of them.
Destroying a handle is resetting it. -/
inductive Event (H : Type v) (β : Type u) where
  | tick (ms : Nat)
  | addTimer (handle : H) (delayMs : UInt32) (cb : β)
  | addRepeating (handle : H) (intervalMs : UInt32) (cb : β)
  | reset (handle : H)
  | move (source target : H)
  | beginPass
  | fireNext
  | reap

def step (timers : Timers H β) : Event H β → Timers H β
  | .tick ms => { timers with loop := timers.loop.step (.tick ms) }
  | .addTimer handle delayMs cb => timers.addTimer handle delayMs cb
  | .addRepeating handle intervalMs cb => timers.addRepeating handle intervalMs cb
  | .reset handle => timers.reset handle
  | .move source target => timers.move source target
  | .beginPass =>
      { timers with
        loop := timers.loop.beginPass
        opened := if timers.loop.pass.isSome then timers.opened else timers.loop.time }
  | .fireNext => { timers with loop := timers.loop.fireNext }
  | .reap => { timers with loop := timers.loop.reap }

/-- No delay is over `largest`, and from one pass to the next it is at most 2^31
milliseconds less that. -/
def Dispatched (largest : Nat) (timers : Timers H β) : Event H β → Prop
  | .addTimer _ delayMs _ => delayMs.toNat ≤ largest
  | .addRepeating _ intervalMs _ => (repeatInterval intervalMs).toNat ≤ largest
  | .beginPass => timers.loop.pass = none → timers.loop.time + largest ≤ timers.opened + 2 ^ 31
  | _ => True

/-- An armed timer is still to run: its registration is held, and a one-shot has
not run yet. -/
def Pending (timers : Timers H β) (a : Arming) : Prop :=
  a.id ∉ timers.released ∧ (a.intervalMs = 0 → timers.loop.firingsOf a.id = [])

/-- No firing of a timer is early: each is at least the delay after the one before
it, the first after the arming, and its callback is entered no sooner. A one-shot
fires at most once. -/
structure Obeyed (loop : EventLoop β) (a : Arming) : Prop where
  spaced : EventLoop.Spaced a.delayMs.toNat a.armed ((loop.firingsOf a.id).map (·.now))
  entered : ∀ firing ∈ loop.firingsOf a.id, firing.now ≤ firing.ran
  once : a.intervalMs = 0 → (loop.firingsOf a.id).length ≤ 1

/-- The pass opened at `opening` is under way and the turn of `id` is to come. -/
def Awaited (loop : EventLoop β) (opening id : Nat) : Prop :=
  ∃ due, loop.pass = some { now := opening, due } ∧ id ∈ due

/-- What became of a timer that a pass opened at `opening` found due: its turn is
still to come, it has run in that pass, or its registration was let go. -/
def Answered (timers : Timers H β) (opening : Nat) (a : Arming) : Prop :=
  (Awaited timers.loop opening a.id ∧ timers.Pending a) ∨
  (∃ firing ∈ timers.loop.firingsOf a.id, firing.now = opening) ∨
  a.id ∈ timers.released

end Timers

end Coreletd.Daemon
