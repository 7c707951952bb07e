/-
# The node's timers

`Node::start` arms the repeating advert and the sweep of delivered messages. The
interval of the first comes from the configuration in seconds and is multiplied
out in 32 bits; its due time is kept modulo 2^32 and compared through a signed
difference, which tells the future from the past only over half that range.
-/

import Coreletd.Daemon.Config
import Coreletd.Daemon.EventLoop

namespace Coreletd.Mesh

open Coreletd.Daemon
open Coreletd.Daemon.EventLoop
open Coreletd.Library
open Coreletd.Library.SerialClock

universe u

variable {β : Type u}

def kDeliveredTtlMs : UInt32 := 300000

/-- The timers of `Node::start`, and the id of the advert's. -/
def Node.start (loop : EventLoop β) (advertIntervalS : UInt32) (sendAdvert expireDelivered : β) :
    Option Nat × EventLoop β :=
  if 0 < advertIntervalS then
    let advertTimer := loop.addRepeating (advertIntervalS * 1000) sendAdvert
    (some advertTimer.1, (advertTimer.2.addRepeating kDeliveredTtlMs expireDelivered).2)
  else (none, (loop.addRepeating kDeliveredTtlMs expireDelivered).2)

/-- No firing of the advert timer armed on `loop` comes early in a run: each is
at least the configured interval after the one before it, or after the arming.
A firing's instant is the clock of its pass; where callbacks take no time it is
also the moment the callback is entered. -/
def AdvertOnTime (loop : EventLoop β) (advertIntervalS : UInt32) (sendAdvert expireDelivered : β)
    (events : List (Event β)) : Prop :=
  let started := Node.start loop advertIntervalS sendAdvert expireDelivered
  let after := run step started.2 events
  ∀ id, started.1 = some id →
    Spaced (advertIntervalS.toNat * 1000) loop.time ((after.firingsOf id).map (·.now)) ∧
    (loop.Prompt → Along step Still started.2 events →
      Spaced (advertIntervalS.toNat * 1000) loop.time ((after.firingsOf id).map (·.ran)))

/-- An accepted interval does not overflow its milliseconds. -/
theorem toNat_mul_thousand {seconds : UInt32} (haccepted : seconds.toNat ≤ 4294967) :
    (seconds * 1000).toNat = seconds.toNat * 1000 := by
  rw [UInt32.toNat_mul]
  exact Nat.mod_eq_of_lt (by show seconds.toNat * 1000 < _; omega)

theorem mul_thousand_pos {seconds : UInt32} (haccepted : seconds.toNat ≤ 4294967)
    (hpos : 0 < seconds) : 0 < seconds * 1000 := by
  rw [UInt32.lt_iff_toNat_lt] at hpos ⊢
  rw [toNat_mul_thousand haccepted]
  have hzero : (0 : UInt32).toNat = 0 := rfl
  omega

theorem le_of_mem_spaced {interval armed instant : Nat} {instants : List Nat}
    (hspaced : Spaced interval armed instants) (hmem : instant ∈ instants) :
    armed + interval ≤ instant := by
  induction instants generalizing instant with
  | nil => simp at hmem
  | cons newest earlier ih =>
      have hlast : armed ≤ lastInstant armed earlier := by
        cases earlier with
        | nil => exact Nat.le_refl _
        | cons previous rest =>
            exact Nat.le_of_add_right_le (ih hspaced.2 List.mem_cons_self)
      rcases List.mem_cons.mp hmem with rfl | hold
      · exact Nat.le_trans (Nat.add_le_add_right hlast _) hspaced.1
      · exact ih hspaced.2 hold

theorem prompt_addRepeating {loop : EventLoop β} (hprompt : loop.Prompt) (intervalMs : UInt32)
    (cb : β) : (loop.addRepeating intervalMs cb).2.Prompt :=
  ⟨hprompt.present, hprompt.entered⟩

/-- Short enough intervals are kept in every run. -/
theorem advertOnTime_of_short {loop : EventLoop β} (hloop : loop.WellFormed) {seconds : UInt32}
    (hshort : seconds.toNat ≤ 2147483) (sendAdvert expireDelivered : β)
    (events : List (Event β)) :
    AdvertOnTime loop seconds sendAdvert expireDelivered events := by
  by_cases hpos : 0 < seconds
  · have haccepted : seconds.toNat ≤ 4294967 := by omega
    have hmillis := toNat_mul_thousand haccepted
    have hrepeats := mul_thousand_pos haccepted hpos
    have hhalf : (seconds * 1000).toNat < 2 ^ 31 := by omega
    rw [AdvertOnTime, Node.start, if_pos hpos]
    rintro id ⟨⟩
    have hstart := (Paced.addRepeating hloop hrepeats sendAdvert).step hrepeats hhalf
      (.addRepeating kDeliveredTtlMs expireDelivered)
    have hstep : ∀ (loop' : EventLoop β) (event : Event β),
        Paced loop.nextTimer (seconds * 1000) loop.time loop' →
        Paced loop.nextTimer (seconds * 1000) loop.time (loop'.step event) :=
      fun loop' event hpaced => hpaced.step hrepeats hhalf event
    have hafter := run_invariant hstep hstart events
    have hspaced := hafter.spaced
    rw [hmillis] at hspaced
    refine ⟨hspaced, fun hprompt hstill => ?_⟩
    have hpromptStart := prompt_addRepeating
      (prompt_addRepeating hprompt (seconds * 1000) sendAdvert) kDeliveredTtlMs expireDelivered
    have hpromptStep : ∀ (loop' : EventLoop β) (event : Event β),
        loop'.Prompt → loop'.Still event → (loop'.step event).Prompt :=
      fun loop' event hp hs => hp.step hs
    have hpromptAfter := Along.invariant hpromptStep hpromptStart hstill
    exact (congrArg (Spaced _ _) (hpromptAfter.firings loop.nextTimer)).mpr hspaced
  · rw [AdvertOnTime, Node.start, if_neg hpos]
    rintro id ⟨⟩

/-- The signed comparison takes a due time at least half the clock's range ahead
for one that has passed. -/
theorem isDue_at_once {seconds : UInt32} (haccepted : seconds.toNat ≤ 4294967)
    (hlong : 2147483 < seconds.toNat) (time id : Nat) (cb : β) :
    isDue (reading time)
      { id, dueMs := reading time + seconds * 1000, intervalMs := seconds * 1000, cb } = true := by
  rw [isDue]
  simp only [Bool.not_false, Bool.true_and, decide_eq_true_eq]
  rw [reading_add_word, signed_sub_eq_ite, toNat_mul_thousand haccepted]
  have hahead : ((time + seconds.toNat * 1000 : Nat) : Int) - time = seconds.toNat * 1000 := by
    omega
  have hresidue : (seconds.toNat * 1000 : Int) % 4294967296 = seconds.toNat * 1000 :=
    Int.emod_eq_of_lt (by omega) (by omega)
  rw [hahead, hresidue, if_neg (by omega)]
  omega

/-- A longer interval is due in the very pass that follows. -/
theorem not_advertOnTime_of_long {loop : EventLoop β} (hloop : loop.WellFormed)
    (hidle : loop.pass = none) {seconds : UInt32} (haccepted : seconds.toNat ≤ 4294967)
    (hlong : 2147483 < seconds.toNat) (sendAdvert expireDelivered : β) :
    ∃ events, ¬ AdvertOnTime loop seconds sendAdvert expireDelivered events := by
  have hpos : 0 < seconds := by
    rw [UInt32.lt_iff_toNat_lt]
    exact Nat.lt_of_le_of_lt (Nat.zero_le _) hlong
  have hnonzero : seconds * 1000 ≠ 0 := by
    intro hzero
    have hrepeats := mul_thousand_pos haccepted hpos
    rw [hzero] at hrepeats
    exact absurd hrepeats (by decide)
  obtain ⟨advert, hadvert⟩ : ∃ advert : TimerEntry β, advert =
      { id := loop.nextTimer, dueMs := loop.nowMs + seconds * 1000
        intervalMs := seconds * 1000, cb := sendAdvert } := ⟨_, rfl⟩
  obtain ⟨sweep, hsweep⟩ : ∃ sweep : TimerEntry β, sweep =
      { id := loop.nextTimer + 1, dueMs := loop.nowMs + kDeliveredTtlMs
        intervalMs := kDeliveredTtlMs, cb := expireDelivered } := ⟨_, rfl⟩
  obtain ⟨started, hstarted⟩ : ∃ started : EventLoop β, started =
      { loop with timers := loop.timers ++ (advert :: [sweep])
                  nextTimer := loop.nextTimer + 1 + 1 } := ⟨_, rfl⟩
  have hstart : Node.start loop seconds sendAdvert expireDelivered =
      (some loop.nextTimer, started) := by
    rw [Node.start, if_pos hpos, hstarted, hadvert, hsweep]
    simp only [addRepeating, if_neg hnonzero, show kDeliveredTtlMs ≠ 0 by decide, if_false,
      register, List.append_assoc, List.cons_append, List.nil_append]
    rfl
  have hother : ∀ t ∈ loop.timers, t.id ≠ loop.nextTimer :=
    fun t ht => Nat.ne_of_lt (hloop.below t ht)
  have hdue : isDue loop.nowMs advert = true := by
    rw [hadvert]
    exact isDue_at_once haccepted hlong _ _ _
  have hid : advert.id = loop.nextTimer := by rw [hadvert]
  have hidleStarted : started.pass = none := by rw [hstarted]; exact hidle
  -- The timers that were due before stand in front of the advert in the pass.
  have hpass : (step started .beginPass).pass = some
      { now := loop.time
        due := (loop.timers.filter (isDue loop.nowMs)).map (·.id) ++
          loop.nextTimer :: ([sweep].filter (isDue loop.nowMs)).map (·.id) } := by
    simp only [step, beginPass, hidleStarted]
    rw [hstarted]
    rw [nowMs] at hdue
    simp only [nowMs, List.filter_append, List.map_append, List.filter_cons_of_pos hdue,
      List.map_cons, hid]
  have hfind : (step started .beginPass).find loop.nextTimer = some advert := by
    have hnone : loop.timers.find? (·.id = loop.nextTimer) = none :=
      List.find?_eq_none.mpr (by simpa using hother)
    simp only [step, beginPass, hidleStarted, find]
    rw [hstarted, List.find?_append, hnone, Option.none_or, List.find?_cons_of_pos (by simp [hid])]
  have hnotBefore : loop.nextTimer ∉ (loop.timers.filter (isDue loop.nowMs)).map (·.id) := by
    intro hmem
    obtain ⟨t, ht, hequal⟩ := List.mem_map.mp hmem
    exact hother t (List.mem_filter.mp ht).1 hequal
  obtain ⟨ran, hran⟩ := fireNext_runs hpass hnotBefore hfind (by rw [hadvert])
  refine ⟨.beginPass :: List.replicate
    (((loop.timers.filter (isDue loop.nowMs)).map (·.id)).length + 1) .fireNext,
    fun hontime => ?_⟩
  rw [AdvertOnTime, hstart] at hontime
  have hearly := le_of_mem_spaced (hontime loop.nextTimer rfl).1
    (List.mem_map_of_mem (List.mem_filter.mpr ⟨hran, by simp⟩))
  change loop.time + _ ≤ loop.time at hearly
  omega

/-- **An accepted advert interval is honoured exactly up to 2147483 seconds.**
From every idle loop the daemon can reach, at every clock, all runs keep the
interval if and only if its milliseconds stay below half the clock's range. -/
theorem advert_never_early_iff (time : Nat) (before : List (Event β))
    (hidle : (run step ({ time := time } : EventLoop β) before).pass = none)
    {current seconds : UInt32} {ini : IniInt}
    (hload : loadAdvertInterval current ini = .ok seconds) (sendAdvert expireDelivered : β) :
    (∀ events, AdvertOnTime (run step { time := time } before) seconds sendAdvert expireDelivered
      events) ↔ seconds.toNat ≤ 2147483 := by
  have hloop := wellFormed_run time before
  have haccepted := loadAdvertInterval_ok hload
  constructor
  · intro hontime
    by_contra hlong
    obtain ⟨events, hearly⟩ := not_advertOnTime_of_long hloop hidle haccepted
      (Nat.lt_of_not_le hlong) sendAdvert expireDelivered
    exact hearly (hontime events)
  · intro hshort events
    exact advertOnTime_of_short hloop hshort sendAdvert expireDelivered events

/-- An advert every three hours is accepted and, armed just before the clock
wraps, always on time. -/
theorem advert_on_time_three_hours :
    loadAdvertInterval 0 (.value 10800) = .ok 10800 ∧
      ∀ events, AdvertOnTime (run step ({ time := 4294967295 } : EventLoop Unit) []) 10800 () ()
        events := by
  have hload : loadAdvertInterval 0 (.value 10800) = .ok 10800 := by decide
  exact ⟨hload, (advert_never_early_iff 4294967295 [] rfl hload () ()).mpr (by decide)⟩

/-- The largest interval the configuration accepts fires at once. -/
theorem advert_early_at_the_accepted_maximum :
    loadAdvertInterval 0 (.value 4294967) = .ok 4294967 ∧
      ¬ ∀ events, AdvertOnTime (run step ({ time := 0 } : EventLoop Unit) []) 4294967 () ()
        events := by
  refine ⟨by decide, fun hontime => ?_⟩
  obtain ⟨events, hearly⟩ := not_advertOnTime_of_long (wellFormed_run 0 []) rfl
    (show (4294967 : UInt32).toNat ≤ 4294967 by decide) (by decide) () ()
  exact hearly (hontime events)

end Coreletd.Mesh
