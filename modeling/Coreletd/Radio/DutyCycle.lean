/-
# The duty-cycle account

Transmitted airtime over a sliding window of one hour. An entry carries the true
time it was recorded at, of which the code keeps the 32-bit reading. The budget
is a percentage taken as an exact rational.
-/

import Coreletd.Library.SerialClock
import Mathlib.Algebra.Order.Field.Rat
import Mathlib.Data.List.Basic
import Mathlib.Tactic.Linarith

namespace Coreletd.Radio

open Coreletd.Library
open Coreletd.Library.SerialClock

/-- One transmission on the account. -/
structure DutyEntry where
  recordedAt : Nat
  airtimeMs : UInt32

/-- `at_ms`, the clock as it was read. -/
def DutyEntry.atMs (e : DutyEntry) : UInt32 := reading e.recordedAt

structure DutyCycle where
  percent : ℚ
  entries : List DutyEntry := []

namespace DutyCycle

def kWindowMs : UInt32 := 3600000

/-- The airtime of a list of entries. -/
def airtime (entries : List DutyEntry) : Nat := (entries.map (·.airtimeMs.toNat)).sum

/-- Airtime allowed across the whole window. -/
def budget (duty : DutyCycle) : ℚ := 3600000 * duty.percent / 100

/-- Forget what the clock shows to be older than the window. -/
def prune (now : Nat) (duty : DutyCycle) : DutyCycle :=
  { duty with
    entries := duty.entries.filter fun e => !decide (3600000 < signed (reading now - e.atMs)) }

def record (now : Nat) (airtimeMs : UInt32) (duty : DutyCycle) : DutyCycle :=
  let duty := duty.prune now
  { duty with entries := duty.entries ++ [{ recordedAt := now, airtimeMs }] }

/-- The walk over the oldest entries: the first at which enough is released says
how long it has still to age. The subtraction is the machine's, modulo 2^32. -/
def waitFor (now : Nat) (excess : ℚ) : Nat → List DutyEntry → UInt32
  | _, [] => kWindowMs
  | released, e :: rest =>
      let released := released + e.airtimeMs.toNat
      if (released : ℚ) < excess then waitFor now excess released rest
      else
        let remaining := kWindowMs - (reading now - e.atMs)
        if 0 < signed remaining then remaining else 0

/-- How long to hold a packet of the given airtime, and the account once it has
been pruned for the answer. -/
def waitMs (now : Nat) (candidate : UInt32) (duty : DutyCycle) : UInt32 × DutyCycle :=
  if duty.percent ≤ 0 ∨ 100 ≤ duty.percent then (0, duty)
  else
    let duty := duty.prune now
    let total := airtime duty.entries
    if ((total + candidate.toNat : Nat) : ℚ) ≤ duty.budget then (0, duty)
    else if duty.budget < (candidate.toNat : ℚ) then (kWindowMs, duty)
    else
      (waitFor now (((total + candidate.toNat : Nat) : ℚ) - duty.budget) 0 duty.entries, duty)

/-! ## The true window -/

/-- Recorded less than an hour ago. -/
def InWindow (now : Nat) (e : DutyEntry) : Prop := now < e.recordedAt + 3600000

instance (now : Nat) : DecidablePred (InWindow now) := fun e =>
  inferInstanceAs (Decidable (now < e.recordedAt + 3600000))

/-- The airtime recorded during the preceding hour. -/
def windowAirtime (now : Nat) (entries : List DutyEntry) : Nat :=
  airtime (entries.filter (InWindow now ·))

/-- The account's entries, oldest first and none from the future. -/
structure Chronological (now : Nat) (entries : List DutyEntry) : Prop where
  ordered : entries.Pairwise fun older newer => older.recordedAt ≤ newer.recordedAt
  past : ∀ e ∈ entries, e.recordedAt ≤ now

variable {now : Nat} {entries : List DutyEntry}

@[simp]
theorem airtime_nil : airtime [] = 0 := rfl

@[simp]
theorem airtime_cons (e : DutyEntry) (rest : List DutyEntry) :
    airtime (e :: rest) = e.airtimeMs.toNat + airtime rest := by
  simp [airtime]

@[simp]
theorem airtime_append (first second : List DutyEntry) :
    airtime (first ++ second) = airtime first + airtime second := by
  simp [airtime]

theorem airtime_le_of_sublist {first second : List DutyEntry} (hsub : first.Sublist second) :
    airtime first ≤ airtime second := by
  induction hsub with
  | slnil => exact Nat.le_refl _
  | cons e _ ih =>
      rw [airtime_cons]
      omega
  | cons_cons e _ ih =>
      rw [airtime_cons, airtime_cons]
      omega

theorem Chronological.later (hentries : Chronological now entries) {later : Nat}
    (hle : now ≤ later) : Chronological later entries :=
  ⟨hentries.ordered, fun e he => Nat.le_trans (hentries.past e he) hle⟩

theorem Chronological.sublist (hentries : Chronological now entries) {kept : List DutyEntry}
    (hsub : kept.Sublist entries) : Chronological now kept :=
  ⟨hentries.ordered.sublist hsub, fun e he => hentries.past e (hsub.subset he)⟩

/-- Nothing recorded within the hour is pruned. -/
theorem filter_inWindow_prune (duty : DutyCycle)
    (hpast : ∀ e ∈ duty.entries, e.recordedAt ≤ now) :
    ((duty.prune now).entries.filter (InWindow now ·)) =
      duty.entries.filter (InWindow now ·) := by
  rw [prune, List.filter_filter]
  apply List.filter_congr
  intro e he
  by_cases hin : InWindow now e
  · have hbefore := hpast e he
    rw [InWindow] at hin
    have hage : signed (reading now - e.atMs) = (now : Int) - e.recordedAt :=
      signed_sub_of_near (by omega) (by omega)
    simp only [hage, InWindow, hin, decide_true, Bool.true_and, Bool.not_eq_true',
      decide_eq_false_iff_not]
    omega
  · simp [hin]

/-- As time passes the hour's airtime only shrinks. -/
theorem windowAirtime_antitone {later : Nat} (hle : now ≤ later) (entries : List DutyEntry) :
    windowAirtime later entries ≤ windowAirtime now entries := by
  apply airtime_le_of_sublist
  apply List.monotone_filter_right
  intro e hin
  have hnear : later < e.recordedAt + 3600000 := of_decide_eq_true hin
  exact decide_eq_true (show now < e.recordedAt + 3600000 by omega)

/-- A `remaining` that is not positive says that the entry has left the hour. -/
theorem not_inWindow_of_remaining {e : DutyEntry} (hpast : e.recordedAt ≤ now)
    (hremaining : ¬ 0 < signed (kWindowMs - (reading now - e.atMs))) : ¬ InWindow now e := by
  intro hin
  rw [InWindow] at hin
  apply hremaining
  have hword : kWindowMs - (reading now - e.atMs) =
      reading (e.recordedAt + 3600000) - reading now := by
    rw [reading_add, DutyEntry.atMs, kWindowMs]
    have hliteral : UInt32.ofNat 3600000 = 3600000 := rfl
    rw [hliteral]
    grind
  rw [hword]
  exact signed_sub_pos_of_ahead hin (by omega)

/-- When the walk ends in 0, enough is released by entries that have all left
the hour. -/
theorem waitFor_zero {excess : ℚ} {released : Nat} (hentries : Chronological now entries)
    (hzero : waitFor now excess released entries = 0) :
    ∃ gone left, entries = gone ++ left ∧ gone ≠ [] ∧
      excess ≤ ((released + airtime gone : Nat) : ℚ) ∧ ∀ e ∈ gone, ¬ InWindow now e := by
  induction entries generalizing released with
  | nil => exact absurd hzero (by rw [waitFor]; decide)
  | cons e rest ih =>
      rw [waitFor] at hzero
      split at hzero
      · obtain ⟨gone, left, hsplit, hsome, hexcess, hgone⟩ :=
          ih (hentries.sublist (List.sublist_cons_self _ _)) hzero
        refine ⟨e :: gone, left, by rw [hsplit, List.cons_append], by simp, ?_, ?_⟩
        · rw [airtime_cons, ← Nat.add_assoc]
          exact hexcess
        · -- The entry is older than the one the walk stopped at.
          obtain ⟨stop, hstop⟩ := List.exists_mem_of_ne_nil gone hsome
          have holder : e.recordedAt ≤ stop.recordedAt :=
            (List.pairwise_cons.mp hentries.ordered).1 stop
              (by rw [hsplit]; exact List.mem_append_left _ hstop)
          intro other hother
          rcases List.mem_cons.mp hother with rfl | hmem
          · have hstopped := hgone stop hstop
            rw [InWindow] at hstopped ⊢
            omega
          · exact hgone other hmem
      · rename_i henough
        refine ⟨[e], rest, rfl, by simp, ?_, ?_⟩
        · rw [airtime_cons, airtime_nil, Nat.add_zero]
          exact not_lt.mp henough
        · intro other hother
          obtain rfl := List.mem_singleton.mp hother
          refine not_inWindow_of_remaining (hentries.past _ List.mem_cons_self) fun hpos => ?_
          rw [if_pos hpos] at hzero
          rw [hzero] at hpos
          exact absurd hpos (by decide)

theorem windowAirtime_append_of_gone {gone left : List DutyEntry}
    (hgone : ∀ e ∈ gone, ¬ InWindow now e) :
    windowAirtime now (gone ++ left) ≤ airtime left := by
  have hnone : gone.filter (InWindow now ·) = [] :=
    List.filter_eq_nil_iff.mpr fun e he => by simpa using hgone e he
  rw [windowAirtime, List.filter_append, hnone, List.nil_append]
  exact airtime_le_of_sublist List.filter_sublist

/-- **A packet is let through only when it fits.** -/
theorem fits_of_waitMs_zero {duty : DutyCycle} {candidate : UInt32}
    (hentries : Chronological now duty.entries) (hlow : 0 < duty.percent)
    (hhigh : duty.percent < 100) (hzero : (duty.waitMs now candidate).1 = 0) :
    ((windowAirtime now duty.entries + candidate.toNat : Nat) : ℚ) ≤ duty.budget := by
  have hpercent : ¬ (duty.percent ≤ 0 ∨ 100 ≤ duty.percent) := by
    rintro (hle | hle)
    · exact absurd hlow (not_lt.mpr hle)
    · exact absurd hhigh (not_lt.mpr hle)
  have hbudget : (duty.prune now).budget = duty.budget := rfl
  have hpruned : windowAirtime now duty.entries = windowAirtime now (duty.prune now).entries := by
    rw [windowAirtime, windowAirtime, filter_inWindow_prune duty hentries.past]
  have hkept : Chronological now (duty.prune now).entries :=
    hentries.sublist List.filter_sublist
  rw [waitMs, if_neg hpercent] at hzero
  rw [hpruned, ← hbudget]
  generalize duty.prune now = duty at hzero hkept ⊢
  dsimp only at hzero
  split at hzero
  · rename_i hfits
    have hle : windowAirtime now duty.entries ≤ airtime duty.entries :=
      airtime_le_of_sublist List.filter_sublist
    have hcast : ((windowAirtime now duty.entries + candidate.toNat : Nat) : ℚ) ≤
        ((airtime duty.entries + candidate.toNat : Nat) : ℚ) := by
      exact_mod_cast Nat.add_le_add_right hle _
    exact hcast.trans hfits
  · split at hzero
    · exact absurd (show kWindowMs = 0 from hzero) (by decide)
    · obtain ⟨gone, left, hsplit, -, hexcess, hgone⟩ := waitFor_zero hkept hzero
      have hwindow : windowAirtime now duty.entries ≤ airtime left := by
        rw [hsplit]
        exact windowAirtime_append_of_gone hgone
      have htotal : airtime duty.entries = airtime gone + airtime left := by
        rw [hsplit, airtime_append]
      rw [htotal] at hexcess
      push_cast at hexcess ⊢
      have hcast : (windowAirtime now duty.entries : ℚ) ≤ airtime left := by
        exact_mod_cast hwindow
      linarith

end DutyCycle

end Coreletd.Radio
