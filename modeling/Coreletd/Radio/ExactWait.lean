/-
# When the duty-cycle wait is exact

The wait the account answers with, against the least wait in true time over
everything ever recorded. The two differ only when an entry has been kept past
half the clock's range, whose age then reads as less than an hour: what decides
is whether the airtime recorded after such an entry fits the budget.
-/

import Coreletd.Library.Runs
import Coreletd.Radio.DutyCycle
import Mathlib.Algebra.Order.Floor.Semiring
import Mathlib.Data.Rat.Floor
import Mathlib.Order.Bounds.Basic

namespace Coreletd.Radio

open Coreletd.Library
open Coreletd.Library.SerialClock

namespace DutyCycle

/-- The share of the window in use, and the account once it has been pruned for
the answer. -/
def usedPct (now : Nat) (duty : DutyCycle) : ℚ × DutyCycle :=
  let duty := duty.prune now
  (100 * (airtime duty.entries : ℚ) / 3600000, duty)

/-! ## Where the walk ends -/

/-- The entry at which the walk over the oldest entries ends. -/
def stopEntry (excess : ℚ) : Nat → List DutyEntry → Option DutyEntry
  | _, [] => none
  | released, e :: rest =>
      if ((released + e.airtimeMs.toNat : Nat) : ℚ) < excess then
        stopEntry excess (released + e.airtimeMs.toNat) rest
      else some e

/-- How long the clock says an entry has still to age. -/
def agesOutIn (now : Nat) (e : DutyEntry) : UInt32 :=
  let remaining := kWindowMs - (reading now - e.atMs)
  if 0 < signed remaining then remaining else 0

/-- The entry whose age `waitMs` answers by, on the calls that get to the walk. -/
def answeringEntry (now : Nat) (candidate : UInt32) (duty : DutyCycle) : Option DutyEntry :=
  if ((airtime (duty.prune now).entries + candidate.toNat : Nat) : ℚ) ≤ duty.budget then none
  else if duty.budget < (candidate.toNat : ℚ) then none
  else
    stopEntry (((airtime (duty.prune now).entries + candidate.toNat : Nat) : ℚ) - duty.budget) 0
      (duty.prune now).entries

/-- A value a signed 32-bit integer can hold. -/
def Fits32 (value : Int) : Prop := -2147483648 ≤ value ∧ value < 2147483648

instance (value : Int) : Decidable (Fits32 value) :=
  inferInstanceAs (Decidable (_ ∧ _))

variable {now : Nat} {entries pre post : List DutyEntry} {e : DutyEntry} {excess : ℚ}
  {released : Nat} {duty : DutyCycle} {candidate : UInt32}

theorem waitFor_eq_stopEntry (now : Nat) (excess : ℚ) (released : Nat)
    (entries : List DutyEntry) :
    waitFor now excess released entries =
      (stopEntry excess released entries).elim kWindowMs (agesOutIn now) := by
  induction entries generalizing released with
  | nil => rw [waitFor, stopEntry, Option.elim_none]
  | cons e rest ih =>
      rw [waitFor, stopEntry]
      by_cases hmore : ((released + e.airtimeMs.toNat : Nat) : ℚ) < excess
      · rw [if_pos hmore, if_pos hmore]
        exact ih _
      · rw [if_neg hmore, if_neg hmore, Option.elim_some, agesOutIn]

/-- The walk ends at the entry whose airtime brings what is released up to the
excess. -/
theorem stopEntry_split (hbelow : (released : ℚ) < excess)
    (hstop : stopEntry excess released entries = some e) :
    ∃ pre post, entries = pre ++ e :: post ∧
      ((released + airtime pre : Nat) : ℚ) < excess ∧
      excess ≤ ((released + airtime pre + e.airtimeMs.toNat : Nat) : ℚ) := by
  induction entries generalizing released with
  | nil => simp [stopEntry] at hstop
  | cons first rest ih =>
      rw [stopEntry] at hstop
      split at hstop
      next hmore =>
        obtain ⟨pre, post, hsplit, hless, henough⟩ := ih hmore hstop
        refine ⟨first :: pre, post, by rw [hsplit, List.cons_append], ?_, ?_⟩
        · rw [airtime_cons, ← Nat.add_assoc]
          exact hless
        · rw [airtime_cons, ← Nat.add_assoc]
          exact henough
      next henough =>
        obtain rfl := Option.some.inj hstop
        exact ⟨[], rest, rfl, by simpa using hbelow, by simpa using not_lt.mp henough⟩

theorem stopEntry_eq_some (hsplit : entries = pre ++ e :: post)
    (hless : ((released + airtime pre : Nat) : ℚ) < excess)
    (henough : excess ≤ ((released + airtime pre + e.airtimeMs.toNat : Nat) : ℚ)) :
    stopEntry excess released entries = some e := by
  subst hsplit
  induction pre generalizing released with
  | nil =>
      rw [List.nil_append, stopEntry, if_neg (not_lt.mpr (by simpa using henough))]
  | cons first pre ih =>
      rw [airtime_cons, ← Nat.add_assoc] at hless henough
      have hfirst : ((released + first.airtimeMs.toNat : Nat) : ℚ) < excess := by
        refine lt_of_le_of_lt ?_ hless
        exact_mod_cast Nat.le_add_right _ _
      rw [List.cons_append, stopEntry, if_pos hfirst]
      exact ih hless henough

/-- With enough recorded to release the excess, the walk ends at an entry. -/
theorem exists_stopEntry (henough : excess ≤ ((released + airtime entries : Nat) : ℚ))
    (hbelow : (released : ℚ) < excess) : ∃ e, stopEntry excess released entries = some e := by
  induction entries generalizing released with
  | nil => exact absurd hbelow (not_lt.mpr (by simpa using henough))
  | cons first rest ih =>
      rw [stopEntry]
      split
      next hmore =>
        rw [airtime_cons, ← Nat.add_assoc] at henough
        exact ih henough hmore
      next => exact ⟨first, rfl⟩

/-! ## What the reference is -/

/-- The account with only the last hour's entries left on it. -/
def onlyHour (now : Nat) (duty : DutyCycle) : DutyCycle :=
  { duty with entries := duty.entries.filter (InWindow now ·) }

/-- Of everything recorded, the wait is the least time after which the airtime
of the hour and the candidate fit; it takes no overflow to compute, and nothing
that is an hour old has a part in it. -/
structure Exact (now : Nat) (duty : DutyCycle) (history : List DutyEntry)
    (candidate : UInt32) : Prop where
  least : (candidate.toNat : ℚ) ≤ duty.budget →
    IsLeast {wait : Nat |
      ((windowAirtime (now + wait) history + candidate.toNat : Nat) : ℚ) ≤ duty.budget}
      (duty.waitMs now candidate).1.toNat
  held : duty.budget < (candidate.toNat : ℚ) → (duty.waitMs now candidate).1 = 3600000
  noOverflow : ∀ e, duty.answeringEntry now candidate = some e →
    Fits32 (3600000 - signed (reading now - e.atMs))
  onlyTheHour : (duty.waitMs now candidate).1 = ((duty.onlyHour now).waitMs now candidate).1

/-- An entry an hour old that reads as younger, with so little recorded after it
that some candidate would be held for it. -/
def Misread (now : Nat) (duty : DutyCycle) : Prop :=
  ∃ pre e post, (duty.prune now).entries = pre ++ e :: post ∧ e.airtimeMs ≠ 0 ∧
    ¬ InWindow now e ∧ signed (reading now - e.atMs) < 3600000 ∧
    (airtime post : ℚ) ≤ duty.budget

/-! ## Ages on the clock -/

theorem signed_kWindowMs_sub {age : UInt32} (hfits : Fits32 (3600000 - signed age)) :
    signed (kWindowMs - age) = 3600000 - signed age := by
  have hsub : signed (kWindowMs - age) = (3600000 - signed age).bmod (2 ^ 32) := by
    rw [signed, UInt32.toInt32_sub, Int32.toInt_sub]
    rfl
  obtain ⟨hlow, hhigh⟩ := hfits
  rw [hsub, Int.bmod_eq_of_le (by omega) (by omega)]

/-- An entry of the hour ages out exactly when its hour is over. -/
theorem toNat_agesOutIn (hpast : e.recordedAt ≤ now) (hin : InWindow now e) :
    (agesOutIn now e).toNat = e.recordedAt + 3600000 - now ∧
      Fits32 (3600000 - signed (reading now - e.atMs)) := by
  rw [InWindow] at hin
  have hage : signed (reading now - e.atMs) = (now : Int) - e.recordedAt :=
    signed_sub_of_near (by omega) (by omega)
  have hfits : Fits32 (3600000 - signed (reading now - e.atMs)) := by
    rw [hage]
    exact ⟨by omega, by omega⟩
  have hpos : 0 < signed (kWindowMs - (reading now - e.atMs)) := by
    rw [signed_kWindowMs_sub hfits, hage]
    omega
  refine ⟨?_, hfits⟩
  rw [agesOutIn, if_pos hpos, UInt32.toNat_sub, DutyEntry.atMs,
    toNat_reading_sub (by omega : e.recordedAt ≤ now)]
  have hwindow : kWindowMs.toNat = 3600000 := rfl
  rw [hwindow]
  omega

/-! ## The account and everything recorded -/

/-- The account keeps part of the history, with the whole of the last hour. -/
structure Records (now : Nat) (duty : DutyCycle) (history : List DutyEntry) : Prop where
  chronological : Chronological now history
  kept : duty.entries.Sublist history
  hour : duty.entries.filter (InWindow now ·) = history.filter (InWindow now ·)

variable {history : List DutyEntry}

theorem filter_inWindow_later {later : Nat} (hle : now ≤ later) (entries : List DutyEntry) :
    (entries.filter (InWindow now ·)).filter (InWindow later ·) =
      entries.filter (InWindow later ·) := by
  rw [List.filter_filter]
  apply List.filter_congr
  intro e _
  by_cases hin : InWindow later e
  · have hearlier : InWindow now e := by
      rw [InWindow] at hin ⊢
      omega
    simp [hin, hearlier]
  · simp [hin]

theorem Records.later (hrecords : Records now duty history) {later : Nat} (hle : now ≤ later) :
    Records later duty history where
  chronological := hrecords.chronological.later hle
  kept := hrecords.kept
  hour := by
    rw [← filter_inWindow_later hle, hrecords.hour, filter_inWindow_later hle]

theorem Records.account (hrecords : Records now duty history) :
    Chronological now duty.entries :=
  hrecords.chronological.sublist hrecords.kept

theorem Records.prune (hrecords : Records now duty history) :
    Records now (duty.prune now) history where
  chronological := hrecords.chronological
  kept := List.filter_sublist.trans hrecords.kept
  hour := by
    rw [filter_inWindow_prune duty hrecords.account.past, hrecords.hour]

theorem Records.record (hrecords : Records now duty history) (airtimeMs : UInt32) :
    Records now (duty.record now airtimeMs)
      (history ++ [{ recordedAt := now, airtimeMs }]) where
  chronological := by
    refine ⟨List.pairwise_append.mpr ⟨hrecords.chronological.ordered, by simp, ?_⟩, ?_⟩
    · intro older holder newer hnewer
      obtain rfl := List.mem_singleton.mp hnewer
      exact hrecords.chronological.past older holder
    · intro e he
      rcases List.mem_append.mp he with hold | hnew
      · exact hrecords.chronological.past e hold
      · obtain rfl := List.mem_singleton.mp hnew
        exact Nat.le_refl _
  kept := hrecords.prune.kept.append (List.Sublist.refl _)
  hour := by
    rw [DutyCycle.record, List.filter_append, List.filter_append, hrecords.prune.hour]

/-- At any later time the hour's airtime can be counted on the account. -/
theorem Records.windowAirtime_eq (hrecords : Records now duty history) (wait : Nat) :
    windowAirtime (now + wait) history = windowAirtime (now + wait) duty.entries := by
  rw [windowAirtime, windowAirtime, (hrecords.later (Nat.le_add_right now wait)).hour]

theorem windowAirtime_le_of_gone (hentries : Chronological now entries)
    (hsplit : entries = pre ++ e :: post) (hgone : ¬ InWindow now e) :
    windowAirtime now entries ≤ airtime post := by
  have hbefore : ∀ other ∈ pre ++ [e], ¬ InWindow now other := by
    intro other hother
    rcases List.mem_append.mp hother with hpre | hlast
    · have holder : other.recordedAt ≤ e.recordedAt := by
        have hordered := hentries.ordered
        rw [hsplit, List.pairwise_append] at hordered
        exact hordered.2.2 other hpre e List.mem_cons_self
      rw [InWindow] at hgone ⊢
      omega
    · obtain rfl := List.mem_singleton.mp hlast
      exact hgone
  have hassoc : entries = (pre ++ [e]) ++ post := by rw [hsplit]; simp
  rw [hassoc]
  exact windowAirtime_append_of_gone hbefore

theorem le_windowAirtime_of_inWindow (hentries : Chronological now entries)
    (hsplit : entries = pre ++ e :: post) (hin : InWindow now e) :
    airtime (e :: post) ≤ windowAirtime now entries := by
  have hall : (e :: post).filter (InWindow now ·) = e :: post := by
    refine List.filter_eq_self.mpr fun other hother => decide_eq_true ?_
    have hnewer : e.recordedAt ≤ other.recordedAt := by
      rcases List.mem_cons.mp hother with rfl | hpost
      · exact Nat.le_refl _
      · have hordered := hentries.ordered
        rw [hsplit, List.pairwise_append] at hordered
        exact (List.pairwise_cons.mp hordered.2.1).1 other hpost
    rw [InWindow] at hin ⊢
    omega
  rw [windowAirtime, hsplit, List.filter_append, hall, airtime_append]
  exact Nat.le_add_left _ _

/-! ## What the call answers -/

theorem percent_guard (hlow : 0 < duty.percent) (hhigh : duty.percent < 100) :
    ¬ (duty.percent ≤ 0 ∨ 100 ≤ duty.percent) := by
  rintro (hle | hle)
  · exact absurd hlow (not_lt.mpr hle)
  · exact absurd hhigh (not_lt.mpr hle)

theorem waitMs_of_fits (hlow : 0 < duty.percent) (hhigh : duty.percent < 100)
    (hfits : ((airtime (duty.prune now).entries + candidate.toNat : Nat) : ℚ) ≤ duty.budget) :
    (duty.waitMs now candidate).1 = 0 ∧ duty.answeringEntry now candidate = none := by
  have hbudget : (duty.prune now).budget = duty.budget := rfl
  refine ⟨?_, by rw [answeringEntry, if_pos hfits]⟩
  rw [waitMs, if_neg (percent_guard hlow hhigh)]
  dsimp only
  rw [hbudget, if_pos hfits]

theorem waitMs_of_tooLarge (hlow : 0 < duty.percent) (hhigh : duty.percent < 100)
    (hlarge : duty.budget < (candidate.toNat : ℚ)) :
    (duty.waitMs now candidate).1 = kWindowMs ∧ duty.answeringEntry now candidate = none := by
  have hbudget : (duty.prune now).budget = duty.budget := rfl
  have hunfit : ¬ ((airtime (duty.prune now).entries + candidate.toNat : Nat) : ℚ) ≤
      duty.budget := by
    refine not_le.mpr (lt_of_lt_of_le hlarge ?_)
    exact_mod_cast Nat.le_add_left _ _
  refine ⟨?_, by rw [answeringEntry, if_neg hunfit, if_pos hlarge]⟩
  rw [waitMs, if_neg (percent_guard hlow hhigh)]
  dsimp only
  rw [hbudget, if_neg hunfit, if_pos hlarge]

/-- The walk ends at the newest entry that has to go before the candidate fits. -/
theorem waitMs_of_walk (hlow : 0 < duty.percent) (hhigh : duty.percent < 100)
    (hsplit : (duty.prune now).entries = pre ++ e :: post)
    (hafter : ((airtime post + candidate.toNat : Nat) : ℚ) ≤ duty.budget)
    (hwith : duty.budget < ((airtime (e :: post) + candidate.toNat : Nat) : ℚ)) :
    (duty.waitMs now candidate).1 = agesOutIn now e ∧
      duty.answeringEntry now candidate = some e := by
  have hbudget : (duty.prune now).budget = duty.budget := rfl
  have htotal : airtime (duty.prune now).entries = airtime pre + airtime (e :: post) := by
    rw [hsplit, airtime_append]
  have hunfit : ¬ ((airtime (duty.prune now).entries + candidate.toNat : Nat) : ℚ) ≤
      duty.budget := by
    refine not_le.mpr (lt_of_lt_of_le hwith ?_)
    rw [htotal]
    exact_mod_cast (by omega : airtime (e :: post) + candidate.toNat ≤
      airtime pre + airtime (e :: post) + candidate.toNat)
  have hsmall : ¬ duty.budget < (candidate.toNat : ℚ) := by
    refine not_lt.mpr (le_trans ?_ hafter)
    exact_mod_cast Nat.le_add_left _ _
  have hstop : stopEntry
      (((airtime (duty.prune now).entries + candidate.toNat : Nat) : ℚ) - duty.budget) 0
      (duty.prune now).entries = some e := by
    refine stopEntry_eq_some hsplit ?_ ?_
    · rw [htotal]
      push_cast at hwith ⊢
      linarith
    · rw [htotal, airtime_cons]
      push_cast at hafter ⊢
      linarith
  constructor
  · rw [waitMs, if_neg (percent_guard hlow hhigh)]
    dsimp only
    rw [hbudget, if_neg hunfit, if_neg hsmall, waitFor_eq_stopEntry, hstop, Option.elim_some]
  · rw [answeringEntry, if_neg hunfit, if_neg hsmall, hstop]

/-- A candidate that the budget allows but not now is held for some entry. -/
theorem exists_walk
    (hunfit : duty.budget < ((airtime (duty.prune now).entries + candidate.toNat : Nat) : ℚ))
    (hsmall : (candidate.toNat : ℚ) ≤ duty.budget) :
    ∃ pre e post, (duty.prune now).entries = pre ++ e :: post ∧
      ((airtime post + candidate.toNat : Nat) : ℚ) ≤ duty.budget ∧
      duty.budget < ((airtime (e :: post) + candidate.toNat : Nat) : ℚ) := by
  have hbelow : ((0 : Nat) : ℚ) <
      ((airtime (duty.prune now).entries + candidate.toNat : Nat) : ℚ) - duty.budget := by
    push_cast at hunfit ⊢
    linarith
  obtain ⟨e, hstop⟩ := exists_stopEntry
    (by push_cast; linarith) hbelow
  obtain ⟨pre, post, hsplit, hless, henough⟩ := stopEntry_split hbelow hstop
  have htotal : airtime (duty.prune now).entries =
      airtime pre + e.airtimeMs.toNat + airtime post := by
    rw [hsplit, airtime_append, airtime_cons, Nat.add_assoc]
  rw [htotal] at hless henough
  refine ⟨pre, e, post, hsplit, ?_, ?_⟩
  · push_cast at henough ⊢
    linarith
  · rw [airtime_cons]
    push_cast at hless ⊢
    linarith

/-! ## Exactness -/

theorem not_fits_of_walk {wait : Nat} (hrecords : Records now duty history)
    (hsplit : (duty.prune now).entries = pre ++ e :: post) (hin : InWindow (now + wait) e)
    (hwith : duty.budget < ((airtime (e :: post) + candidate.toNat : Nat) : ℚ)) :
    ¬ ((windowAirtime (now + wait) history + candidate.toNat : Nat) : ℚ) ≤ duty.budget := by
  have hle := Nat.le_add_right now wait
  have hcount := le_windowAirtime_of_inWindow (hrecords.prune.account.later hle) hsplit hin
  rw [hrecords.prune.windowAirtime_eq]
  refine not_le.mpr (lt_of_lt_of_le hwith ?_)
  exact_mod_cast Nat.add_le_add_right hcount _

theorem fits_of_walk {wait : Nat} (hrecords : Records now duty history)
    (hsplit : (duty.prune now).entries = pre ++ e :: post) (hgone : ¬ InWindow (now + wait) e)
    (hafter : ((airtime post + candidate.toNat : Nat) : ℚ) ≤ duty.budget) :
    ((windowAirtime (now + wait) history + candidate.toNat : Nat) : ℚ) ≤ duty.budget := by
  have hle := Nat.le_add_right now wait
  have hcount := windowAirtime_le_of_gone (hrecords.prune.account.later hle) hsplit hgone
  rw [hrecords.prune.windowAirtime_eq]
  refine le_trans ?_ hafter
  exact_mod_cast Nat.add_le_add_right hcount _

/-- What pruning leaves reads as no more than an hour old. -/
theorem signed_age_le_of_mem_prune (hmem : e ∈ (duty.prune now).entries) :
    signed (reading now - e.atMs) ≤ 3600000 := by
  have hkept := (List.mem_filter.mp hmem).2
  simp only [Bool.not_eq_true', decide_eq_false_iff_not, not_lt] at hkept
  exact hkept

theorem agesOutIn_of_aged (haged : signed (reading now - e.atMs) = 3600000) :
    agesOutIn now e = 0 := by
  have hfits : Fits32 (3600000 - signed (reading now - e.atMs)) := by
    rw [haged]
    decide
  rw [agesOutIn, if_neg]
  rw [signed_kWindowMs_sub hfits, haged]
  decide

/-- The entry a candidate is held for, if it has left the hour, reads as exactly
an hour old. -/
theorem aged_of_not_misread (hread : ¬ Misread now duty)
    (hsplit : (duty.prune now).entries = pre ++ e :: post) (hgone : ¬ InWindow now e)
    (hafter : ((airtime post + candidate.toNat : Nat) : ℚ) ≤ duty.budget)
    (hwith : duty.budget < ((airtime (e :: post) + candidate.toNat : Nat) : ℚ)) :
    signed (reading now - e.atMs) = 3600000 := by
  have hmem : e ∈ (duty.prune now).entries := by simp [hsplit]
  refine Int.le_antisymm (signed_age_le_of_mem_prune hmem) ?_
  by_contra hyoung
  refine hread ⟨pre, e, post, hsplit, ?_, hgone, not_le.mp hyoung, ?_⟩
  · intro hzero
    rw [airtime_cons, hzero] at hwith
    exact absurd hafter (not_le.mpr (by simpa using hwith))
  · refine le_trans ?_ hafter
    exact_mod_cast Nat.le_add_right _ _

theorem least_of_not_misread (hrecords : Records now duty history) (hlow : 0 < duty.percent)
    (hhigh : duty.percent < 100) (hread : ¬ Misread now duty)
    (hsmall : (candidate.toNat : ℚ) ≤ duty.budget) :
    IsLeast {wait : Nat |
        ((windowAirtime (now + wait) history + candidate.toNat : Nat) : ℚ) ≤ duty.budget}
        (duty.waitMs now candidate).1.toNat ∧
      ∀ e, duty.answeringEntry now candidate = some e →
        Fits32 (3600000 - signed (reading now - e.atMs)) := by
  by_cases hfits :
      ((airtime (duty.prune now).entries + candidate.toNat : Nat) : ℚ) ≤ duty.budget
  · obtain ⟨hzero, hnone⟩ := waitMs_of_fits hlow hhigh hfits
    refine ⟨⟨?_, fun wait _ => by simp [hzero]⟩, by simp [hnone]⟩
    have hcount : windowAirtime (now + 0) (duty.prune now).entries ≤
        airtime (duty.prune now).entries := airtime_le_of_sublist List.filter_sublist
    have hwindow := hrecords.prune.windowAirtime_eq 0
    show ((windowAirtime (now + (duty.waitMs now candidate).1.toNat) history +
      candidate.toNat : Nat) : ℚ) ≤ duty.budget
    rw [hzero, UInt32.toNat_zero, hwindow]
    refine le_trans ?_ hfits
    exact_mod_cast Nat.add_le_add_right hcount _
  · obtain ⟨pre, e, post, hsplit, hafter, hwith⟩ := exists_walk (not_le.mp hfits) hsmall
    obtain ⟨hwait, hanswer⟩ := waitMs_of_walk hlow hhigh hsplit hafter hwith
    have hpast : e.recordedAt ≤ now :=
      hrecords.prune.account.past e (by simp [hsplit])
    by_cases hin : InWindow now e
    · obtain ⟨hnat, hrange⟩ := toNat_agesOutIn hpast hin
      refine ⟨⟨?_, ?_⟩, ?_⟩
      · refine fits_of_walk hrecords hsplit ?_ hafter
        rw [InWindow] at hin ⊢
        rw [hwait, hnat]
        omega
      · intro wait hwaitFits
        by_contra hless
        refine not_fits_of_walk hrecords hsplit ?_ hwith hwaitFits
        rw [InWindow] at hin ⊢
        rw [hwait, hnat] at hless
        omega
      · intro answering hanswering
        obtain rfl := Option.some.inj (hanswer.symm.trans hanswering)
        exact hrange
    · have haged := aged_of_not_misread hread hsplit hin hafter hwith
      have hzero : (duty.waitMs now candidate).1 = 0 := by
        rw [hwait, agesOutIn_of_aged haged]
      refine ⟨⟨?_, fun wait _ => by simp [hzero]⟩, ?_⟩
      · exact fits_of_walk hrecords hsplit (by simpa [hzero] using hin) hafter
      · intro answering hanswering
        obtain rfl := Option.some.inj (hanswer.symm.trans hanswering)
        rw [haged]
        decide

theorem Records.onlyHour (hrecords : Records now duty history) :
    Records now (duty.onlyHour now) history where
  chronological := hrecords.chronological
  kept := List.filter_sublist.trans hrecords.kept
  hour := by
    rw [DutyCycle.onlyHour, filter_inWindow_later (Nat.le_refl now), hrecords.hour]

theorem not_misread_onlyHour : ¬ Misread now (duty.onlyHour now) := by
  rintro ⟨pre, e, post, hsplit, -, hgone, -, -⟩
  have hkept : e ∈ ((duty.onlyHour now).prune now).entries := by simp [hsplit]
  have hmem : e ∈ duty.entries.filter (InWindow now ·) := (List.mem_filter.mp hkept).1
  exact hgone (of_decide_eq_true (List.mem_filter.mp hmem).2)

theorem exact_of_not_misread (hrecords : Records now duty history) (hlow : 0 < duty.percent)
    (hhigh : duty.percent < 100) (hread : ¬ Misread now duty) (candidate : UInt32) :
    Exact now duty history candidate where
  least hsmall := (least_of_not_misread hrecords hlow hhigh hread hsmall).1
  held hlarge := (waitMs_of_tooLarge hlow hhigh hlarge).1
  noOverflow e hanswer := by
    by_cases hsmall : (candidate.toNat : ℚ) ≤ duty.budget
    · exact (least_of_not_misread hrecords hlow hhigh hread hsmall).2 e hanswer
    · rw [(waitMs_of_tooLarge hlow hhigh (not_le.mp hsmall)).2] at hanswer
      exact absurd hanswer (by simp)
  onlyTheHour := by
    by_cases hsmall : (candidate.toNat : ℚ) ≤ duty.budget
    · have hall := (least_of_not_misread hrecords hlow hhigh hread hsmall).1
      have honly := (least_of_not_misread hrecords.onlyHour hlow hhigh
        not_misread_onlyHour hsmall).1
      exact UInt32.toNat_inj.mp (hall.unique honly)
    · have hlarge : duty.budget < (candidate.toNat : ℚ) := not_le.mp hsmall
      have hlow' : 0 < (duty.onlyHour now).percent := hlow
      have hhigh' : (duty.onlyHour now).percent < 100 := hhigh
      have honly : (duty.onlyHour now).budget < (candidate.toNat : ℚ) := hlarge
      rw [(waitMs_of_tooLarge hlow hhigh hlarge).1, (waitMs_of_tooLarge hlow' hhigh' honly).1]

/-- The candidate that fills the budget up to what was recorded after the
misread entry is held for that entry. -/
theorem not_misread_of_exact (hrecords : Records now duty history) (hlow : 0 < duty.percent)
    (hhigh : duty.percent < 100)
    (hexact : ∀ candidate, Exact now duty history candidate) : ¬ Misread now duty := by
  rintro ⟨pre, e, post, hsplit, hairtime, hgone, hyoung, hbudget⟩
  have hroom : 0 ≤ duty.budget - airtime post := by linarith
  have hsize : ⌊duty.budget - airtime post⌋₊ < 2 ^ 32 := by
    refine (Nat.floor_lt hroom).mpr ?_
    have hmost : duty.budget < 3600000 := by
      rw [DutyCycle.budget]
      linarith
    have hpost : (0 : ℚ) ≤ airtime post := by exact_mod_cast Nat.zero_le _
    norm_num
    linarith
  obtain ⟨candidate, hcandidate⟩ : ∃ candidate : UInt32,
      candidate.toNat = ⌊duty.budget - airtime post⌋₊ :=
    ⟨UInt32.ofNat ⌊duty.budget - airtime post⌋₊, UInt32.toNat_ofNat_of_lt' hsize⟩
  have hlowFloor : (candidate.toNat : ℚ) ≤ duty.budget - airtime post := by
    rw [hcandidate]
    exact Nat.floor_le hroom
  have hhighFloor : duty.budget - airtime post < (candidate.toNat : ℚ) + 1 := by
    rw [hcandidate]
    exact Nat.lt_floor_add_one _
  have hpositive : 1 ≤ e.airtimeMs.toNat := by
    have hne : e.airtimeMs.toNat ≠ 0 := fun hzero =>
      hairtime (UInt32.toNat_inj.mp (by simpa using hzero))
    omega
  have hafter : ((airtime post + candidate.toNat : Nat) : ℚ) ≤ duty.budget := by
    push_cast
    linarith
  have hwith : duty.budget < ((airtime (e :: post) + candidate.toNat : Nat) : ℚ) := by
    have hcast : (1 : ℚ) ≤ e.airtimeMs.toNat := by exact_mod_cast hpositive
    rw [airtime_cons]
    push_cast
    linarith
  have hsmall : (candidate.toNat : ℚ) ≤ duty.budget := by
    have hpost : (0 : ℚ) ≤ airtime post := by exact_mod_cast Nat.zero_le _
    linarith
  obtain ⟨hwait, hanswer⟩ := waitMs_of_walk hlow hhigh hsplit hafter hwith
  have hrange := (hexact candidate).noOverflow e hanswer
  have hnow : ((windowAirtime (now + 0) history + candidate.toNat : Nat) : ℚ) ≤ duty.budget :=
    fits_of_walk hrecords hsplit hgone hafter
  have hzero : (duty.waitMs now candidate).1.toNat = 0 :=
    Nat.le_zero.mp (((hexact candidate).least hsmall).2 hnow)
  rw [hwait, agesOutIn, if_pos (by rw [signed_kWindowMs_sub hrange]; omega)] at hzero
  have hpos : 0 < signed (kWindowMs - (reading now - e.atMs)) := by
    rw [signed_kWindowMs_sub hrange]
    omega
  rw [show kWindowMs - (reading now - e.atMs) = 0 from UInt32.toNat_inj.mp hzero] at hpos
  exact absurd hpos (by decide)

/-! ## Runs of calls -/

inductive AccountCall where
  | record (airtimeMs : UInt32)
  | waitMs (candidate : UInt32)
  | usedPct

/-- The account between calls, beside the true time of the last one and
everything that was ever recorded. -/
structure Ledger where
  now : Nat
  duty : DutyCycle
  history : List DutyEntry

def Ledger.opened (start : Nat) (percent : ℚ) : Ledger :=
  { now := start, duty := { percent }, history := [] }

/-- A call some time after the one before. -/
def Ledger.call (ledger : Ledger) (event : Nat × AccountCall) : Ledger :=
  let now := ledger.now + event.1
  match event.2 with
  | .record airtimeMs =>
      { now, duty := ledger.duty.record now airtimeMs,
        history := ledger.history ++ [{ recordedAt := now, airtimeMs }] }
  | .waitMs candidate =>
      { now, duty := (ledger.duty.waitMs now candidate).2, history := ledger.history }
  | .usedPct => { now, duty := (ledger.duty.usedPct now).2, history := ledger.history }

theorem waitMs_snd (hlow : 0 < duty.percent) (hhigh : duty.percent < 100) :
    (duty.waitMs now candidate).2 = duty.prune now := by
  rw [waitMs, if_neg (percent_guard hlow hhigh)]
  dsimp only
  split
  · rfl
  · split <;> rfl

/-- After a call the account is the pruned one, with what the call records. -/
theorem Ledger.call_cases {ledger : Ledger} (hlow : 0 < ledger.duty.percent)
    (hhigh : ledger.duty.percent < 100) (event : Nat × AccountCall) :
    (ledger.call event).now = ledger.now + event.1 ∧
    (((ledger.call event).duty = ledger.duty.prune (ledger.now + event.1) ∧
        (ledger.call event).history = ledger.history) ∨
      ∃ airtimeMs,
        (ledger.call event).duty = ledger.duty.record (ledger.now + event.1) airtimeMs ∧
        (ledger.call event).history =
          ledger.history ++ [{ recordedAt := ledger.now + event.1, airtimeMs }]) := by
  obtain ⟨gap, call⟩ := event
  cases call with
  | record airtimeMs => exact ⟨rfl, Or.inr ⟨airtimeMs, rfl, rfl⟩⟩
  | waitMs candidate => exact ⟨rfl, Or.inl ⟨waitMs_snd hlow hhigh, rfl⟩⟩
  | usedPct => exact ⟨rfl, Or.inl ⟨rfl, rfl⟩⟩

structure Ledger.Sound (percent : ℚ) (ledger : Ledger) : Prop where
  percent_eq : ledger.duty.percent = percent
  records : Records ledger.now ledger.duty ledger.history

theorem Ledger.Sound.call {percent : ℚ} (hlow : 0 < percent) (hhigh : percent < 100)
    {ledger : Ledger} (hsound : ledger.Sound percent) (event : Nat × AccountCall) :
    (ledger.call event).Sound percent := by
  have hpercent := hsound.percent_eq
  have hlater := hsound.records.later (Nat.le_add_right ledger.now event.1)
  obtain ⟨hnow, ⟨hduty, hhistory⟩ | ⟨airtimeMs, hduty, hhistory⟩⟩ :=
    Ledger.call_cases (hpercent ▸ hlow) (hpercent ▸ hhigh) event
  · refine ⟨by rw [hduty]; exact hpercent, ?_⟩
    rw [hnow, hduty, hhistory]
    exact hlater.prune
  · refine ⟨by rw [hduty]; exact hpercent, ?_⟩
    rw [hnow, hduty, hhistory]
    exact hlater.record airtimeMs

theorem Ledger.sound_run {percent : ℚ} (hlow : 0 < percent) (hhigh : percent < 100)
    (start : Nat) (events : List (Nat × AccountCall)) :
    (run Ledger.call (Ledger.opened start percent) events).Sound percent := by
  refine run_invariant (fun ledger event hsound => hsound.call hlow hhigh event) ?_ events
  exact ⟨rfl, ⟨⟨List.Pairwise.nil, by simp [Ledger.opened]⟩, List.Sublist.refl _, rfl⟩⟩

/-- Nothing on the account is more than an hour older than the last call. -/
def Ledger.Fresh (ledger : Ledger) : Prop :=
  ∀ e ∈ ledger.duty.entries, ledger.now ≤ e.recordedAt + 3600000

/-- With less than half the clock's range behind it, an entry that is kept is at
most an hour old. -/
theorem fresh_of_mem_prune {last gap : Nat} (hpast : e.recordedAt ≤ last)
    (hfresh : last ≤ e.recordedAt + 3600000) (hgap : gap + 3600000 < 2 ^ 31)
    (hmem : e ∈ (duty.prune (last + gap)).entries) : last + gap ≤ e.recordedAt + 3600000 := by
  have hage : signed (reading (last + gap) - e.atMs) =
      ((last + gap : Nat) : Int) - e.recordedAt :=
    signed_sub_of_near (by omega) (by omega)
  have hread := signed_age_le_of_mem_prune hmem
  rw [hage] at hread
  omega

theorem Ledger.Fresh.call {percent : ℚ} (hlow : 0 < percent) (hhigh : percent < 100)
    {ledger : Ledger} (hsound : ledger.Sound percent) (hfresh : ledger.Fresh)
    {event : Nat × AccountCall} (hgap : event.1 + 3600000 < 2 ^ 31) :
    (ledger.call event).Fresh := by
  have hpercent := hsound.percent_eq
  have hpruned : ∀ e ∈ (ledger.duty.prune (ledger.now + event.1)).entries,
      ledger.now + event.1 ≤ e.recordedAt + 3600000 := by
    intro e he
    have hmem : e ∈ ledger.duty.entries := (List.mem_filter.mp he).1
    exact fresh_of_mem_prune (hsound.records.account.past e hmem) (hfresh e hmem) hgap he
  obtain ⟨hnow, ⟨hduty, -⟩ | ⟨airtimeMs, hduty, -⟩⟩ :=
    Ledger.call_cases (hpercent ▸ hlow) (hpercent ▸ hhigh) event
  · intro e he
    rw [hnow]
    rw [hduty] at he
    exact hpruned e he
  · intro e he
    rw [hnow]
    rw [hduty] at he
    rcases List.mem_append.mp he with hold | hnew
    · exact hpruned e hold
    · obtain rfl := List.mem_singleton.mp hnew
      exact Nat.le_add_right _ _

theorem Ledger.fresh_run {percent : ℚ} (hlow : 0 < percent) (hhigh : percent < 100)
    (start : Nat) {events : List (Nat × AccountCall)}
    (hgaps : ∀ event ∈ events, event.1 + 3600000 < 2 ^ 31) :
    (run Ledger.call (Ledger.opened start percent) events).Fresh := by
  have hshort : Along Ledger.call (fun _ event => event.1 + 3600000 < 2 ^ 31)
      (Ledger.opened start percent) events :=
    along_of_forall (fun event hevent _ => hgaps event hevent) _
  have hstep : ∀ (ledger : Ledger) (event : Nat × AccountCall),
      ledger.Sound percent ∧ ledger.Fresh → event.1 + 3600000 < 2 ^ 31 →
      (ledger.call event).Sound percent ∧ (ledger.call event).Fresh :=
    fun ledger event hbefore hgap =>
      ⟨hbefore.1.call hlow hhigh event, hbefore.2.call hlow hhigh hbefore.1 hgap⟩
  refine (Along.invariant hstep ⟨Ledger.sound_run hlow hhigh start [], ?_⟩ hshort).2
  exact fun e he => absurd he List.not_mem_nil

theorem not_misread_of_fresh {ledger : Ledger} {gap : Nat} (hfresh : ledger.Fresh)
    (hpast : ∀ e ∈ ledger.duty.entries, e.recordedAt ≤ ledger.now)
    (hgap : gap + 3600000 < 2 ^ 31) : ¬ Misread (ledger.now + gap) ledger.duty := by
  rintro ⟨pre, e, post, hsplit, -, hgone, hyoung, -⟩
  have hkept : e ∈ (ledger.duty.prune (ledger.now + gap)).entries := by simp [hsplit]
  have hmem : e ∈ ledger.duty.entries := (List.mem_filter.mp hkept).1
  have hnear := fresh_of_mem_prune (hpast e hmem) (hfresh e hmem) hgap hkept
  have hbefore := hpast e hmem
  have hage : signed (reading (ledger.now + gap) - e.atMs) =
      ((ledger.now + gap : Nat) : Int) - e.recordedAt :=
    signed_sub_of_near (by omega) (by omega)
  rw [hage] at hyoung
  rw [InWindow] at hgone
  omega

/-- **When the wait is exact.** After any history of calls, the wait asked for
next is exact for every candidate just when no entry is misread; and no entry is
as long as the account is asked or recorded to at least once in half the clock's
range less an hour. -/
theorem waitMs_exact_iff (start : Nat) (percent : ℚ) (hlow : 0 < percent)
    (hhigh : percent < 100) (events : List (Nat × AccountCall)) (gap : Nat) :
    let ledger := run Ledger.call (Ledger.opened start percent) events
    ((∀ candidate, Exact (ledger.now + gap) ledger.duty ledger.history candidate) ↔
        ¬ Misread (ledger.now + gap) ledger.duty) ∧
      ((∀ event ∈ events, event.1 + 3600000 < 2 ^ 31) → gap + 3600000 < 2 ^ 31 →
        ¬ Misread (ledger.now + gap) ledger.duty) := by
  intro ledger
  have hsound : ledger.Sound percent := Ledger.sound_run hlow hhigh start events
  have hlater := hsound.records.later (Nat.le_add_right ledger.now gap)
  have hlow' : 0 < ledger.duty.percent := hsound.percent_eq ▸ hlow
  have hhigh' : ledger.duty.percent < 100 := hsound.percent_eq ▸ hhigh
  refine ⟨⟨not_misread_of_exact hlater hlow' hhigh',
    exact_of_not_misread hlater hlow' hhigh'⟩, fun hgaps hgap => ?_⟩
  have hfresh : ledger.Fresh := Ledger.fresh_run hlow hhigh start hgaps
  exact not_misread_of_fresh hfresh hsound.records.account.past hgap

/-- A second of airtime in a budget of thirty-six, and the next question 2^32
milliseconds and a second later: a candidate of thirty-six seconds is held for
the entry although its hour is long over. -/
theorem waitMs_held_for_misread :
    let ledger := run Ledger.call (Ledger.opened 0 1) [(0, .record 1000)]
    ¬ ∀ candidate, Exact (ledger.now + 4294968296) ledger.duty ledger.history candidate := by
  intro ledger hexact
  have hbudget : ledger.duty.budget = 36000 := by
    norm_num [ledger, run, Ledger.call, Ledger.opened, DutyCycle.record, DutyCycle.prune,
      DutyCycle.budget]
  have hsize : (36000 : UInt32).toNat = 36000 := rfl
  have hgone : windowAirtime (ledger.now + 4294968296 + 0) ledger.history = 0 := by decide
  have hwait : (ledger.duty.waitMs (ledger.now + 4294968296) 36000).1.toNat = 3599000 := by
    decide +kernel
  have hnow : ((windowAirtime (ledger.now + 4294968296 + 0) ledger.history +
      (36000 : UInt32).toNat : Nat) : ℚ) ≤ ledger.duty.budget := by
    rw [hgone, hbudget, hsize]
    norm_num
  have hsmall : ((36000 : UInt32).toNat : ℚ) ≤ ledger.duty.budget := by
    rw [hbudget, hsize]
    norm_num
  have hleast : (ledger.duty.waitMs (ledger.now + 4294968296) 36000).1.toNat ≤ 0 :=
    ((hexact 36000).least hsmall).2 hnow
  rw [hwait] at hleast
  exact absurd hleast (by decide)

theorem waitMs_exact_iff_hour :
    let ledger := run Ledger.call (Ledger.opened 0 1) [(0, .record 1000), (1000, .usedPct)]
    ∀ candidate, Exact (ledger.now + 5000) ledger.duty ledger.history candidate := by
  have hiff := waitMs_exact_iff 0 1 (by norm_num) (by norm_num)
    [(0, .record 1000), (1000, .usedPct)] 5000
  exact hiff.1.mpr (hiff.2 (by decide) (by decide))

end DutyCycle

end Coreletd.Radio
