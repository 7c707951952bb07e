/-
# Civil time from a seconds counter

`gmtime` walks whole years and then whole months off a day count, the way the
calendar is defined, so that distinct instants are seen to have distinct civil
forms without any closed formula. The compact stamp prints such a form with
fixed-width fields behind the year and is therefore injective as well.
-/

import Coreletd.Library.Text
import Mathlib.Tactic.Linarith

namespace Coreletd.Library.Calendar

open Coreletd.Library.Text

def isLeap (year : Nat) : Bool :=
  year % 4 = 0 && (year % 100 ≠ 0 || year % 400 = 0)

def yearLength (year : Nat) : Nat := if isLeap year then 366 else 365

/-- Month lengths from January on. -/
def monthLengths (year : Nat) : List Nat :=
  [31, if isLeap year then 29 else 28, 31, 30, 31, 30, 31, 31, 30, 31, 30, 31]

/-- Walk whole years off a day count: the year and the day within it. -/
def walkYears : Nat → Nat → Nat → Nat × Nat
  | 0, year, day => (year, day)
  | fuel + 1, year, day =>
      if day < yearLength year then (year, day)
      else walkYears fuel (year + 1) (day - yearLength year)

/-- Walk whole months off a day of the year: the month and the day within it,
both from one. -/
def walkMonths : List Nat → Nat → Nat → Nat × Nat
  | [], month, day => (month, day + 1)
  | length :: lengths, month, day =>
      if day < length then (month, day + 1)
      else walkMonths lengths (month + 1) (day - length)

/-- The broken-down form of an instant. -/
structure CivilTime where
  year : Nat
  month : Nat
  day : Nat
  hour : Nat
  minute : Nat
  second : Nat
  deriving DecidableEq

/-- Broken-down UTC of a count of seconds since 1970. -/
def gmtime (seconds : Nat) : CivilTime :=
  let days := seconds / 86400
  let (year, dayOfYear) := walkYears (days + 1) 1970 days
  let (month, day) := walkMonths (monthLengths year) 1 dayOfYear
  { year, month, day, hour := seconds % 86400 / 3600, minute := seconds % 3600 / 60,
    second := seconds % 60 }

theorem yearLength_pos (year : Nat) : 0 < yearLength year := by
  rw [yearLength]
  split <;> omega

theorem le_walkYears_fst (fuel year day : Nat) : year ≤ (walkYears fuel year day).1 := by
  induction fuel generalizing year day with
  | zero => exact le_rfl
  | succ fuel ih =>
      rw [walkYears]
      split
      · exact le_rfl
      · exact le_trans (Nat.le_succ year) (ih (year + 1) _)

/-- Enough fuel on both sides makes the walk injective in the day count. -/
theorem walkYears_injective {firstFuel secondFuel year first second : Nat}
    (hfirst : first < firstFuel) (hsecond : second < secondFuel)
    (hequal : walkYears firstFuel year first = walkYears secondFuel year second) :
    first = second := by
  induction firstFuel generalizing secondFuel year first second with
  | zero => omega
  | succ firstFuel ih =>
      cases secondFuel with
      | zero => omega
      | succ secondFuel =>
          have hlen := yearLength_pos year
          rw [walkYears, walkYears] at hequal
          split at hequal <;> split at hequal
          · exact congrArg Prod.snd hequal
          · -- The second walk has left `year`, so its year is larger.
            have hle := le_walkYears_fst secondFuel (year + 1) (second - yearLength year)
            rw [← hequal] at hle
            simp only at hle
            omega
          · have hle := le_walkYears_fst firstFuel (year + 1) (first - yearLength year)
            rw [hequal] at hle
            simp only at hle
            omega
          · have hrest := ih (by omega) (by omega) hequal
            omega

theorem le_walkMonths_fst (lengths : List Nat) (month day : Nat) :
    month ≤ (walkMonths lengths month day).1 := by
  induction lengths generalizing month day with
  | nil => exact le_rfl
  | cons length lengths ih =>
      rw [walkMonths]
      split
      · exact le_rfl
      · exact le_trans (Nat.le_succ month) (ih (month + 1) _)

theorem walkMonths_injective {lengths : List Nat} {month first second : Nat}
    (hequal : walkMonths lengths month first = walkMonths lengths month second) :
    first = second := by
  induction lengths generalizing month first second with
  | nil => simpa [walkMonths] using hequal
  | cons length lengths ih =>
      rw [walkMonths, walkMonths] at hequal
      split at hequal <;> split at hequal
      · simpa using hequal
      · have hle := le_walkMonths_fst lengths (month + 1) (second - length)
        rw [← hequal] at hle
        simp only at hle
        omega
      · have hle := le_walkMonths_fst lengths (month + 1) (first - length)
        rw [hequal] at hle
        simp only at hle
        omega
      · have hrest := ih hequal
        omega

/-- Distinct instants have distinct civil forms. -/
theorem gmtime_injective : Function.Injective gmtime := by
  intro first second hequal
  simp only [gmtime, CivilTime.mk.injEq] at hequal
  obtain ⟨hyear, hmonth, hday, hhour, hminute, hsecond⟩ := hequal
  have hdayOfYear : (walkYears (first / 86400 + 1) 1970 (first / 86400)).2 =
      (walkYears (second / 86400 + 1) 1970 (second / 86400)).2 := by
    rw [hyear] at hmonth hday
    exact walkMonths_injective (Prod.ext hmonth hday)
  have hdays : first / 86400 = second / 86400 :=
    walkYears_injective (Nat.lt_succ_self _) (Nat.lt_succ_self _) (Prod.ext hyear hdayOfYear)
  omega

/-! ## The compact stamp -/

/-- Two digits, zero-padded. -/
def pad2 (n : Nat) : List UInt8 := [digitByte (n / 10), digitByte (n % 10)]

/-- `%Y%m%d-%H%M%S`. -/
def stamp (t : CivilTime) : List UInt8 :=
  decimal t.year ++ (pad2 t.month ++ (pad2 t.day ++ (ascii "-" ++
    (pad2 t.hour ++ (pad2 t.minute ++ pad2 t.second)))))

theorem digitByte_injective {first second : Nat} (hfirst : first < 10) (hsecond : second < 10)
    (hequal : digitByte first = digitByte second) : first = second := by
  have hnat := congrArg UInt8.toNat hequal
  rw [digitByte_toNat hfirst, digitByte_toNat hsecond] at hnat
  omega

theorem pad2_injective {first second : Nat} (hfirst : first < 100) (hsecond : second < 100)
    (hequal : pad2 first = pad2 second) : first = second := by
  simp only [pad2, List.cons.injEq, and_true] at hequal
  have htens := digitByte_injective (by omega) (by omega) hequal.1
  have hunits := digitByte_injective (by omega) (by omega) hequal.2
  omega

theorem walkMonths_bounds (lengths : List Nat) (month day : Nat)
    (hlengths : ∀ length ∈ lengths, length ≤ 31) (hday : day < lengths.sum) :
    (walkMonths lengths month day).1 < month + lengths.length ∧
      (walkMonths lengths month day).2 ≤ 31 := by
  induction lengths generalizing month day with
  | nil => simp at hday
  | cons length lengths ih =>
      have hlength := hlengths length List.mem_cons_self
      rw [walkMonths]
      split
      · exact ⟨by simp, by simp only; omega⟩
      · have hrest := ih (month + 1) (day - length)
          (fun other hother => hlengths other (List.mem_cons_of_mem _ hother))
          (by simp only [List.sum_cons] at hday; omega)
        exact ⟨by simp only [List.length_cons]; omega, hrest.2⟩

theorem walkYears_snd_lt (fuel year day : Nat) (hfuel : day < fuel) :
    (walkYears fuel year day).2 < yearLength (walkYears fuel year day).1 := by
  induction fuel generalizing year day with
  | zero => omega
  | succ fuel ih =>
      have hlen := yearLength_pos year
      rw [walkYears]
      split
      · assumption
      · exact ih (year + 1) _ (by omega)

theorem sum_monthLengths (year : Nat) : (monthLengths year).sum = yearLength year := by
  rw [monthLengths, yearLength]
  split <;> rfl

/-- Every field behind the year fits two digits. -/
theorem gmtime_bounds (seconds : Nat) :
    (gmtime seconds).month < 100 ∧ (gmtime seconds).day < 100 ∧ (gmtime seconds).hour < 100 ∧
      (gmtime seconds).minute < 100 ∧ (gmtime seconds).second < 100 := by
  have hday := walkYears_snd_lt (seconds / 86400 + 1) 1970 (seconds / 86400) (Nat.lt_succ_self _)
  rw [← sum_monthLengths] at hday
  have hmonths : ∀ year, ∀ length ∈ monthLengths year, length ≤ 31 := by
    intro year length hmem
    simp only [monthLengths, List.mem_cons, List.not_mem_nil, or_false] at hmem
    split at hmem <;> omega
  obtain ⟨hmonth, hmday⟩ := walkMonths_bounds _ 1 _ (hmonths _) hday
  have htwelve : ∀ year, (monthLengths year).length = 12 := fun _ => rfl
  rw [htwelve] at hmonth
  simp only [gmtime]
  exact ⟨by omega, by omega, by omega, by omega, by omega⟩

/-- Two instants with one stamp are one instant. -/
theorem stamp_gmtime_injective : Function.Injective fun seconds => stamp (gmtime seconds) := by
  intro first second hequal
  obtain ⟨hmonth, hday, hhour, hminute, hsecond⟩ := gmtime_bounds first
  obtain ⟨hmonth', hday', hhour', hminute', hsecond'⟩ := gmtime_bounds second
  simp only [stamp] at hequal
  obtain ⟨hyears, hequal⟩ := List.append_inj' hequal (by simp [pad2])
  obtain ⟨hmonths, hequal⟩ := List.append_inj hequal (by simp [pad2])
  obtain ⟨hdays, hequal⟩ := List.append_inj hequal (by simp [pad2])
  obtain ⟨hhours, hequal⟩ := List.append_inj (List.append_cancel_left hequal) (by simp [pad2])
  obtain ⟨hminutes, hseconds⟩ := List.append_inj hequal (by simp [pad2])
  apply gmtime_injective
  have hcivil : ∀ t : CivilTime, t = ⟨t.year, t.month, t.day, t.hour, t.minute, t.second⟩ :=
    fun _ => rfl
  rw [hcivil (gmtime first), hcivil (gmtime second), decimal_injective hyears,
    pad2_injective hmonth hmonth' hmonths, pad2_injective hday hday' hdays,
    pad2_injective hhour hhour' hhours, pad2_injective hminute hminute' hminutes,
    pad2_injective hsecond hsecond' hseconds]

end Coreletd.Library.Calendar
