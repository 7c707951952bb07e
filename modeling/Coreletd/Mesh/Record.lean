/-
# Line-per-record state files

The three stores share one file shape: a version header, then one record a line
with its fields separated by tabs. This module has the field splitting and the
range-checked number parsing, with the two facts every store's round trip rests
on: joined fields split again, and a printed number in range parses.
-/

import Coreletd.Library.Text
import Coreletd.Util.Bytes

namespace Coreletd.Mesh

open Coreletd.Library.Text

/-- What a store found when it went to read its file. -/
inductive LoadResult
  | missing
  | loaded
  | corrupt
  deriving DecidableEq, Repr

def tab : UInt8 := 9
def lf : UInt8 := 10
def cr : UInt8 := 13

/-- One pass of the splitting loop a field; what is left is the last field and
may hold no further tab. -/
def splitLoop : Nat → Bytes → Option (List Bytes)
  | 0, line => if tab ∈ line then none else some [line]
  | n + 1, line =>
      if tab ∈ line then
        (splitLoop n ((line.dropWhile (· ≠ tab)).drop 1)).map
          fun fields => line.takeWhile (· ≠ tab) :: fields
      else none

/-- Split into exactly `count` fields, or refuse the line. -/
def splitFields (line : Bytes) (count : Nat) : Option (List Bytes) := splitLoop (count - 1) line

/-- `std::from_chars` into a `uint64_t`, then the caller's maximum. -/
def parseUnsigned (text : Bytes) (max : Nat) : Option Nat :=
  match digitsValue text with
  | some parsed => if parsed < 2 ^ 64 ∧ parsed ≤ max then some parsed else none
  | none => none

/-- `std::from_chars` into an `int64_t`, then the caller's range. -/
def parseSigned (text : Bytes) (min max : Int) : Option Int :=
  match digitsValueInt text with
  | some parsed =>
      if (-(2 ^ 63) ≤ parsed ∧ parsed < 2 ^ 63) ∧ min ≤ parsed ∧ parsed ≤ max then some parsed
      else none
  | none => none

/-- The line a record's fields are written as. -/
def joinFields : List Bytes → Bytes
  | [] => []
  | [field] => field
  | field :: fields => field ++ tab :: joinFields fields

theorem joinFields_cons (field : Bytes) {fields : List Bytes} (hne : fields ≠ []) :
    joinFields (field :: fields) = field ++ tab :: joinFields fields := by
  cases fields with
  | nil => exact absurd rfl hne
  | cons other fields => rfl

/-- Fields without tabs split back into themselves. -/
theorem splitFields_joinFields (fields : List Bytes) (hne : fields ≠ [])
    (hfields : ∀ field ∈ fields, tab ∉ field) :
    splitFields (joinFields fields) fields.length = some fields := by
  rw [splitFields]
  induction fields with
  | nil => exact absurd rfl hne
  | cons field fields ih =>
      have hfield : tab ∉ field := hfields field List.mem_cons_self
      cases fields with
      | nil => simp [joinFields, splitLoop, hfield]
      | cons next fields =>
          have hbefore : ∀ byte ∈ field, decide (byte ≠ tab) = true := by
            intro byte hbyte
            exact decide_eq_true fun hequal => hfield (hequal ▸ hbyte)
          have htail := ih (by simp) fun other hother =>
            hfields other (List.mem_cons_of_mem _ hother)
          rw [joinFields_cons field (by simp)]
          simp only [List.length_cons, Nat.add_sub_cancel] at htail ⊢
          rw [splitLoop, if_pos (by simp), List.dropWhile_append_of_pos hbefore,
            List.takeWhile_append_of_pos hbefore]
          simp [htail]

theorem parseUnsigned_decimal {n max : Nat} (hmax : n ≤ max) (hbound : max < 2 ^ 64) :
    parseUnsigned (decimal n) max = some n := by
  simp only [parseUnsigned, digitsValue_decimal]
  rw [if_pos ⟨by omega, hmax⟩]

/-- A printed number in 64 bits parses exactly when it is in the caller's
range. -/
theorem parseSigned_decimalInt {z min max : Int} (hlow : -(2 ^ 63) ≤ z) (hhigh : z < 2 ^ 63) :
    parseSigned (decimalInt z) min max = if min ≤ z ∧ z ≤ max then some z else none := by
  simp only [parseSigned, digitsValueInt_decimalInt]
  simp only [hlow, hhigh, and_self, true_and]

theorem of_parseUnsigned {text : Bytes} {max n : Nat} (hparse : parseUnsigned text max = some n) :
    n ≤ max := by
  rw [parseUnsigned] at hparse
  split at hparse
  · split at hparse
    next hrange =>
      obtain rfl := Option.some.inj hparse
      exact hrange.2
    · cases hparse
  · cases hparse

theorem parseUnsigned_byte (v : UInt8) :
    parseUnsigned (decimal v.toNat) 255 = some v.toNat :=
  parseUnsigned_decimal (Nat.le_of_lt_succ v.toNat_lt) (by norm_num)

theorem parseUnsigned_word (v : UInt32) :
    parseUnsigned (decimal v.toNat) 4294967295 = some v.toNat :=
  parseUnsigned_decimal (Nat.le_of_lt_succ v.toNat_lt) (by norm_num)

/-! ## Fields hold no separator -/

theorem tab_not_mem_hex (b : Bytes) : tab ∉ hex b :=
  fun hmem => absurd (nibble_isSome_of_mem_hex hmem) (by decide)

theorem lf_not_mem_hex (b : Bytes) : lf ∉ hex b :=
  fun hmem => absurd (nibble_isSome_of_mem_hex hmem) (by decide)

theorem tab_not_mem_decimal (n : Nat) : tab ∉ decimal n :=
  fun hmem => absurd (isDigit_of_mem_decimal hmem) (by decide)

theorem lf_not_mem_decimal (n : Nat) : lf ∉ decimal n :=
  fun hmem => absurd (isDigit_of_mem_decimal hmem) (by decide)

theorem tab_not_mem_decimalInt (z : Int) : tab ∉ decimalInt z :=
  fun hmem => absurd (mem_decimalInt hmem) (by decide)

theorem lf_not_mem_decimalInt (z : Int) : lf ∉ decimalInt z :=
  fun hmem => absurd (mem_decimalInt hmem) (by decide)

theorem lf_not_mem_joinFields {fields : List Bytes} (hfields : ∀ field ∈ fields, lf ∉ field) :
    lf ∉ joinFields fields := by
  induction fields with
  | nil => exact List.not_mem_nil
  | cons field fields ih =>
      have hfield := hfields field List.mem_cons_self
      cases fields with
      | nil => exact hfield
      | cons next fields =>
          have hrest := ih fun other hother => hfields other (List.mem_cons_of_mem _ hother)
          rw [joinFields_cons field (by simp)]
          intro hmem
          rcases List.mem_append.mp hmem with hmem | hmem
          · exact hfield hmem
          · rcases List.mem_cons.mp hmem with hequal | hmem
            · exact absurd hequal (by decide)
            · exact hrest hmem

end Coreletd.Mesh
