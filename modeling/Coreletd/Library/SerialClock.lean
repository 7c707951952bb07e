/-
# A millisecond clock read modulo 2^32

True time is an unbounded natural number; what a program sees of it is its
residue in 32 bits. Programs compare such readings through the sign of their
difference. The lemmas say when that comparison is the comparison of true
times: exactly when the two are less than 2^31 apart.
-/

import Mathlib.Data.Int.Basic
import Mathlib.Tactic.NormNum

namespace Coreletd.Library.SerialClock

/-- What a 32-bit clock shows at true time `t`. -/
def reading (t : Nat) : UInt32 := UInt32.ofNat t

/-- A 32-bit word read as a two's-complement integer. -/
def signed (word : UInt32) : Int := word.toInt32.toInt

theorem reading_add (t delay : Nat) :
    reading (t + delay) = reading t + UInt32.ofNat delay := by
  simp [reading]

/-- Adding a 32-bit delay to a reading is reading the later time. -/
theorem reading_add_word (t : Nat) (delay : UInt32) :
    reading t + delay = reading (t + delay.toNat) := by
  simp [reading]

theorem toNat_reading (t : Nat) : (reading t).toNat = t % 2 ^ 32 := by
  simp [reading]

/-- The signed difference of two readings is the true difference, balanced
modulo 2^32. -/
theorem signed_sub (a b : Nat) :
    signed (reading a - reading b) = Int.bmod ((a : Int) - b) (2 ^ 32) := by
  simp [signed, reading]

/-- Balanced residues written out, for the decision procedure. -/
theorem signed_sub_eq_ite (a b : Nat) :
    signed (reading a - reading b) =
      if ((a : Int) - b) % 4294967296 < 2147483648 then ((a : Int) - b) % 4294967296
      else ((a : Int) - b) % 4294967296 - 4294967296 := by
  rw [signed_sub, Int.bmod_def]
  norm_num

/-- The unsigned difference of two readings is the true one in 32 bits. -/
theorem toNat_reading_sub {earlier later : Nat} (hle : earlier ≤ later) :
    (reading later - reading earlier).toNat = (later - earlier) % 2 ^ 32 := by
  rw [UInt32.toNat_sub, toNat_reading, toNat_reading]
  omega

/-- It is never more than the true one. -/
theorem toNat_reading_sub_le {earlier later : Nat} (hle : earlier ≤ later) :
    (reading later - reading earlier).toNat ≤ later - earlier := by
  rw [toNat_reading_sub hle]
  exact Nat.mod_le _ _

/-- Within half the clock's range the signed difference is exact. -/
theorem signed_sub_of_near {a b : Nat} (hlow : b ≤ a + 2 ^ 31) (hhigh : a < b + 2 ^ 31) :
    signed (reading a - reading b) = (a : Int) - b := by
  rw [signed_sub_eq_ite]
  split <;> omega

/-- A deadline less than half the range away is reported as passed exactly when
it has passed. -/
theorem signed_sub_nonpos_iff {deadline now : Nat}
    (hlow : now ≤ deadline + 2 ^ 31) (hhigh : deadline < now + 2 ^ 31) :
    signed (reading deadline - reading now) ≤ 0 ↔ deadline ≤ now := by
  rw [signed_sub_of_near hlow hhigh]
  omega

/-- A reading never lies about a deadline that is still ahead and near. -/
theorem signed_sub_pos_of_ahead {deadline now : Nat} (hahead : now < deadline)
    (hnear : deadline < now + 2 ^ 31) :
    0 < signed (reading deadline - reading now) := by
  rw [signed_sub_of_near (by omega) hnear]
  omega

end Coreletd.Library.SerialClock
