/-
# Integer settings

A row of the settings table that lands in an integer field states its range; the
check is made once, on the 64-bit value the file gives, before it is narrowed
into the field.
-/

import Mathlib.Data.Int.Basic

namespace Coreletd.Daemon

/-- What `get_int64` finds under a key: nothing or an empty value, a text that
is not an integer of 64 bits, or its value. -/
inductive IniInt where
  | absent
  | malformed
  | value (v : Int)

/-- A row of the table for an integer field. -/
structure IntTarget where
  key : String
  min : Int
  max : Int

/-- `apply` on such a row; `current` is the field's value, which is the
default. -/
def IntTarget.apply (target : IntTarget) (current : Int) : IniInt → Except String Int
  | .malformed => .error (target.key ++ ": not an integer")
  | .absent => check current
  | .value v => check v
where
  /-- The range the row states. -/
  check (v : Int) : Except String Int :=
    if v < target.min ∨ v > target.max then
      .error (target.key ++ " must be between " ++ toString target.min ++ " and " ++
        toString target.max)
    else .ok v

/-- Whatever a row lets through is within its range. -/
theorem IntTarget.apply_ok {target : IntTarget} {current v : Int} {ini : IniInt}
    (hok : target.apply current ini = .ok v) : target.min ≤ v ∧ v ≤ target.max := by
  have hcheck : ∀ w, apply.check target w = .ok v → target.min ≤ v ∧ v ≤ target.max := by
    intro w hw
    rw [apply.check] at hw
    split at hw
    · simp at hw
    · rename_i hrange
      obtain rfl := Except.ok.inj hw
      omega
  cases ini with
  | absent => exact hcheck current hok
  | malformed => exact absurd hok (by simp [apply])
  | value w => exact hcheck w hok

/-- The longest interval whose milliseconds fit in 32 bits. -/
def kMaxTimerDelaySeconds : Int := 4294967295 / 1000

def advertInterval : IntTarget :=
  { key := "node.advert_interval", min := 0, max := kMaxTimerDelaySeconds }

/-- `Config::load` on `node.advert_interval`, narrowed into the field. -/
def loadAdvertInterval (current : UInt32) (ini : IniInt) : Except String UInt32 :=
  match advertInterval.apply current.toNat ini with
  | .ok v => .ok (UInt32.ofNat v.toNat)
  | .error why => .error why

/-- The accepted intervals are those whose milliseconds fit in 32 bits. -/
theorem loadAdvertInterval_ok {current seconds : UInt32} {ini : IniInt}
    (hok : loadAdvertInterval current ini = .ok seconds) : seconds.toNat ≤ 4294967 := by
  rw [loadAdvertInterval] at hok
  split at hok
  · rename_i v hv
    have hrange := IntTarget.apply_ok hv
    have hmax : advertInterval.max = 4294967 := by decide
    obtain rfl := Except.ok.inj hok
    rw [UInt32.toNat_ofNat']
    exact Nat.le_trans (Nat.mod_le _ _) (by omega)
  · simp at hok

end Coreletd.Daemon
