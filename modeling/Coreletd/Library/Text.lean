/-
# Byte text: decimal numbers and lines

Text files are byte strings. Decimal printing and reading are inverse on every
number, and writing lines with a terminator and splitting them again is the
identity as long as no line holds the terminator.
-/

import Mathlib.Data.Nat.Basic
import Mathlib.Tactic.IntervalCases
import Mathlib.Tactic.NormNum

namespace Coreletd.Library.Text

/-- The bytes of an ASCII literal. -/
def ascii (text : String) : List UInt8 := text.toList.map Char.toUInt8

/-! ## Decimal numbers -/

/-- The byte of one decimal digit. -/
def digitByte (digit : Nat) : UInt8 := UInt8.ofNat (48 + digit)

/-- Whether a byte is one of `0` to `9`. -/
def isDigit (byte : UInt8) : Bool := 48 ≤ byte.toNat && byte.toNat ≤ 57

/-- A number in decimal, without leading zeros. -/
def decimal (n : Nat) : List UInt8 := (Nat.toDigits 10 n).map Char.toUInt8

/-- Read one more digit onto a value. -/
def pushDigit (value : Nat) (byte : UInt8) : Nat := 10 * value + (byte.toNat - 48)

/-- The value of a non-empty string made of digits only. -/
def digitsValue (text : List UInt8) : Option Nat :=
  if text ≠ [] ∧ text.all isDigit then some (text.foldl pushDigit 0) else none

/-- A signed number in decimal. -/
def decimalInt (z : Int) : List UInt8 :=
  if z < 0 then 45 :: decimal z.natAbs else decimal z.natAbs

/-- The value of a digit string behind an optional minus sign. -/
def digitsValueInt (text : List UInt8) : Option Int :=
  match text with
  | 45 :: digits => (digitsValue digits).map Int.negOfNat
  | digits => (digitsValue digits).map Int.ofNat

theorem digitChar_toUInt8 {digit : Nat} (hdigit : digit < 10) :
    digit.digitChar.toUInt8 = digitByte digit := by
  interval_cases digit <;> rfl

theorem decimal_of_lt {n : Nat} (hn : n < 10) : decimal n = [digitByte n] := by
  rw [decimal, Nat.toDigits_of_lt_base hn, List.map_singleton, digitChar_toUInt8 hn]

theorem decimal_of_le {n : Nat} (hn : 10 ≤ n) :
    decimal n = decimal (n / 10) ++ [digitByte (n % 10)] := by
  rw [decimal, Nat.toDigits_of_base_le (by norm_num) hn, List.map_append, decimal,
    List.map_singleton, digitChar_toUInt8 (Nat.mod_lt n (by norm_num))]

theorem digitByte_toNat {digit : Nat} (hdigit : digit < 10) :
    (digitByte digit).toNat = 48 + digit := by
  simp only [digitByte, UInt8.toNat_ofNat']
  omega

theorem isDigit_digitByte {digit : Nat} (hdigit : digit < 10) :
    isDigit (digitByte digit) = true := by
  simp only [isDigit, digitByte_toNat hdigit, Bool.and_eq_true, decide_eq_true_eq]
  omega

theorem pushDigit_digitByte {value digit : Nat} (hdigit : digit < 10) :
    pushDigit value (digitByte digit) = 10 * value + digit := by
  rw [pushDigit, digitByte_toNat hdigit]
  omega

theorem decimal_ne_nil (n : Nat) : decimal n ≠ [] := by
  simp [decimal, Nat.toDigits_ne_nil]

theorem all_isDigit_decimal (n : Nat) : (decimal n).all isDigit = true := by
  induction n using Nat.strong_induction_on with
  | _ n ih =>
      by_cases hn : n < 10
      · simp [decimal_of_lt hn, isDigit_digitByte hn]
      · rw [decimal_of_le (by omega), List.all_append, ih (n / 10) (by omega)]
        simp [isDigit_digitByte (Nat.mod_lt n (by norm_num))]

theorem foldl_pushDigit_decimal (n : Nat) : (decimal n).foldl pushDigit 0 = n := by
  induction n using Nat.strong_induction_on with
  | _ n ih =>
      by_cases hn : n < 10
      · simp [decimal_of_lt hn, pushDigit_digitByte hn]
      · rw [decimal_of_le (by omega), List.foldl_append, ih (n / 10) (by omega)]
        simp only [List.foldl_cons, List.foldl_nil,
          pushDigit_digitByte (Nat.mod_lt n (by norm_num : 0 < 10))]
        omega

/-- Reading back what was printed gives the number. -/
@[simp]
theorem digitsValue_decimal (n : Nat) : digitsValue (decimal n) = some n := by
  rw [digitsValue, if_pos ⟨decimal_ne_nil n, all_isDigit_decimal n⟩,
    foldl_pushDigit_decimal]

theorem isDigit_of_mem_decimal {n : Nat} {byte : UInt8} (hmem : byte ∈ decimal n) :
    isDigit byte = true :=
  List.all_eq_true.mp (all_isDigit_decimal n) byte hmem

theorem decimal_injective : Function.Injective decimal := by
  intro first second hequal
  have hvalue := digitsValue_decimal first
  rw [hequal, digitsValue_decimal] at hvalue
  exact (Option.some.inj hvalue).symm

/-- Reading back a printed signed number gives the number. -/
@[simp]
theorem digitsValueInt_decimalInt (z : Int) : digitsValueInt (decimalInt z) = some z := by
  by_cases hz : z < 0
  · rw [decimalInt, if_pos hz]
    simp only [digitsValueInt, digitsValue_decimal, Option.map_some, Int.negOfNat_eq]
    congr 1
    simp only [Int.ofNat_eq_natCast]
    omega
  · rw [decimalInt, if_neg hz]
    have hhead : ∀ tail, decimal z.natAbs ≠ 45 :: tail := by
      intro tail hequal
      have hdigit : isDigit 45 = true :=
        isDigit_of_mem_decimal (n := z.natAbs) (by rw [hequal]; exact List.mem_cons_self)
      exact absurd hdigit (by decide)
    rw [digitsValueInt]
    · rw [digitsValue_decimal, Option.map_some]
      congr 1
      simp only [Int.ofNat_eq_natCast]
      omega
    · intro tail hequal
      exact hhead tail hequal

/-- Only digits and the sign are ever printed. -/
theorem mem_decimalInt {z : Int} {byte : UInt8} (hmem : byte ∈ decimalInt z) :
    byte = 45 ∨ isDigit byte = true := by
  rw [decimalInt] at hmem
  split at hmem
  · rcases List.mem_cons.mp hmem with rfl | hmem
    · exact .inl rfl
    · exact .inr (isDigit_of_mem_decimal hmem)
  · exact .inr (isDigit_of_mem_decimal hmem)

/-! ## Lines -/

/-- Split off lines the way repeated line reads do: up to each separator, and
whatever follows the last one when that is not empty. -/
def linesFrom (separator : UInt8) : List UInt8 → List UInt8 → List (List UInt8)
  | pending, [] => if pending = [] then [] else [pending]
  | pending, byte :: bytes =>
      if byte = separator then pending :: linesFrom separator [] bytes
      else linesFrom separator (pending ++ [byte]) bytes

/-- The lines of a byte string. -/
def lines (separator : UInt8) (content : List UInt8) : List (List UInt8) :=
  linesFrom separator [] content

theorem linesFrom_line (separator : UInt8) (pending line rest : List UInt8)
    (hline : separator ∉ line) :
    linesFrom separator pending (line ++ separator :: rest) =
      (pending ++ line) :: linesFrom separator [] rest := by
  induction line generalizing pending with
  | nil => simp [linesFrom]
  | cons byte line ih =>
      have hbyte : byte ≠ separator := fun hequal => hline (by simp [hequal])
      rw [List.cons_append, linesFrom, if_neg hbyte,
        ih (pending ++ [byte]) (fun hmem => hline (List.mem_cons_of_mem _ hmem))]
      simp

/-- Terminated lines split back into exactly those lines. -/
theorem lines_flatMap (separator : UInt8) (content : List (List UInt8))
    (hcontent : ∀ line ∈ content, separator ∉ line) :
    lines separator (content.flatMap fun line => line ++ [separator]) = content := by
  induction content with
  | nil => rfl
  | cons line content ih =>
      rw [lines, List.flatMap_cons, List.append_assoc, List.singleton_append,
        linesFrom_line separator [] line _ (hcontent line List.mem_cons_self)]
      rw [List.nil_append]
      congr 1
      exact ih fun other hother => hcontent other (List.mem_cons_of_mem _ hother)

end Coreletd.Library.Text
