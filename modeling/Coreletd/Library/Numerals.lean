/-
# C's numerals

What `strtoll` with base 0 and `strtod` make of a text that has to be a numeral
from its first byte that is not white space to its end, without a range error,
and what `printf` writes for a double with `%.*f` and `%.17g`. A text that names
an infinity or is not a number has no value here.
-/

import Coreletd.Library.Binary64
import Coreletd.Library.Text

namespace Coreletd.Library.Numerals

open Coreletd.Library.Text

/-- What `isspace` accepts. -/
def isSpace (byte : UInt8) : Bool := byte = 32 || (9 ≤ byte.toNat && byte.toNat ≤ 13)

/-- An optional sign, and what follows it. -/
def takeSign (text : List UInt8) : Bool × List UInt8 :=
  match text with
  | 45 :: rest => (true, rest)
  | 43 :: rest => (false, rest)
  | rest => (false, rest)

/-- The value of a digit in the bases up to sixteen. -/
def digitOf (byte : UInt8) : Option Nat :=
  if 48 ≤ byte.toNat ∧ byte.toNat ≤ 57 then some (byte.toNat - 48)
  else if 97 ≤ byte.toNat ∧ byte.toNat ≤ 102 then some (byte.toNat - 87)
  else if 65 ≤ byte.toNat ∧ byte.toNat ≤ 70 then some (byte.toNat - 55)
  else none

/-- The byte is a digit of the base. -/
def isDigitIn (base : Nat) (byte : UInt8) : Bool :=
  match digitOf byte with
  | some digit => decide (digit < base)
  | none => false

/-- Read one more digit onto a value. -/
def pushDigitIn (base value : Nat) (byte : UInt8) : Nat :=
  base * value + (digitOf byte).getD 0

def digitsIn (base : Nat) (text : List UInt8) : Nat := text.foldl (pushDigitIn base) 0

/-- The value of a non-empty string of digits of the base. -/
def natIn (base : Nat) (text : List UInt8) : Option Nat :=
  if text ≠ [] ∧ text.all (isDigitIn base) then some (digitsIn base text) else none

/-- A `0x` with something behind it. -/
def takeHexPrefix (text : List UInt8) : Option (List UInt8) :=
  match text with
  | 48 :: x :: rest => if x = 120 ∨ x = 88 then some rest else none
  | _ => none

/-- The magnitude of an integer numeral, its base told from how it starts. -/
def magnitude (text : List UInt8) : Option Nat :=
  match takeHexPrefix text with
  | some rest => natIn 16 rest
  | none => if text.head? = some 48 then natIn 8 text else natIn 10 text

/-- `strtoll` with base 0. -/
def strtoll (text : List UInt8) : Option Int :=
  let (negative, rest) := takeSign (text.dropWhile isSpace)
  match magnitude rest with
  | none => none
  | some n =>
      let value : Int := if negative then -n else n
      if -9223372036854775808 ≤ value ∧ value < 9223372036854775808 then some value else none

/-- The text up to a marker and, if there is one, what follows it. -/
def splitAtMarker (marks : UInt8 → Bool) (text : List UInt8) : List UInt8 × Option (List UInt8) :=
  (text.takeWhile (!marks ·), (text.dropWhile (!marks ·)).tail?)

/-- An exponent: decimal digits behind an optional sign. -/
def exponentOf (text : List UInt8) : Option Int :=
  let (negative, digits) := takeSign text
  (natIn 10 digits).map fun n => if negative then -(n : Int) else n

/-- Digits with at most one point among them: their value without the point,
and how many follow it. -/
def significandIn (base : Nat) (text : List UInt8) : Option (Nat × Nat) :=
  let (whole, fraction) := splitAtMarker (· = 46) text
  let fraction := fraction.getD []
  (natIn base (whole ++ fraction)).map fun n => (n, fraction.length)

/-- A numeral of the base with an exponent behind one of the markers, whose unit
is `unit`. -/
def scaledIn (base : Nat) (unit : ℚ) (marks : UInt8 → Bool) (text : List UInt8) : Option ℚ :=
  let (significand, exponent) := splitAtMarker marks text
  match significandIn base significand, exponent.elim (some 0) exponentOf with
  | some (n, places), some e => some (n / (base : ℚ) ^ places * unit ^ e)
  | _, _ => none

/-- The exact value of an unsigned numeral. -/
def exactOf (text : List UInt8) : Option ℚ :=
  match takeHexPrefix text with
  | some rest => scaledIn 16 2 (fun byte => byte = 112 || byte = 80) rest
  | none => scaledIn 10 10 (fun byte => byte = 101 || byte = 69) text

/-- `strtod`: too large a value is a range error, and so is one so small that
rounding it loses bits. -/
def strtod (text : List UInt8) : Option ℚ :=
  let (negative, rest) := takeSign (text.dropWhile isSpace)
  match exactOf rest with
  | none => none
  | some exact =>
      let value := Binary64.nearest exact
      if Binary64.overflow ≤ value then none
      else if value < Binary64.minNormal ∧ value ≠ exact then none
      else some (if negative then -value else value)

/-! ## Printing -/

def signOf (q : ℚ) : List UInt8 := if q < 0 then [45] else []

/-- A number in decimal with at least so many digits. -/
def padded (width n : Nat) : List UInt8 :=
  List.replicate (width - (decimal n).length) 48 ++ decimal n

/-- `%.*f`. -/
def fixed (decimals : Nat) (q : ℚ) : List UInt8 :=
  let n := (Binary64.roundHalfEven (|q| * 10 ^ decimals)).toNat
  signOf q ++ decimal (n / 10 ^ decimals) ++
    if decimals = 0 then [] else 46 :: padded decimals (n % 10 ^ decimals)

/-- The exponent of the largest power of ten up to a positive rational. -/
def log10Floor (q : ℚ) : ℤ :=
  if 1 ≤ q then ((decimal ⌊q⌋.toNat).length - 1 : ℕ)
  else -((decimal (⌈q⁻¹⌉.toNat - 1)).length : ℤ)

/-- Seventeen significant digits of a positive rational, as an integer, and the
exponent of the first. -/
def significant17 (q : ℚ) : Nat × ℤ :=
  let exponent := log10Floor q
  let n := (Binary64.roundHalfEven (q / 10 ^ (exponent - 16))).toNat
  if n = 10 ^ 17 then (10 ^ 16, exponent + 1) else (n, exponent)

/-- Without the zeros at the end, and without a point that ends up last. -/
def stripZeros (text : List UInt8) : List UInt8 :=
  let kept := (text.reverse.dropWhile (· = 48)).reverse
  if kept.getLast? = some 46 then kept.dropLast else kept

/-- `%.17g`: fixed point for exponents from -4 to 16, and scientific notation for
the others. -/
def general17 (q : ℚ) : List UInt8 :=
  if q = 0 then [48]
  else
    let (n, exponent) := significant17 |q|
    let digits := decimal n
    signOf q ++
      if -4 ≤ exponent ∧ exponent ≤ 16 then
        if 0 ≤ exponent then
          let whole := exponent.toNat + 1
          if whole = 17 then digits
          else stripZeros (digits.take whole ++ 46 :: digits.drop whole)
        else stripZeros ([48, 46] ++ List.replicate (exponent.natAbs - 1) 48 ++ digits)
      else
        stripZeros (digits.take 1 ++ 46 :: digits.drop 1) ++
          [101, if exponent < 0 then 45 else 43] ++ padded 2 exponent.natAbs

/-! ## Reading back what was printed -/

theorem digitOf_of_isDigit {byte : UInt8} (hbyte : isDigit byte = true) :
    digitOf byte = some (byte.toNat - 48) := by
  simp only [isDigit, Bool.and_eq_true, decide_eq_true_eq] at hbyte
  rw [digitOf, if_pos hbyte]

theorem isDigitIn_of_isDigit {byte : UInt8} (hbyte : isDigit byte = true) :
    isDigitIn 10 byte = true := by
  rw [isDigitIn, digitOf_of_isDigit hbyte]
  simp only [isDigit, Bool.and_eq_true, decide_eq_true_eq] at hbyte ⊢
  omega

theorem digitsIn_ten {text : List UInt8} (htext : ∀ byte ∈ text, isDigit byte = true) :
    digitsIn 10 text = text.foldl pushDigit 0 := by
  rw [digitsIn]
  generalize 0 = value
  induction text generalizing value with
  | nil => rfl
  | cons byte rest ih =>
      rw [List.foldl_cons, List.foldl_cons, ih fun other hother =>
        htext other (List.mem_cons_of_mem _ hother), pushDigitIn, pushDigit,
        digitOf_of_isDigit (htext byte List.mem_cons_self), Option.getD_some]

/-- Decimal digits are read as the number they print. -/
theorem natIn_decimal (n : Nat) : natIn 10 (decimal n) = some n := by
  have hdigits : ∀ byte ∈ decimal n, isDigit byte = true := fun _ => isDigit_of_mem_decimal
  rw [natIn, if_pos ⟨decimal_ne_nil n, List.all_eq_true.mpr fun byte hbyte =>
    isDigitIn_of_isDigit (hdigits byte hbyte)⟩, digitsIn_ten hdigits, foldl_pushDigit_decimal]

/-- Only zero is printed with a leading zero. -/
theorem head_decimal {n : Nat} (hn : 0 < n) : (decimal n).head? ≠ some 48 := by
  induction n using Nat.strong_induction_on with
  | _ n ih =>
      by_cases hsmall : n < 10
      · rw [decimal_of_lt hsmall, List.head?_cons, Ne, Option.some.injEq]
        intro hzero
        have hvalue := congrArg UInt8.toNat hzero
        rw [digitByte_toNat hsmall] at hvalue
        exact absurd hvalue (by simp; omega)
      · rw [decimal_of_le (by omega), List.head?_append_of_ne_nil _ (decimal_ne_nil _)]
        exact ih (n / 10) (by omega) (by omega)

theorem magnitude_decimal (n : Nat) : magnitude (decimal n) = some n := by
  by_cases hn : n = 0
  · subst hn
    decide
  have hhead := head_decimal (Nat.pos_of_ne_zero hn)
  have hhex : takeHexPrefix (decimal n) = none := by
    rw [takeHexPrefix]
    intro x rest htext
    rw [htext] at hhead
    exact hhead rfl
  rw [magnitude, hhex]
  simp only [if_neg hhead]
  exact natIn_decimal n

/-- `strtoll` reads back a printed integer. -/
theorem strtoll_decimalInt {z : Int} (hlow : -9223372036854775808 ≤ z)
    (hhigh : z < 9223372036854775808) : strtoll (decimalInt z) = some z := by
  have hdigit : ∀ byte ∈ decimal z.natAbs, isSpace byte = false ∧ byte ≠ 45 ∧ byte ≠ 43 := by
    intro byte hbyte
    have hrange := isDigit_of_mem_decimal hbyte
    simp only [isDigit, Bool.and_eq_true, decide_eq_true_eq] at hrange
    refine ⟨?_, ?_, ?_⟩
    · simp only [isSpace, Bool.or_eq_false_iff, decide_eq_false_iff_not, Bool.and_eq_false_iff]
      refine ⟨?_, .inr (by omega)⟩
      rintro rfl
      exact absurd hrange.1 (by decide)
    · rintro rfl
      exact absurd hrange.1 (by decide)
    · rintro rfl
      exact absurd hrange.1 (by decide)
  have hplain : takeSign ((decimal z.natAbs).dropWhile isSpace) = (false, decimal z.natAbs) := by
    cases htext : decimal z.natAbs with
    | nil => exact absurd htext (decimal_ne_nil _)
    | cons byte rest =>
        obtain ⟨hspace, hminus, hplus⟩ := hdigit byte (htext ▸ List.mem_cons_self)
        rw [List.dropWhile_cons_of_neg (by simp [hspace]), takeSign]
        · exact fun _ hequal => hminus (List.cons.inj hequal).1
        · exact fun _ hequal => hplus (List.cons.inj hequal).1
  rw [decimalInt]
  split
  next hneg =>
    have hsign : takeSign ((45 :: decimal z.natAbs).dropWhile isSpace) =
        (true, decimal z.natAbs) := rfl
    rw [strtoll, hsign]
    simp only [magnitude_decimal, if_true]
    rw [if_pos (by omega)]
    congr 1
    omega
  next hneg =>
    rw [strtoll, hplain]
    simp only [magnitude_decimal, Bool.false_eq_true, if_false]
    rw [if_pos (by omega)]
    congr 1
    omega

/-- The bytes that numbers are printed with. -/
def isNumeric (byte : UInt8) : Bool :=
  isDigit byte || byte = 43 || byte = 45 || byte = 46 || byte = 101

theorem isNumeric_of_isDigit {byte : UInt8} (hbyte : isDigit byte = true) :
    isNumeric byte = true := by
  simp [isNumeric, hbyte]

theorem numeric_decimal {n : Nat} {byte : UInt8} (hmem : byte ∈ decimal n) :
    isNumeric byte = true :=
  isNumeric_of_isDigit (isDigit_of_mem_decimal hmem)

theorem numeric_padded {width n : Nat} {byte : UInt8} (hmem : byte ∈ padded width n) :
    isNumeric byte = true := by
  rcases List.mem_append.mp hmem with hzero | hdigit
  · rw [(List.mem_replicate.mp hzero).2]
    rfl
  · exact numeric_decimal hdigit

theorem numeric_signOf {q : ℚ} {byte : UInt8} (hmem : byte ∈ signOf q) :
    isNumeric byte = true := by
  rw [signOf] at hmem
  split at hmem
  · rw [List.mem_singleton.mp hmem]
    rfl
  · simp at hmem

theorem numeric_fixed {decimals : Nat} {q : ℚ} {byte : UInt8} (hmem : byte ∈ fixed decimals q) :
    isNumeric byte = true := by
  rcases List.mem_append.mp hmem with hwhole | hfraction
  · rcases List.mem_append.mp hwhole with hsign | hdigit
    · exact numeric_signOf hsign
    · exact numeric_decimal hdigit
  · split at hfraction
    · simp at hfraction
    · rcases List.mem_cons.mp hfraction with rfl | hdigit
      · rfl
      · exact numeric_padded hdigit

theorem mem_stripZeros {text : List UInt8} {byte : UInt8} (hmem : byte ∈ stripZeros text) :
    byte ∈ text := by
  have hkept : ∀ other, other ∈ (text.reverse.dropWhile (· = 48)).reverse → other ∈ text := by
    intro other hother
    exact List.mem_reverse.mp ((List.dropWhile_sublist _).mem (List.mem_reverse.mp hother))
  rw [stripZeros] at hmem
  split at hmem
  · exact hkept byte (List.mem_of_mem_dropLast hmem)
  · exact hkept byte hmem

theorem numeric_general17 {q : ℚ} {byte : UInt8} (hmem : byte ∈ general17 q) :
    isNumeric byte = true := by
  rw [general17] at hmem
  split at hmem
  · rw [List.mem_singleton.mp hmem]
    rfl
  -- A point among digits, and in front of them a zero and more zeros.
  have hpointed : ∀ (before after : List UInt8) (n : Nat),
      (∀ b ∈ before, b ∈ decimal n) → (∀ b ∈ after, b ∈ decimal n) →
      ∀ b ∈ stripZeros (before ++ 46 :: after), isNumeric b = true := by
    intro before after n hbefore hafter b hb
    rcases List.mem_append.mp (mem_stripZeros hb) with hfirst | hrest
    · exact numeric_decimal (hbefore b hfirst)
    · rcases List.mem_cons.mp hrest with rfl | hlast
      · rfl
      · exact numeric_decimal (hafter b hlast)
  generalize significant17 |q| = rounded at hmem
  obtain ⟨n, exponent⟩ := rounded
  dsimp only at hmem
  rcases List.mem_append.mp hmem with hsign | hmem
  · exact numeric_signOf hsign
  split at hmem
  · split at hmem
    · split at hmem
      · exact numeric_decimal hmem
      · exact hpointed _ _ _ (fun _ => List.mem_of_mem_take) (fun _ => List.mem_of_mem_drop) _ hmem
    · rcases List.mem_append.mp (mem_stripZeros hmem) with hzeros | hdigit
      · rcases List.mem_append.mp hzeros with hstart | hzero
        · rcases List.mem_cons.mp hstart with rfl | hpoint
          · rfl
          · rw [List.mem_singleton.mp hpoint]
            rfl
        · rw [(List.mem_replicate.mp hzero).2]
          rfl
      · exact numeric_decimal hdigit
  · rcases List.mem_append.mp hmem with hhead | hexponent
    · rcases List.mem_append.mp hhead with hdigit | hmark
      · exact hpointed _ _ _ (fun _ => List.mem_of_mem_take) (fun _ => List.mem_of_mem_drop) _
          hdigit
      · rcases List.mem_cons.mp hmark with rfl | hsign
        · rfl
        · rw [List.mem_singleton.mp hsign]
          split <;> rfl
    · exact numeric_padded hexponent

theorem numeric_decimalInt {z : Int} {byte : UInt8} (hmem : byte ∈ decimalInt z) :
    isNumeric byte = true := by
  rcases mem_decimalInt hmem with rfl | hdigit
  · rfl
  · exact isNumeric_of_isDigit hdigit

end Coreletd.Library.Numerals
