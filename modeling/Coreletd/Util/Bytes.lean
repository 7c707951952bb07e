/-
# Byte strings, the bounds-checked reader and hex

Everything on the wire and in the state files is a byte string, and the decoders
share one cursor whose failure is sticky: a read past the end consumes nothing,
yields zero and fails every later read. `std::string` is a byte string too, so
names and file contents use the same type.
-/

import Mathlib.Data.List.Basic
import Mathlib.Data.List.TakeWhile
import Mathlib.Tactic.NormNum

namespace Coreletd

/-- `clt::Bytes`, `ByteView` and `std::string`. -/
abbrev Bytes : Type := List UInt8

/-- What holds of the 256 values of a byte holds of every byte. -/
theorem forall_byte {P : UInt8 → Prop} (hall : ∀ n : Fin 256, P (UInt8.ofNat n)) (byte : UInt8) :
    P byte := by
  simpa using hall ⟨byte.toNat, byte.toNat_lt⟩

/-- A cursor over a byte view: what has not been consumed yet, and whether every
read so far was in bounds. -/
structure Reader where
  left : Bytes
  ok : Bool := true

namespace Reader

def ofBytes (b : Bytes) : Reader := { left := b }

def remaining (r : Reader) : Nat := r.left.length

def has (r : Reader) (n : Nat) : Bool := r.ok && decide (n ≤ r.remaining)

/-- Consume `n` bytes, or nothing at all when fewer remain. -/
def take (r : Reader) (n : Nat) : Bytes × Reader :=
  if r.has n then (r.left.take n, { r with left := r.left.drop n })
  else ([], { r with ok := false })

def skip (r : Reader) (n : Nat) : Reader := (r.take n).2

def u8 (r : Reader) : UInt8 × Reader :=
  let (b, r) := r.take 1
  (b.headD 0, r)

def u16 (r : Reader) : UInt16 × Reader :=
  match r.take 2 with
  | ([b0, b1], r) => (b0.toUInt16 ||| (b1.toUInt16 <<< 8), r)
  | (_, r) => (0, r)

def u32 (r : Reader) : UInt32 × Reader :=
  match r.take 4 with
  | ([b0, b1, b2, b3], r) =>
      (b0.toUInt32 ||| (b1.toUInt32 <<< 8) ||| (b2.toUInt32 <<< 16) ||| (b3.toUInt32 <<< 24), r)
  | (_, r) => (0, r)

def i32 (r : Reader) : Int32 × Reader :=
  let (v, r) := r.u32
  (v.toInt32, r)

/-- A fixed-width field up to its first NUL. -/
def fixedStr (r : Reader) (width : Nat) : Bytes × Reader :=
  let (b, r) := r.take width
  (b.takeWhile (· ≠ 0), r)

/-- Everything left, usually a trailing variable-length field. -/
def rest (r : Reader) : Bytes × Reader := r.take r.remaining

end Reader

def putU16 (v : UInt16) : Bytes := [v.toUInt8, (v >>> 8).toUInt8]

def putU32 (v : UInt32) : Bytes :=
  [v.toUInt8, (v >>> 8).toUInt8, (v >>> 16).toUInt8, (v >>> 24).toUInt8]

def putI32 (v : Int32) : Bytes := putU32 v.toUInt32

/-- A string in a fixed-width NUL-padded field, truncated rather than
overflowing. -/
def putFixedStr (s : Bytes) (width : Nat) : Bytes :=
  s.take width ++ List.replicate (width - s.length) 0

/-- `subview(b, off, len)`; both arguments clamp to the view. -/
def subview (b : Bytes) (off len : Nat) : Bytes := (b.drop off).take len

/-- `subview(b, off)`. -/
def subviewFrom (b : Bytes) (off : Nat) : Bytes := b.drop off

/-! ## The reader, read by read -/

namespace Reader

variable {r : Reader} {n : Nat}

theorem has_ofBytes (b : Bytes) (n : Nat) : (ofBytes b).has n = decide (n ≤ b.length) := rfl

theorem take_ofBytes {b : Bytes} (hlen : n ≤ b.length) :
    (ofBytes b).take n = (b.take n, ofBytes (b.drop n)) := by
  simp [ofBytes, take, has, remaining, hlen]

theorem take_ofBytes_short {b : Bytes} (hlen : b.length < n) :
    (ofBytes b).take n = ([], { left := b, ok := false }) := by
  have hnot : ¬ n ≤ b.length := by omega
  simp [ofBytes, take, has, remaining, hnot]

theorem take_append {first second : Bytes} (hlen : first.length = n) :
    (ofBytes (first ++ second)).take n = (first, ofBytes second) := by
  rw [take_ofBytes (by simp [← hlen])]
  simp [← hlen]

/-- A read that succeeds yields exactly what was asked for. -/
theorem length_take_fst (hok : (r.take n).2.ok = true) : (r.take n).1.length = n := by
  unfold take at hok ⊢
  split
  · rename_i hhas
    have hlen : n ≤ r.left.length := of_decide_eq_true (Bool.and_eq_true_iff.mp hhas).2
    simp [hlen]
  · rename_i hhas
    simp [hhas] at hok

/-- Success so far implies success before. -/
theorem ok_of_take_ok (hok : (r.take n).2.ok = true) : r.ok = true := by
  unfold take at hok
  split at hok
  · exact hok
  · simp at hok

/-- A read that succeeds consumes exactly what was asked for. -/
theorem length_left_of_take_ok (hok : (r.take n).2.ok = true) :
    r.left.length = n + (r.take n).2.left.length := by
  unfold take at hok ⊢
  split
  · rename_i hhas
    have hlen : n ≤ r.left.length := of_decide_eq_true (Bool.and_eq_true_iff.mp hhas).2
    simp only [List.length_drop]
    omega
  · rename_i hhas
    simp [hhas] at hok

/-- What was read and what is left make up what there was. -/
theorem take_append_left (hok : (r.take n).2.ok = true) :
    (r.take n).1 ++ (r.take n).2.left = r.left := by
  unfold take at hok ⊢
  split
  · exact List.take_append_drop n r.left
  · next hhas => simp [hhas] at hok

/-- What is left, read in one go. -/
theorem rest_fst (hok : r.ok = true) : r.rest.1 = r.left := by
  simp [rest, take, has, remaining, hok]

theorem length_rest_fst (hok : r.ok = true) : r.rest.1.length = r.left.length := by
  rw [rest_fst hok]

theorem u8_snd (r : Reader) : r.u8.2 = (r.take 1).2 := rfl

theorem u8_cons_left (hok : r.u8.2.ok = true) : r.u8.1 :: r.u8.2.left = r.left := by
  obtain ⟨byte, hbyte⟩ := List.length_eq_one_iff.mp (length_take_fst (n := 1) hok)
  have hjoin := take_append_left (n := 1) hok
  rw [hbyte] at hjoin
  show (r.take 1).1.headD 0 :: (r.take 1).2.left = r.left
  rw [hbyte]
  exact hjoin

theorem u32_snd (r : Reader) : r.u32.2 = (r.take 4).2 := by
  rw [u32]; split <;> simp_all

theorem ok_of_u8_ok (hok : r.u8.2.ok = true) : r.ok = true :=
  ok_of_take_ok (n := 1) (by rwa [u8_snd] at hok)

theorem ok_of_u32_ok (hok : r.u32.2.ok = true) : r.ok = true :=
  ok_of_take_ok (n := 4) (by rwa [u32_snd] at hok)

@[simp]
theorem rest_ofBytes (b : Bytes) : (ofBytes b).rest = (b, ofBytes []) := by
  simp [rest, take, has, remaining, ofBytes]

@[simp]
theorem u8_cons (byte : UInt8) (b : Bytes) : (ofBytes (byte :: b)).u8 = (byte, ofBytes b) := by
  simp [u8, take, has, remaining, ofBytes]

theorem u16_cons (low high : UInt8) (b : Bytes) :
    (ofBytes (low :: high :: b)).u16 =
      (low.toUInt16 ||| (high.toUInt16 <<< 8), ofBytes b) := by
  simp [u16, take, has, remaining, ofBytes]

theorem u32_cons (b0 b1 b2 b3 : UInt8) (b : Bytes) :
    (ofBytes (b0 :: b1 :: b2 :: b3 :: b)).u32 =
      (b0.toUInt32 ||| (b1.toUInt32 <<< 8) ||| (b2.toUInt32 <<< 16) ||| (b3.toUInt32 <<< 24),
        ofBytes b) := by
  simp [u32, take, has, remaining, ofBytes]

theorem u16_short {b : Bytes} (hlen : b.length < 2) :
    (ofBytes b).u16 = (0, { left := b, ok := false }) := by
  simp [u16, take_ofBytes_short hlen]

end Reader

/-! ## Bytes as a number -/

/-- Two numbers side by side, as the number they are. -/
theorem or_mul_two_pow {low : Nat} (width high : Nat) (hlow : low < 2 ^ width) :
    low ||| high * 2 ^ width = high * 2 ^ width + low := by
  have hjoin := Nat.shiftLeft_add_eq_or_of_lt hlow high
  rw [Nat.shiftLeft_eq] at hjoin
  rw [Nat.or_comm]
  exact hjoin.symm

theorem or_mul_256 {low : Nat} (hlow : low < 256) (high : Nat) :
    low ||| high * 256 = high * 256 + low :=
  or_mul_two_pow 8 high hlow

theorem putU16_join (low high : UInt8) :
    putU16 (low.toUInt16 ||| (high.toUInt16 <<< 8)) = [low, high] := by
  have hlow := low.toNat_lt
  have hhigh := high.toNat_lt
  have hupper : ((low.toUInt16 ||| (high.toUInt16 <<< 8)) >>> 8).toUInt8 = high := by
    apply UInt8.toNat_inj.mp
    simp only [UInt16.toNat_toUInt8, UInt16.toNat_shiftRight, UInt16.toNat_or,
      UInt16.toNat_shiftLeft,
      UInt8.toNat_toUInt16, UInt16.reduceToNat, Nat.reduceMod, Nat.shiftLeft_eq, Nat.reducePow,
      Nat.shiftRight_eq_div_pow]
    rw [Nat.mod_eq_of_lt (by omega : high.toNat * 256 < 65536), or_mul_256 hlow]
    omega
  have hlower : (low.toUInt16 ||| (high.toUInt16 <<< 8)).toUInt8 = low := by
    apply UInt8.toNat_inj.mp
    simp [Nat.shiftLeft_eq]
  rw [putU16, hupper, hlower]

theorem join_putU16 (v : UInt16) :
    v.toUInt8.toUInt16 ||| ((v >>> 8).toUInt8.toUInt16 <<< 8) = v := by
  have hv := v.toNat_lt
  apply UInt16.toNat_inj.mp
  simp only [UInt16.toNat_toUInt8, UInt16.toNat_shiftRight, UInt16.toNat_or, UInt16.toNat_shiftLeft,
    UInt8.toNat_toUInt16, UInt16.reduceToNat, Nat.reduceMod, Nat.shiftLeft_eq, Nat.reducePow,
    Nat.shiftRight_eq_div_pow]
  rw [Nat.mod_eq_of_lt (by omega : v.toNat / 256 % 256 * 256 < 65536),
    or_mul_256 (Nat.mod_lt _ (by norm_num))]
  omega

theorem Reader.u16_putU16 (v : UInt16) (b : Bytes) :
    (ofBytes (putU16 v ++ b)).u16 = (v, ofBytes b) := by
  rw [putU16, List.cons_append, List.cons_append, List.nil_append, u16_cons, join_putU16]

theorem join_putU32 (v : UInt32) :
    v.toUInt8.toUInt32 ||| ((v >>> 8).toUInt8.toUInt32 <<< 8) |||
        ((v >>> 16).toUInt8.toUInt32 <<< 16) ||| ((v >>> 24).toUInt8.toUInt32 <<< 24) = v := by
  have hv := v.toNat_lt
  apply UInt32.toNat_inj.mp
  simp only [UInt32.toNat_toUInt8, UInt32.toNat_shiftRight, UInt32.toNat_or, UInt32.toNat_shiftLeft,
    UInt8.toNat_toUInt32, UInt32.reduceToNat, Nat.reduceMod, Nat.shiftLeft_eq, Nat.reducePow,
    Nat.shiftRight_eq_div_pow]
  rw [Nat.mod_eq_of_lt (by omega : v.toNat / 256 % 256 * 256 < 4294967296),
    Nat.mod_eq_of_lt (by omega : v.toNat / 65536 % 256 * 65536 < 4294967296),
    Nat.mod_eq_of_lt (by omega : v.toNat / 16777216 % 256 * 16777216 < 4294967296)]
  have hsecond := or_mul_two_pow 8 (v.toNat / 256 % 256)
    (show v.toNat % 256 < 2 ^ 8 by omega)
  have hthird := or_mul_two_pow 16 (v.toNat / 65536 % 256)
    (show v.toNat / 256 % 256 * 256 + v.toNat % 256 < 2 ^ 16 by omega)
  have hfourth := or_mul_two_pow 24 (v.toNat / 16777216 % 256)
    (show v.toNat / 65536 % 256 * 65536 + (v.toNat / 256 % 256 * 256 + v.toNat % 256) < 2 ^ 24
      by omega)
  norm_num at hsecond hthird hfourth
  rw [hsecond, hthird, hfourth]
  omega

theorem putU32_join (b0 b1 b2 b3 : UInt8) :
    putU32 (b0.toUInt32 ||| (b1.toUInt32 <<< 8) ||| (b2.toUInt32 <<< 16) ||| (b3.toUInt32 <<< 24)) =
      [b0, b1, b2, b3] := by
  have h0 := b0.toNat_lt
  have h1 := b1.toNat_lt
  have h2 := b2.toNat_lt
  have h3 := b3.toNat_lt
  have hsum : (b0.toUInt32 ||| (b1.toUInt32 <<< 8) ||| (b2.toUInt32 <<< 16) |||
      (b3.toUInt32 <<< 24)).toNat =
      b3.toNat * 2 ^ 24 + (b2.toNat * 2 ^ 16 + (b1.toNat * 2 ^ 8 + b0.toNat)) := by
    have hsecond := or_mul_two_pow 8 b1.toNat (show b0.toNat < 2 ^ 8 by omega)
    have hthird := or_mul_two_pow 16 b2.toNat
      (show b1.toNat * 2 ^ 8 + b0.toNat < 2 ^ 16 by omega)
    have hfourth := or_mul_two_pow 24 b3.toNat
      (show b2.toNat * 2 ^ 16 + (b1.toNat * 2 ^ 8 + b0.toNat) < 2 ^ 24 by omega)
    simp only [UInt32.toNat_or, UInt32.toNat_shiftLeft, UInt8.toNat_toUInt32,
      UInt32.reduceToNat, Nat.reduceMod, Nat.shiftLeft_eq]
    rw [Nat.mod_eq_of_lt (by omega : b1.toNat * 2 ^ 8 < 2 ^ 32),
      Nat.mod_eq_of_lt (by omega : b2.toNat * 2 ^ 16 < 2 ^ 32),
      Nat.mod_eq_of_lt (by omega : b3.toNat * 2 ^ 24 < 2 ^ 32), hsecond, hthird, hfourth]
  generalize b0.toUInt32 ||| (b1.toUInt32 <<< 8) ||| (b2.toUInt32 <<< 16) |||
    (b3.toUInt32 <<< 24) = v at hsum ⊢
  have hfirst : v.toUInt8 = b0 := UInt8.toNat_inj.mp (by
    rw [UInt32.toNat_toUInt8]
    omega)
  have hshifted : ∀ (shift : UInt32) (b : UInt8),
      v.toNat / 2 ^ (shift.toNat % 32) % 256 = b.toNat → (v >>> shift).toUInt8 = b := by
    intro shift b hb
    apply UInt8.toNat_inj.mp
    rw [UInt32.toNat_toUInt8, UInt32.toNat_shiftRight, Nat.shiftRight_eq_div_pow]
    exact hb
  have hsecond : (v >>> 8).toUInt8 = b1 := hshifted 8 b1 (by
    show v.toNat / 2 ^ 8 % 256 = _
    omega)
  have hthird : (v >>> 16).toUInt8 = b2 := hshifted 16 b2 (by
    show v.toNat / 2 ^ 16 % 256 = _
    omega)
  have hfourth : (v >>> 24).toUInt8 = b3 := hshifted 24 b3 (by
    show v.toNat / 2 ^ 24 % 256 = _
    omega)
  rw [putU32, hfirst, hsecond, hthird, hfourth]

theorem Reader.u32_putU32 (v : UInt32) (b : Bytes) :
    (Reader.ofBytes (putU32 v ++ b)).u32 = (v, Reader.ofBytes b) := by
  have htake : (Reader.ofBytes (putU32 v ++ b)).take 4 = (putU32 v, Reader.ofBytes b) :=
    Reader.take_append rfl
  rw [Reader.u32, htake]
  exact Prod.ext (join_putU32 v) rfl

theorem Reader.i32_putI32 (v : Int32) (b : Bytes) :
    (ofBytes (putI32 v ++ b)).i32 = (v, ofBytes b) := by
  rw [i32, putI32, u32_putU32]
  rfl

/-- A word that was read, and what is left, make up what there was. -/
theorem Reader.putU32_left {r : Reader} (hok : r.u32.2.ok = true) :
    putU32 r.u32.1 ++ r.u32.2.left = r.left := by
  rw [u32_snd] at hok ⊢
  have hjoin := take_append_left hok
  have hlength := length_take_fst hok
  rw [u32]
  split
  next b0 b1 b2 b3 left heq =>
    rw [heq] at hjoin ⊢
    rw [putU32_join]
    exact hjoin
  next bytes left hnot heq =>
    rw [heq] at hlength
    obtain ⟨b0, b1, b2, b3, rfl⟩ := List.length_eq_four.mp hlength
    exact absurd rfl (hnot b0 b1 b2 b3)

/-- So do a signed word and what is left. -/
theorem Reader.putI32_left {r : Reader} (hok : r.i32.2.ok = true) :
    putI32 r.i32.1 ++ r.i32.2.left = r.left := putU32_left hok

theorem putU32_injective {v w : UInt32} (hequal : putU32 v = putU32 w) : v = w := by
  have hread := congrArg (fun b => (Reader.ofBytes (b ++ [])).u32.1) hequal
  simpa only [Reader.u32_putU32] using hread

/-! ## Hex -/

/-- `kDigits[i]`. -/
def kDigits (i : UInt8) : UInt8 := if i < 10 then 48 + i else 87 + i

/-- The value of one hex digit in either case. -/
def nibble (c : UInt8) : Option UInt8 :=
  if 48 ≤ c ∧ c ≤ 57 then some (c - 48)
  else if 97 ≤ c ∧ c ≤ 102 then some (c - 97 + 10)
  else if 65 ≤ c ∧ c ≤ 70 then some (c - 65 + 10)
  else none

def hex (b : Bytes) : Bytes := b.flatMap fun c : UInt8 => [kDigits (c >>> 4), kDigits (c &&& 0x0f)]

/-- Two digits at a time; an odd length or a foreign character is refused. -/
def unhex : Bytes → Option Bytes
  | [] => some []
  | [_] => none
  | hi :: lo :: s =>
      match nibble hi, nibble lo, unhex s with
      | some h, some l, some out => some ((h <<< 4 ||| l) :: out)
      | _, _, _ => none

theorem nibble_kDigits : ∀ i : Fin 16, nibble (kDigits (UInt8.ofNat i)) = some (UInt8.ofNat i) := by
  decide

theorem byte_halves : ∀ c : UInt8,
    (c >>> 4) <<< 4 ||| (c &&& 0x0f) = c ∧ (c >>> 4).toNat < 16 ∧ (c &&& 0x0f).toNat < 16 :=
  forall_byte (by decide +kernel)

theorem nibble_kDigits_of_lt {i : UInt8} (hi : i.toNat < 16) : nibble (kDigits i) = some i := by
  simpa using nibble_kDigits ⟨i.toNat, hi⟩

/-- Hex read back gives the bytes. -/
@[simp]
theorem unhex_hex (b : Bytes) : unhex (hex b) = some b := by
  induction b with
  | nil => rfl
  | cons c b ih =>
      obtain ⟨hjoin, hhigh, hlow⟩ := byte_halves c
      have hcons : hex (c :: b) = kDigits (c >>> 4) :: kDigits (c &&& 0x0f) :: hex b := rfl
      rw [hcons, unhex, nibble_kDigits_of_lt hhigh, nibble_kDigits_of_lt hlow, ih]
      simp only [hjoin]

theorem nibble_isSome_of_mem_hex {b : Bytes} {c : UInt8} (hmem : c ∈ hex b) :
    (nibble c).isSome = true := by
  simp only [hex, List.mem_flatMap, List.mem_cons, List.not_mem_nil, or_false] at hmem
  obtain ⟨byte, -, rfl | rfl⟩ := hmem
  · rw [nibble_kDigits_of_lt (byte_halves byte).2.1, Option.isSome_some]
  · rw [nibble_kDigits_of_lt (byte_halves byte).2.2, Option.isSome_some]

/-- A digit as `hex` writes it. -/
def lowerDigit (c : UInt8) : UInt8 := if 65 ≤ c ∧ c ≤ 70 then c + 32 else c

/-- The text is these bytes in hex, its digits in either case. -/
def Hexadecimal (text b : Bytes) : Prop := text.map lowerDigit = hex b

@[simp]
theorem nibble_lowerDigit : ∀ c : UInt8, nibble (lowerDigit c) = nibble c :=
  forall_byte (by decide +kernel)

theorem unhex_map_lowerDigit (text : Bytes) : unhex (text.map lowerDigit) = unhex text := by
  induction text using unhex.induct with
  | case1 => rfl
  | case2 => rfl
  | case3 hi lo text _ _ _ _ _ _ ih | case4 hi lo text _ ih =>
    simp only [List.map_cons, unhex, nibble_lowerDigit, ih]

theorem unhex_of_hexadecimal {text b : Bytes} (htext : Hexadecimal text b) :
    unhex text = some b := by
  rw [← unhex_map_lowerDigit, htext, unhex_hex]

theorem lowerDigit_digits : ∀ i : Fin 16,
    lowerDigit (kDigits (UInt8.ofNat i)) = kDigits (UInt8.ofNat i) := by
  decide

theorem lowerDigit_kDigits {i : UInt8} (hi : i.toNat < 16) :
    lowerDigit (kDigits i) = kDigits i := by
  simpa using lowerDigit_digits ⟨i.toNat, hi⟩

theorem hexadecimal_hex (b : Bytes) : Hexadecimal (hex b) b := by
  have hlower : ∀ c ∈ hex b, lowerDigit c = c := by
    intro c hc
    simp only [hex, List.mem_flatMap, List.mem_cons, List.not_mem_nil, or_false] at hc
    obtain ⟨byte, -, rfl | rfl⟩ := hc
    · exact lowerDigit_kDigits (byte_halves byte).2.1
    · exact lowerDigit_kDigits (byte_halves byte).2.2
  exact (List.map_congr_left hlower).trans (List.map_id' _)

theorem nibble_of_hexadecimal {text b : Bytes} (htext : Hexadecimal text b) :
    ∀ c ∈ text, (nibble c).isSome = true := by
  intro c hc
  have hmem : lowerDigit c ∈ hex b := htext ▸ List.mem_map_of_mem hc
  rw [← nibble_lowerDigit]
  exact nibble_isSome_of_mem_hex hmem

/-- What is read as hex are two digits for every byte. -/
theorem unhex_eq_some {text b : Bytes} (htext : unhex text = some b) :
    text.length = 2 * b.length ∧ ∀ c ∈ text, (nibble c).isSome = true := by
  induction text using unhex.induct generalizing b with
  | case1 =>
    obtain rfl := Option.some.inj htext
    simp
  | case2 => cases htext
  | case3 hi lo text h l out hout hlo hhi ih =>
    rw [unhex, hhi, hlo, hout] at htext
    obtain rfl := Option.some.inj htext
    obtain ⟨hlength, hdigits⟩ := ih hout
    refine ⟨by simp only [List.length_cons, hlength]; omega, ?_⟩
    simp only [List.forall_mem_cons, hhi, hlo, Option.isSome_some, true_and]
    exact hdigits
  | case4 hi lo text hrefused ih =>
    rw [unhex] at htext
    split at htext
    next h l out hhi hlo hout => exact (hrefused h l out hhi hlo hout).elim
    next => cases htext

/-- Digits in pairs are read. -/
theorem unhex_isSome {text : Bytes} (heven : text.length % 2 = 0)
    (htext : ∀ c ∈ text, (nibble c).isSome = true) : (unhex text).isSome = true := by
  induction text using unhex.induct with
  | case1 => rfl
  | case2 => simp at heven
  | case3 hi lo text h l out hout hlo hhi ih => rw [unhex, hhi, hlo, hout]; rfl
  | case4 hi lo text hrefused ih =>
    simp only [List.forall_mem_cons] at htext
    obtain ⟨hhi, hlo, hrest⟩ := htext
    obtain ⟨h, hhi⟩ := Option.isSome_iff_exists.mp hhi
    obtain ⟨l, hlo⟩ := Option.isSome_iff_exists.mp hlo
    obtain ⟨out, hout⟩ := Option.isSome_iff_exists.mp (ih (by simp at heven; omega) hrest)
    exact (hrefused h l out hhi hlo hout).elim

end Coreletd
