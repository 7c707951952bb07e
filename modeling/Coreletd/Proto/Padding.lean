/-
# Plaintexts behind the cipher's padding

A receiver sees a plaintext with zero bytes up to the next block boundary. The
region an ack covers ends at the first NUL, so the padding does not move it.
-/

import Coreletd.Proto.Payloads

namespace Coreletd.Proto

open Coreletd.Crypto

/-! ## The acked region -/

theorem takeWhile_append_zeros (b : Bytes) (k : Nat) :
    (b ++ List.replicate k 0).takeWhile (· ≠ 0) = b.takeWhile (· ≠ 0) := by
  induction b with
  | nil => cases k <;> simp [List.replicate_succ]
  | cons byte b ih =>
      rw [List.cons_append, List.takeWhile_cons, List.takeWhile_cons, ih]

theorem scanNul_append_zeros {b : Bytes} {start : Nat} (hstart : start ≤ b.length) (k : Nat) :
    scanNul (b ++ List.replicate k 0) start = scanNul b start := by
  rw [scanNul, scanNul, List.drop_append_of_le_length hstart, takeWhile_append_zeros]

theorem scanNul_le {b : Bytes} {start : Nat} (hstart : start ≤ b.length) :
    scanNul b start ≤ b.length := by
  have hle := (List.takeWhile_prefix (p := (· ≠ 0)) (l := b.drop start)).length_le
  rw [List.length_drop] at hle
  rw [scanNul]
  omega

/-- Where the text begins in a plaintext that reaches that far. -/
def textStart (plaintext : Bytes) : Nat :=
  if plaintext.getD 4 0 >>> 2 = kTxtSignedPlain then kTextHeaderSize + kSignedPrefixSize
  else kTextHeaderSize

theorem header_le_textStart (plaintext : Bytes) : kTextHeaderSize ≤ textStart plaintext := by
  rw [textStart]
  split
  · exact Nat.le_add_right _ _
  · exact Nat.le_refl _

theorem textStart_append {plaintext : Bytes} (hheader : kTextHeaderSize ≤ plaintext.length)
    (tail : Bytes) : textStart (plaintext ++ tail) = textStart plaintext := by
  have hflags : (plaintext ++ tail).getD 4 0 = plaintext.getD 4 0 := by
    simp only [List.getD_eq_getElem?_getD, List.getElem?_append_left hheader]
  rw [textStart, hflags, textStart]

theorem textOffset_eq {plaintext : Bytes} (hheader : kTextHeaderSize ≤ plaintext.length) :
    textOffset plaintext = min (textStart plaintext) plaintext.length := by
  rw [textOffset, if_neg (Nat.not_lt.mpr hheader)]
  rfl

theorem textOffset_le (plaintext : Bytes) : textOffset plaintext ≤ plaintext.length := by
  rw [textOffset]
  split
  · exact Nat.le_refl _
  · exact Nat.min_le_right _ _

theorem ackHashedRegion_eq {plaintext : Bytes} (hheader : kTextHeaderSize ≤ plaintext.length) :
    ackHashedRegion plaintext = plaintext.take (scanNul plaintext (textOffset plaintext)) := by
  rw [ackHashedRegion]
  split
  · next hshort =>
    -- A header alone: nothing follows it, so the scan stops at once.
    have hend : plaintext.length ≤ textOffset plaintext := by
      rw [textOffset_eq hheader]
      exact Nat.le_min.mpr ⟨hshort.trans (header_le_textStart plaintext), Nat.le_refl _⟩
    exact (List.take_of_length_le (hend.trans (Nat.le_add_right _ _))).symm
  · rfl

/-- A plaintext that ends before its text begins is hashed whole. -/
theorem ackHashedRegion_of_short {plaintext : Bytes}
    (hheader : kTextHeaderSize ≤ plaintext.length)
    (hshort : plaintext.length ≤ textStart plaintext) : ackHashedRegion plaintext = plaintext := by
  rw [ackHashedRegion_eq hheader, textOffset_eq hheader, Nat.min_eq_right hshort]
  exact List.take_of_length_le (Nat.le_add_right _ _)

/-- Padding does not move the region an ack covers, where the text has begun before
it. -/
theorem ackHashedRegion_append_zeros {plaintext : Bytes}
    (hstart : textStart plaintext ≤ plaintext.length) (k : Nat) :
    ackHashedRegion (plaintext ++ List.replicate k 0) = ackHashedRegion plaintext := by
  have hheader := (header_le_textStart plaintext).trans hstart
  have hlonger : plaintext.length ≤ (plaintext ++ List.replicate k 0).length := by
    rw [List.length_append]
    exact Nat.le_add_right _ _
  rw [ackHashedRegion_eq (hheader.trans hlonger), ackHashedRegion_eq hheader,
    textOffset_eq (hheader.trans hlonger), textOffset_eq hheader, textStart_append hheader,
    Nat.min_eq_left hstart, Nat.min_eq_left (hstart.trans hlonger), scanNul_append_zeros hstart,
    List.take_append_of_le_length (scanNul_le hstart)]

/-! ## Encoded texts -/

theorem lowBits_cases : ∀ attempt : UInt8, attempt &&& 0x03 ∈ [0, 1, 2, 3] :=
  forall_byte (by decide +kernel)

theorem flagsType_of_lowBits : ∀ txtType : UInt8, ∀ low ∈ ([0, 1, 2, 3] : List UInt8),
    ((txtType <<< 2) ||| low) >>> 2 = txtType &&& 0x3F := by
  intro txtType low hlow
  simp only [List.mem_cons, List.not_mem_nil, or_false] at hlow
  revert txtType
  rcases hlow with rfl | rfl | rfl | rfl
  all_goals exact forall_byte (by decide +kernel)

/-- Six bits of the type are on the wire. -/
theorem flagsByte_type (msg : TextMessage) : msg.flagsByte >>> 2 = msg.txtType &&& 0x3F := by
  rw [TextMessage.flagsByte]
  exact flagsType_of_lowBits msg.txtType _ (lowBits_cases msg.attempt)

/-- The type survives if it has six bits. -/
theorem wireType_eq_iff : ∀ txtType : UInt8, txtType &&& 0x3F = txtType ↔ txtType < 64 :=
  forall_byte (by decide +kernel)

namespace TextMessage

theorem length_encode (m : TextMessage) : m.encode.length = kTextHeaderSize + m.text.length := by
  simp only [encode, putU32, List.length_append, List.length_cons, List.length_nil,
    kTextHeaderSize]

theorem encode_ne_nil (m : TextMessage) : m.encode ≠ [] := by
  apply List.ne_nil_of_length_pos
  rw [length_encode]
  exact Nat.add_pos_left (by decide) _

theorem getD_encode (m : TextMessage) : m.encode.getD 4 0 = m.flagsByte := by
  simp [encode, putU32]

/-- What is decoded of a plaintext with a header, as far as its type goes. -/
theorem decode_append (m : TextMessage) (tail : Bytes) :
    ∃ m', decode (m.encode ++ tail) = some m' ∧ m'.txtType = m.flagsByte >>> 2 := by
  simp [decode, encode, putU32, Reader.u32, Reader.u8, Reader.ofBytes, Reader.take, Reader.has,
    Reader.remaining]

theorem textStart_encode (m : TextMessage) : textStart m.encode =
    if m.txtType &&& 0x3F = kTxtSignedPlain then kTextHeaderSize + kSignedPrefixSize
    else kTextHeaderSize := by
  rw [textStart, getD_encode, flagsByte_type]

/-- What an ack covers is the same in front of `k` bytes of padding. -/
def PaddingUnseen (m : TextMessage) (k : Nat) : Prop :=
  ackHashedRegion (m.encode ++ List.replicate k 0) = ackHashedRegion m.encode ∧
    ∀ lib pubkey, messageAckHash lib (m.encode ++ List.replicate k 0) pubkey =
      messageAckHash lib m.encode pubkey

/-- **The padding stays outside the acked region** of every text but a signed one that
is shorter than its key prefix: there the padding fills the prefix up. -/
theorem paddingUnseen_iff {m : TextMessage} (htype : m.txtType < 64) (k : Nat) :
    m.PaddingUnseen k ↔
      (m.txtType = kTxtSignedPlain → k ≠ 0 → kSignedPrefixSize ≤ m.text.length) := by
  have hheader : kTextHeaderSize ≤ m.encode.length := by
    rw [length_encode]
    exact Nat.le_add_right _ _
  have hstart := m.textStart_encode
  rw [(wireType_eq_iff m.txtType).mpr htype] at hstart
  constructor
  · rintro ⟨hregion, -⟩ hsigned hpadded
    rw [if_pos hsigned] at hstart
    by_contra hbare
    have hshort : m.encode.length < textStart m.encode := by
      rw [hstart, length_encode]
      exact Nat.add_lt_add_left (Nat.lt_of_not_le hbare) _
    -- the scan of the padded text starts behind the end of the bare one
    have hlonger : m.encode.length < (m.encode ++ List.replicate k 0).length := by
      rw [List.length_append, List.length_replicate]
      exact Nat.lt_add_of_pos_right (Nat.pos_of_ne_zero hpadded)
    have hoffset : m.encode.length < textOffset (m.encode ++ List.replicate k 0) := by
      rw [textOffset_eq (hheader.trans hlonger.le), textStart_append hheader]
      exact lt_min hshort hlonger
    have hlength := congrArg List.length hregion
    rw [ackHashedRegion_of_short hheader hshort.le, ackHashedRegion_eq (hheader.trans hlonger.le),
      List.length_take_of_le (scanNul_le (textOffset_le _)), scanNul] at hlength
    omega
  · intro hfront
    have hregion : ackHashedRegion (m.encode ++ List.replicate k 0) = ackHashedRegion m.encode := by
      by_cases hpadded : k = 0
      · rw [hpadded, List.replicate_zero, List.append_nil]
      · refine ackHashedRegion_append_zeros ?_ k
        rw [hstart, length_encode]
        split
        next hsigned => exact Nat.add_le_add_left (hfront hsigned hpadded) _
        next => exact Nat.le_add_right _ _
    exact ⟨hregion, fun lib pubkey => by rw [messageAckHash, hregion, messageAckHash]⟩

/-- A signed text of two bytes. -/
def stubbySigned : TextMessage := { txtType := kTxtSignedPlain, text := [0x68, 0x69] }

/-- In its block of 16 bytes two zeros are hashed along. -/
theorem stubbySigned_seen :
    stubbySigned.txtType < 64 ∧ stubbySigned.attempt ≤ 3 ∧ ¬ stubbySigned.PaddingUnseen 9 := by
  refine ⟨by decide, by decide, fun hunseen => ?_⟩
  exact absurd hunseen.1 (by decide +kernel)

theorem paddingUnseen_greeting :
    let greeting : TextMessage :=
      { txtType := kTxtSignedPlain, text := [0xAA, 0, 0xBB, 0xCC, 0x68] }
    greeting.PaddingUnseen 6 :=
  (paddingUnseen_iff (by decide) 6).mpr fun _ _ => by decide

end TextMessage

end Coreletd.Proto
