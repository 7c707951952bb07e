/-
# Two readings of a text

What is shown to the app and what is hashed for the ack are found by two scans with
different bases. Behind the header both stop at the same byte, so a text that was
decoded encodes to the region an ack covers, and reads as itself again.
-/

import Coreletd.Proto.Padding

namespace Coreletd.Proto

/-! ## The scans -/

/-- A scan behind some bytes is a scan of what follows them. -/
theorem scanNul_append (front rest : Bytes) (start : Nat) :
    scanNul (front ++ rest) (front.length + start) = front.length + scanNul rest start := by
  rw [scanNul, scanNul, List.drop_length_add_append, Nat.add_assoc]

/-- What a scan has passed is passed again. -/
theorem scanNul_take (b : Bytes) (start : Nat) :
    scanNul (b.take (scanNul b start)) start = scanNul b start := by
  have hpassed : (b.drop start).take ((b.drop start).takeWhile (· ≠ 0)).length =
      (b.drop start).takeWhile (· ≠ 0) :=
    (List.prefix_iff_eq_take.mp (List.takeWhile_prefix _)).symm
  rw [scanNul, scanNul, List.drop_take, Nat.add_sub_cancel_left, hpassed, List.takeWhile_idem]

/-- The acked region of an acked region is that region. -/
theorem ackHashedRegion_idem {plaintext : Bytes} (hheader : kTextHeaderSize ≤ plaintext.length) :
    ackHashedRegion (ackHashedRegion plaintext) = ackHashedRegion plaintext := by
  rcases Nat.le_total plaintext.length (textStart plaintext) with hshort | hstart
  · rw [ackHashedRegion_of_short hheader hshort, ackHashedRegion_of_short hheader hshort]
  · have hregion := ackHashedRegion_eq hheader
    rw [textOffset_eq hheader, Nat.min_eq_left hstart] at hregion
    have hpast : textStart plaintext ≤ scanNul plaintext (textStart plaintext) :=
      Nat.le_add_right _ _
    have hlength : (ackHashedRegion plaintext).length =
        scanNul plaintext (textStart plaintext) := by
      rw [hregion, List.length_take_of_le (scanNul_le hstart)]
    have hheader' : kTextHeaderSize ≤ (ackHashedRegion plaintext).length := by
      rw [hlength]
      exact (header_le_textStart plaintext).trans hpast
    have hsame : textStart (ackHashedRegion plaintext) = textStart plaintext := by
      have happend := textStart_append hheader'
        (plaintext.drop (scanNul plaintext (textStart plaintext)))
      rw [hregion, List.take_append_drop] at happend
      rw [hregion]
      exact happend.symm
    have hscan := scanNul_take plaintext (textStart plaintext)
    rw [← hregion] at hscan
    rw [ackHashedRegion_eq hheader', textOffset_eq hheader', hsame,
      Nat.min_eq_left (hpast.trans hlength.ge), hscan, ← hlength, List.take_length]

/-! ## Decoding -/

/-- Type and attempt make up the byte they were split from. -/
theorem flags_join : ∀ flags : UInt8,
    ((flags >>> 2) <<< 2) ||| ((flags &&& 0x03) &&& 0x03) = flags :=
  forall_byte (by decide +kernel)

namespace TextMessage

/-- A plaintext with a header, field by field. -/
theorem decode_header (b0 b1 b2 b3 flags : UInt8) (rest : Bytes) :
    let plaintext := b0 :: b1 :: b2 :: b3 :: flags :: rest
    let stop := scanNul rest (textOffset plaintext - kTextHeaderSize)
    decode plaintext = some
      { timestamp := b0.toUInt32 ||| (b1.toUInt32 <<< 8) ||| (b2.toUInt32 <<< 16) |||
          (b3.toUInt32 <<< 24)
        txtType := flags >>> 2
        attempt := flags &&& 0x03
        text := rest.take stop
        extendedAttempt := if stop + 1 < rest.length then rest.getD (stop + 1) 0 else 0 } := by
  dsimp only
  rw [decode, Reader.u32_cons]
  dsimp only
  rw [Reader.u8_cons]
  dsimp only
  rw [Reader.rest_ofBytes]
  rfl

/-- The scan of the text, seen from the front of the plaintext. -/
theorem scanNul_header (b0 b1 b2 b3 flags : UInt8) (rest : Bytes) :
    let plaintext := b0 :: b1 :: b2 :: b3 :: flags :: rest
    scanNul plaintext (textOffset plaintext) =
      kTextHeaderSize + scanNul rest (textOffset plaintext - kTextHeaderSize) := by
  intro plaintext
  have hheader : kTextHeaderSize ≤ plaintext.length := Nat.le_add_left _ _
  have hoffset : kTextHeaderSize + (textOffset plaintext - kTextHeaderSize) =
      textOffset plaintext := by
    rw [textOffset_eq hheader]
    exact Nat.add_sub_cancel' (Nat.le_min.mpr ⟨header_le_textStart plaintext, hheader⟩)
  have hscan : scanNul plaintext (kTextHeaderSize + (textOffset plaintext - kTextHeaderSize)) =
      kTextHeaderSize + scanNul rest (textOffset plaintext - kTextHeaderSize) :=
    scanNul_append [b0, b1, b2, b3, flags] rest _
  rwa [hoffset] at hscan

/-- A message of which nothing is cut off reads as it is. -/
theorem decode_whole {b0 b1 b2 b3 flags : UInt8} {text : Bytes}
    (hwhole : ackHashedRegion (b0 :: b1 :: b2 :: b3 :: flags :: text) =
      b0 :: b1 :: b2 :: b3 :: flags :: text) :
    decode (b0 :: b1 :: b2 :: b3 :: flags :: text) = some
      { timestamp := b0.toUInt32 ||| (b1.toUInt32 <<< 8) ||| (b2.toUInt32 <<< 16) |||
          (b3.toUInt32 <<< 24)
        txtType := flags >>> 2
        attempt := flags &&& 0x03
        text } := by
  have hdecode := decode_header b0 b1 b2 b3 flags text
  have hscan := scanNul_header b0 b1 b2 b3 flags text
  dsimp only at hdecode hscan
  rw [ackHashedRegion_eq (Nat.le_add_left _ _), hscan] at hwhole
  generalize scanNul text (textOffset (b0 :: b1 :: b2 :: b3 :: flags :: text) - kTextHeaderSize) =
    stop at hdecode hwhole
  have hstop : text.length ≤ stop := by
    have hlength := congrArg List.length hwhole
    simp only [List.length_take, List.length_cons, kTextHeaderSize] at hlength
    omega
  rw [hdecode, List.take_of_length_le hstop, if_neg (by omega)]

/-- What is shown of a plaintext and what is hashed of it. -/
structure ReadAs (plaintext : Bytes) (m : TextMessage) : Prop where
  decoded : decode plaintext = some m
  region : m.encode = ackHashedRegion plaintext
  attempt : m.extendedAttempt = ackExtendedAttempt plaintext
  /-- The message reads as itself, without an attempt behind it. -/
  again : decode m.encode = some { m with extendedAttempt := 0 }

/-- **The two readings of a text agree**, on every plaintext with a header. -/
theorem readings_agree {plaintext : Bytes} (hheader : kTextHeaderSize ≤ plaintext.length) :
    ∃ m, ReadAs plaintext m := by
  obtain ⟨b0, b1, b2, b3, flags, rest, rfl⟩ : ∃ b0 b1 b2 b3 flags rest,
      plaintext = b0 :: b1 :: b2 :: b3 :: flags :: rest := by
    rcases plaintext with _ | ⟨b0, _ | ⟨b1, _ | ⟨b2, _ | ⟨b3, _ | ⟨flags, rest⟩⟩⟩⟩⟩
    case cons.cons.cons.cons.cons => exact ⟨b0, b1, b2, b3, flags, rest, rfl⟩
    all_goals simp [kTextHeaderSize] at hheader
  have hregion := ackHashedRegion_eq hheader
  have hscan := scanNul_header b0 b1 b2 b3 flags rest
  have hidem := ackHashedRegion_idem hheader
  have hdecode := decode_header b0 b1 b2 b3 flags rest
  have hend := scanNul_le (textOffset_le (b0 :: b1 :: b2 :: b3 :: flags :: rest))
  dsimp only at hscan hdecode
  generalize scanNul rest (textOffset (b0 :: b1 :: b2 :: b3 :: flags :: rest) - kTextHeaderSize) =
    stop at hscan hdecode
  rw [hscan] at hregion hend
  have hstop : stop ≤ rest.length := by
    simp only [List.length_cons, kTextHeaderSize] at hend
    omega
  replace hregion : ackHashedRegion (b0 :: b1 :: b2 :: b3 :: flags :: rest) =
      b0 :: b1 :: b2 :: b3 :: flags :: rest.take stop := by
    rw [hregion, Nat.add_comm]
    rfl
  rw [hregion] at hidem
  refine ⟨_, hdecode, ?_, ?_, ?_⟩
  · rw [hregion, encode, putU32_join, flagsByte, flags_join]
    rfl
  · rw [ackExtendedAttempt, hregion]
    simp only [List.length_cons, List.length_take_of_le hstop, Nat.add_lt_add_iff_right]
    rfl
  · rw [encode, putU32_join, flagsByte, flags_join]
    exact decode_whole hidem

/-- A signed text with a zero in its key prefix, then the fourth retry's attempt byte. -/
theorem readings_agree_retry :
    kTextHeaderSize ≤ [7, 0, 0, 0, 8, 0xAA, 0, 0xBB, 0xCC, 0x68, 0x69, 0, 4, 0].length ∧
      ∃ m, ReadAs [7, 0, 0, 0, 8, 0xAA, 0, 0xBB, 0xCC, 0x68, 0x69, 0, 4, 0] m :=
  ⟨by decide, readings_agree (by decide)⟩

end TextMessage

end Coreletd.Proto
