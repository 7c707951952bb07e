/-
# What was sealed opens

The three envelopes differ in what stands before the MAC. Each carries a sealed
plaintext across the wire and gives it back followed by the least padding, and what
a decoder accepts is what the encoder writes.
-/

import Coreletd.Proto.Payloads
import Mathlib.Order.Bounds.Defs

namespace Coreletd.Proto

open Coreletd.Crypto

variable {lib : Library}

/-! ## The sealed part -/

/-- The MAC and the ciphertext that were read are all there was to read. -/
theorem read_sealed {r : Reader}
    (hread : ¬ (!(r.take kCipherMacSize).2.rest.2.ok ||
      (r.take kCipherMacSize).2.rest.1.isEmpty) = true) :
    (r.take kCipherMacSize).1 ++ (r.take kCipherMacSize).2.rest.1 = r.left := by
  simp only [Bool.or_eq_true, Bool.not_eq_true', not_or, Bool.not_eq_false] at hread
  have hmac := Reader.ok_of_take_ok hread.1
  rw [Reader.rest_fst hmac, Reader.take_append_left hmac]

/-- What an encoder appends is read back: the MAC, and the rest as the ciphertext. -/
theorem sealed_read {mac ciphertext : Bytes} (hmac : mac.length = kCipherMacSize) :
    (Reader.ofBytes (mac ++ ciphertext)).take kCipherMacSize = (mac, Reader.ofBytes ciphertext) :=
  Reader.take_append hmac

/-- The zeros that follow an opened plaintext fill its last block, and no more. -/
theorem padding_isLeast (plaintext : Bytes) :
    IsLeast {zeros | (plaintext.length + zeros) % kAesBlockSize = 0}
      (padding plaintext.length).length := by
  rw [padding, List.length_replicate]
  constructor
  · show _ % kAesBlockSize = 0
    simp only [kAesBlockSize]
    omega
  · intro zeros hzeros
    have haligned : (plaintext.length + zeros) % kAesBlockSize = 0 := hzeros
    simp only [kAesBlockSize] at haligned ⊢
    omega

/-- The MAC and the ciphertext open to the plaintext, followed by the least number of
zeros that makes whole blocks of it. -/
def OpensTo (lib : Library) (key mac ciphertext plaintext : Bytes) : Prop :=
  ∃ zeros, IsLeast {zeros | (plaintext.length + zeros) % kAesBlockSize = 0} zeros ∧
    macAndDecrypt lib key mac ciphertext = some (plaintext ++ List.replicate zeros 0)

theorem opensTo_of_padding {key mac ciphertext plaintext : Bytes}
    (hopens : macAndDecrypt lib key mac ciphertext =
      some (plaintext ++ padding plaintext.length)) :
    OpensTo lib key mac ciphertext plaintext := by
  refine ⟨_, padding_isLeast plaintext, ?_⟩
  rw [hopens, padding, List.length_replicate]

/-! ## Envelope by envelope -/

namespace DirectEnvelope

theorem decode_encode {e : DirectEnvelope} (hmac : e.mac.length = kCipherMacSize)
    (hcipher : e.ciphertext ≠ []) : decode e.encode = some e := by
  obtain ⟨destHash, srcHash, mac, ciphertext⟩ := e
  rw [encode, decode, List.append_assoc, List.cons_append, List.cons_append, Reader.u8_cons]
  dsimp only
  rw [Reader.u8_cons]
  dsimp only
  rw [List.nil_append, sealed_read hmac]
  dsimp only
  rw [Reader.rest_ofBytes, if_neg (by simpa [Reader.ofBytes] using hcipher)]

theorem encode_decode {payload : Bytes} {e : DirectEnvelope} (hdecode : decode payload = some e) :
    e.encode = payload := by
  simp only [decode] at hdecode
  split at hdecode
  · exact absurd hdecode (by simp)
  · next hread =>
    obtain ⟨hsrc, -⟩ := length_of_sealed hread
    obtain rfl := Option.some.inj hdecode
    rw [encode, List.append_assoc, read_sealed hread, List.cons_append, List.cons_append,
      List.nil_append, Reader.u8_cons_left hsrc, Reader.u8_cons_left (Reader.ok_of_u8_ok hsrc)]
    rfl

/-- Two hashes, the MAC and the blocks of the plaintext, at most. -/
theorem length_encode_seal_le (hciphers : lib.Ciphers) (key plaintext : Bytes)
    (destHash srcHash : UInt8) :
    (sealWith lib destHash srcHash key plaintext).encode.length ≤
      2 + kCipherMacSize + (plaintext ++ padding plaintext.length).length := by
  have hsealed := length_encryptAndMac_le hciphers key plaintext
  simp only [sealWith]
  split
  · simp only [encode, List.length_append, List.length_cons, List.length_nil, List.length_take,
      List.length_drop] at hsealed ⊢
    omega
  · simp only [encode, List.length_append, List.length_cons, List.length_nil]
    omega

/-- What was sealed under a usable key opens with it. -/
theorem opens_seal (hciphers : lib.Ciphers) {key plaintext : Bytes}
    (hkey : kAesBlockSize ≤ key.length) (hne : plaintext ≠ []) (destHash srcHash : UInt8) :
    ∃ e, decode (sealWith lib destHash srcHash key plaintext).encode = some e ∧
      e.destHash = destHash ∧ e.srcHash = srcHash ∧
      macAndDecrypt lib key e.mac e.ciphertext =
        some (plaintext ++ padding plaintext.length) := by
  obtain ⟨mac, ciphertext, hsealed, hmac, hcipher, hopens⟩ :=
    encryptAndMac_opens hciphers hkey hne
  have hseal : sealWith lib destHash srcHash key plaintext =
      { destHash, srcHash, mac, ciphertext } := by
    rw [sealWith, hsealed, List.length_append, hmac, if_pos (Nat.le_add_right _ _),
      List.take_left' hmac, List.drop_left' hmac]
  rw [hseal]
  exact ⟨_, decode_encode hmac hcipher, rfl, rfl, hopens⟩

end DirectEnvelope

namespace AnonReqEnvelope

theorem decode_encode {e : AnonReqEnvelope} (hpubkey : e.pubkey.length = kPubKeySize)
    (hmac : e.mac.length = kCipherMacSize) (hcipher : e.ciphertext ≠ []) :
    decode e.encode = some e := by
  obtain ⟨destHash, pubkey, mac, ciphertext⟩ := e
  rw [encode, decode, List.append_assoc, List.append_assoc, List.cons_append, Reader.u8_cons]
  dsimp only
  rw [List.nil_append, Reader.take_append hpubkey]
  dsimp only
  rw [sealed_read hmac]
  dsimp only
  rw [Reader.rest_ofBytes, if_neg (by simpa [Reader.ofBytes] using hcipher)]

theorem encode_decode {payload : Bytes} {e : AnonReqEnvelope} (hdecode : decode payload = some e) :
    e.encode = payload := by
  simp only [decode] at hdecode
  split at hdecode
  · exact absurd hdecode (by simp)
  · next hread =>
    obtain ⟨hkey, -⟩ := length_of_sealed hread
    obtain rfl := Option.some.inj hdecode
    rw [encode, List.append_assoc, List.append_assoc, read_sealed hread,
      Reader.take_append_left hkey,
      List.cons_append, List.nil_append, Reader.u8_cons_left (Reader.ok_of_take_ok hkey)]
    rfl

theorem opens_seal (hciphers : lib.Ciphers) {key plaintext senderPub : Bytes}
    (hkey : kAesBlockSize ≤ key.length) (hne : plaintext ≠ [])
    (hpubkey : senderPub.length = kPubKeySize) (destHash : UInt8) :
    ∃ e, decode (sealWith lib destHash senderPub key plaintext).encode = some e ∧
      e.destHash = destHash ∧ e.pubkey = senderPub ∧
      macAndDecrypt lib key e.mac e.ciphertext =
        some (plaintext ++ padding plaintext.length) := by
  obtain ⟨mac, ciphertext, hsealed, hmac, hcipher, hopens⟩ :=
    encryptAndMac_opens hciphers hkey hne
  have hseal : sealWith lib destHash senderPub key plaintext =
      { destHash, pubkey := senderPub, mac, ciphertext } := by
    rw [sealWith, hsealed, List.length_append, hmac, if_pos (Nat.le_add_right _ _),
      List.take_left' hmac, List.drop_left' hmac]
  rw [hseal]
  exact ⟨_, decode_encode hpubkey hmac hcipher, rfl, rfl, hopens⟩

end AnonReqEnvelope

namespace GroupEnvelope

theorem decode_encode {e : GroupEnvelope} (hmac : e.mac.length = kCipherMacSize)
    (hcipher : e.ciphertext ≠ []) : decode e.encode = some e := by
  obtain ⟨channelHash, mac, ciphertext⟩ := e
  rw [encode, decode, List.append_assoc, List.cons_append, Reader.u8_cons]
  dsimp only
  rw [List.nil_append, sealed_read hmac]
  dsimp only
  rw [Reader.rest_ofBytes, if_neg (by simpa [Reader.ofBytes] using hcipher)]

theorem encode_decode {payload : Bytes} {e : GroupEnvelope} (hdecode : decode payload = some e) :
    e.encode = payload := by
  simp only [decode] at hdecode
  split at hdecode
  · exact absurd hdecode (by simp)
  · next hread =>
    obtain ⟨hhash, -⟩ := length_of_sealed hread
    obtain rfl := Option.some.inj hdecode
    rw [encode, List.append_assoc, read_sealed hread, List.cons_append, List.nil_append,
      Reader.u8_cons_left hhash]
    rfl

theorem opens_seal (hciphers : lib.Ciphers) {key plaintext : Bytes}
    (hkey : kAesBlockSize ≤ key.length) (hne : plaintext ≠ []) (channelHash : UInt8) :
    ∃ e, decode (sealWith lib channelHash key plaintext).encode = some e ∧
      e.channelHash = channelHash ∧
      macAndDecrypt lib key e.mac e.ciphertext =
        some (plaintext ++ padding plaintext.length) := by
  obtain ⟨mac, ciphertext, hsealed, hmac, hcipher, hopens⟩ :=
    encryptAndMac_opens hciphers hkey hne
  have hseal : sealWith lib channelHash key plaintext = { channelHash, mac, ciphertext } := by
    rw [sealWith, hsealed, List.length_append, hmac, if_pos (Nat.le_add_right _ _),
      List.take_left' hmac, List.drop_left' hmac]
  rw [hseal]
  exact ⟨_, decode_encode hmac hcipher, rfl, hopens⟩

end GroupEnvelope

/-! ## All three -/

/-- Sealing and opening, and the two directions of the codecs. -/
structure EnvelopesOpen (lib : Library) : Prop where
  direct : ∀ key plaintext destHash srcHash, kAesBlockSize ≤ key.length → plaintext ≠ [] →
    ∃ e, DirectEnvelope.decode
        (DirectEnvelope.sealWith lib destHash srcHash key plaintext).encode = some e ∧
      e.destHash = destHash ∧ e.srcHash = srcHash ∧ OpensTo lib key e.mac e.ciphertext plaintext
  anonReq : ∀ key plaintext destHash senderPub, kAesBlockSize ≤ key.length → plaintext ≠ [] →
    senderPub.length = kPubKeySize →
    ∃ e, AnonReqEnvelope.decode
        (AnonReqEnvelope.sealWith lib destHash senderPub key plaintext).encode = some e ∧
      e.destHash = destHash ∧ e.pubkey = senderPub ∧ OpensTo lib key e.mac e.ciphertext plaintext
  group : ∀ key plaintext channelHash, kAesBlockSize ≤ key.length → plaintext ≠ [] →
    ∃ e, GroupEnvelope.decode
        (GroupEnvelope.sealWith lib channelHash key plaintext).encode = some e ∧
      e.channelHash = channelHash ∧ OpensTo lib key e.mac e.ciphertext plaintext
  direct_bytes : ∀ payload e, DirectEnvelope.decode payload = some e → e.encode = payload
  anonReq_bytes : ∀ payload e, AnonReqEnvelope.decode payload = some e → e.encode = payload
  group_bytes : ∀ payload e, GroupEnvelope.decode payload = some e → e.encode = payload

/-- **Sealed envelopes open**, under every usable key. -/
theorem envelopes_open (hciphers : lib.Ciphers) : EnvelopesOpen lib where
  direct key plaintext destHash srcHash hkey hne := by
    obtain ⟨e, hdecode, hdest, hsrc, hopens⟩ :=
      DirectEnvelope.opens_seal hciphers hkey hne destHash srcHash
    exact ⟨e, hdecode, hdest, hsrc, opensTo_of_padding hopens⟩
  anonReq key plaintext destHash senderPub hkey hne hpubkey := by
    obtain ⟨e, hdecode, hdest, hpub, hopens⟩ :=
      AnonReqEnvelope.opens_seal hciphers hkey hne hpubkey destHash
    exact ⟨e, hdecode, hdest, hpub, opensTo_of_padding hopens⟩
  group key plaintext channelHash hkey hne := by
    obtain ⟨e, hdecode, hhash, hopens⟩ := GroupEnvelope.opens_seal hciphers hkey hne channelHash
    exact ⟨e, hdecode, hhash, opensTo_of_padding hopens⟩
  direct_bytes _ _ := DirectEnvelope.encode_decode
  anonReq_bytes _ _ := AnonReqEnvelope.encode_decode
  group_bytes _ _ := GroupEnvelope.encode_decode

theorem envelopes_open_transparent : EnvelopesOpen Library.transparent :=
  envelopes_open Library.transparent_lawful.ciphers

end Coreletd.Proto
