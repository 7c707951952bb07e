/-
# Sealing, hashing and identities over the crypto libraries

OpenSSL and libsodium stay outside: the functions taken from them are the fields
of `Library`, and what their documentation promises is `Library.Lawful`. The
code built on top of them, padding, truncated MACs and the identity's key pair,
is defined here as the source has it.
-/

import Coreletd.Util.Bytes

namespace Coreletd.Crypto

def kPubKeySize : Nat := 32
def kSignatureSize : Nat := 64
def kSharedSecretSize : Nat := 32
def kCipherMacSize : Nat := 2
def kAckHashSize : Nat := 4
def kAesBlockSize : Nat := 16

/-- What the daemon calls in OpenSSL and libsodium. The block cipher is AES-128
in ECB mode over whole blocks with padding off. -/
structure Library where
  sha256 : Bytes → Bytes
  hmacSha256 : Bytes → Bytes → Bytes
  ecbEncrypt : Bytes → Bytes → Bytes
  ecbDecrypt : Bytes → Bytes → Bytes
  /-- Ed25519 verification of a signature by a public key over a message. -/
  verify : Bytes → Bytes → Bytes → Bool
  /-- X25519 of a private key with a peer's public key; no value for a key that
  is not a usable curve point. -/
  sharedSecret : Bytes → Bytes → Option Bytes

/-- The documented behaviour the results rely on. -/
structure Library.Lawful (lib : Library) : Prop where
  sha256_length : ∀ data, (lib.sha256 data).length = 32
  hmac_length : ∀ key data, (lib.hmacSha256 key data).length = 32
  encrypt_length : ∀ key blocks, (lib.ecbEncrypt key blocks).length = blocks.length
  decrypt_encrypt : ∀ key blocks, kAesBlockSize ≤ key.length →
    blocks.length % kAesBlockSize = 0 →
      lib.ecbDecrypt key (lib.ecbEncrypt key blocks) = blocks
  secret_length : ∀ priv pub secret, lib.sharedSecret priv pub = some secret →
    secret.length = kSharedSecretSize

/-- What opening a sealed plaintext relies on. -/
structure Library.Ciphers (lib : Library) : Prop where
  hmac_length : ∀ key data, (lib.hmacSha256 key data).length = 32
  encrypt_length : ∀ key blocks, (lib.ecbEncrypt key blocks).length = blocks.length
  decrypt_encrypt : ∀ key blocks, kAesBlockSize ≤ key.length →
    blocks.length % kAesBlockSize = 0 →
      lib.ecbDecrypt key (lib.ecbEncrypt key blocks) = blocks

theorem Library.Lawful.ciphers {lib : Library} (hlib : lib.Lawful) : lib.Ciphers where
  hmac_length := hlib.hmac_length
  encrypt_length := hlib.encrypt_length
  decrypt_encrypt := hlib.decrypt_encrypt

/-- A node's key pair. -/
structure LocalIdentity where
  pub : Bytes
  priv : Bytes
  /-- `PubKey` is an array of 32 bytes, so there is always a first one. -/
  pub_length : pub.length = kPubKeySize
  deriving DecidableEq

/-- The node id other nodes address us by: the first byte of the key. -/
def LocalIdentity.id (self : LocalIdentity) : UInt8 := self.pub.headD 0

variable (lib : Library)

/-- The first four bytes of SHA-256. -/
def ackHash (data : Bytes) : Bytes := (lib.sha256 data).take kAckHashSize

/-- Zero bytes up to the next block boundary; none when already aligned. -/
def padding (length : Nat) : Bytes :=
  List.replicate ((kAesBlockSize - length % kAesBlockSize) % kAesBlockSize) 0

def aes128EcbEncrypt (key16 input : Bytes) : Option Bytes :=
  if key16.length < kAesBlockSize ∨ input.length % kAesBlockSize ≠ 0 then none
  else some (lib.ecbEncrypt key16 input)

def aes128EcbDecrypt (key16 input : Bytes) : Option Bytes :=
  if key16.length < kAesBlockSize ∨ input.length % kAesBlockSize ≠ 0 then none
  else some (lib.ecbDecrypt key16 input)

/-- `mac(2) || ciphertext`, or nothing when the cipher refuses the key. -/
def encryptAndMac (key plaintext : Bytes) : Bytes :=
  match aes128EcbEncrypt lib key (plaintext ++ padding plaintext.length) with
  | none => []
  | some ciphertext => (lib.hmacSha256 key ciphertext).take kCipherMacSize ++ ciphertext

/-- Check the two MAC bytes, then decrypt. The result keeps the zero padding. -/
def macAndDecrypt (key mac ciphertext : Bytes) : Option Bytes :=
  if mac.length < kCipherMacSize then none
  else if ciphertext = [] ∨ ciphertext.length % kAesBlockSize ≠ 0 then none
  else if subview (lib.hmacSha256 key ciphertext) 0 kCipherMacSize ≠
      subview mac 0 kCipherMacSize then none
  else aes128EcbDecrypt lib key ciphertext

theorem length_append_padding (plaintext : Bytes) :
    (plaintext ++ padding plaintext.length).length % kAesBlockSize = 0 := by
  simp only [padding, kAesBlockSize, List.length_append, List.length_replicate]
  omega

variable {lib}

theorem length_ackHash (hlib : lib.Lawful) (data : Bytes) :
    (ackHash lib data).length = kAckHashSize := by
  simp [ackHash, hlib.sha256_length, kAckHashSize]

/-- The sealed form of a plaintext under a usable key. -/
theorem encryptAndMac_eq {key : Bytes} (hkey : kAesBlockSize ≤ key.length) (plaintext : Bytes) :
    encryptAndMac lib key plaintext =
      (lib.hmacSha256 key (lib.ecbEncrypt key (plaintext ++ padding plaintext.length))).take
          kCipherMacSize ++
        lib.ecbEncrypt key (plaintext ++ padding plaintext.length) := by
  have hopen : ¬ (key.length < kAesBlockSize ∨
      (plaintext ++ padding plaintext.length).length % kAesBlockSize ≠ 0) := by
    rw [length_append_padding]
    omega
  rw [encryptAndMac, aes128EcbEncrypt, if_neg hopen]

/-- The MAC and the padded plaintext bound what is sealed, whatever the key. -/
theorem length_encryptAndMac_le (hciphers : lib.Ciphers) (key plaintext : Bytes) :
    (encryptAndMac lib key plaintext).length ≤
      kCipherMacSize + (plaintext ++ padding plaintext.length).length := by
  rw [encryptAndMac, aes128EcbEncrypt]
  split
  · exact Nat.zero_le _
  · next hciphertext =>
    split at hciphertext
    · cases hciphertext
    · obtain rfl := Option.some.inj hciphertext
      rw [List.length_append, hciphers.encrypt_length]
      exact Nat.add_le_add_right (List.length_take_le _ _) _

/-- What was sealed is a MAC and a ciphertext, and these open to the plaintext followed
by its padding. -/
theorem encryptAndMac_opens (hciphers : lib.Ciphers) {key plaintext : Bytes}
    (hkey : kAesBlockSize ≤ key.length) (hne : plaintext ≠ []) :
    ∃ mac ciphertext, encryptAndMac lib key plaintext = mac ++ ciphertext ∧
      mac.length = kCipherMacSize ∧ ciphertext ≠ [] ∧
      macAndDecrypt lib key mac ciphertext = some (plaintext ++ padding plaintext.length) := by
  have hcipher := hciphers.encrypt_length key (plaintext ++ padding plaintext.length)
  have haligned := length_append_padding plaintext
  have hmac := hciphers.hmac_length key
    (lib.ecbEncrypt key (plaintext ++ padding plaintext.length))
  have hsome : lib.ecbEncrypt key (plaintext ++ padding plaintext.length) ≠ [] := by
    intro hnil
    rw [hnil, List.length_nil, List.length_append] at hcipher
    exact hne (List.eq_nil_of_length_eq_zero (Nat.eq_zero_of_add_eq_zero_right hcipher.symm))
  refine ⟨_, _, encryptAndMac_eq hkey plaintext, by simp [hmac, kCipherMacSize], hsome, ?_⟩
  rw [macAndDecrypt, if_neg (by simp [hmac, kCipherMacSize]), if_neg, if_neg]
  · rw [aes128EcbDecrypt, if_neg (by rw [hcipher, haligned]; omega),
      hciphers.decrypt_encrypt key _ hkey haligned]
  · simp [subview, List.take_take]
  · rw [hcipher, haligned]
    rintro (hnil | hodd)
    · exact hsome hnil
    · exact hodd rfl

/-! ## A transparent library

A stand-in that keeps the documented laws and can be computed with: the cipher
is the identity, the digest a 32-bit polynomial hash padded to 32 bytes, and the
shared secret the exclusive or of the two keys, for key pairs whose halves are
equal. -/

namespace Library

def polynomialDigest (data : Bytes) : Bytes :=
  putU32 (data.foldl (fun hash byte => hash * 31 + byte.toUInt32) 7) ++ List.replicate 28 0

def transparent : Library where
  sha256 := polynomialDigest
  hmacSha256 key data := polynomialDigest (key ++ data)
  ecbEncrypt _ blocks := blocks
  ecbDecrypt _ blocks := blocks
  verify _ _ _ := true
  sharedSecret priv pub :=
    if priv.length = 32 ∧ pub.length = 32 then some (List.zipWith (· ^^^ ·) priv pub) else none

theorem transparent_lawful : transparent.Lawful where
  sha256_length data := by simp [transparent, polynomialDigest, putU32]
  hmac_length key data := by simp [transparent, polynomialDigest, putU32]
  encrypt_length _ _ := rfl
  decrypt_encrypt _ _ _ _ := rfl
  secret_length priv pub secret hsecret := by
    simp only [transparent] at hsecret
    split at hsecret
    · rename_i hlen
      obtain rfl := Option.some.inj hsecret
      simp [hlen.1, hlen.2, kSharedSecretSize]
    · exact absurd hsecret (by simp)

end Library

end Coreletd.Crypto
