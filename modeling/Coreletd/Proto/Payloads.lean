/-
# Payload bodies: adverts, sealed envelopes, texts and returned paths

Each codec is the source's own reader sequence. The acknowledgement rule lives
here as well: the region of a text plaintext that both ends hash, which stops at
the first NUL after the header and so does not see the cipher's padding.
-/

import Coreletd.Proto.Packet

namespace Coreletd.Proto

open Coreletd.Crypto

/-! ## Adverts -/

def kAdvTypeChat : UInt8 := 0x01
def kAdvTypeMask : UInt8 := 0x0F
def kAdvHasLocation : UInt8 := 0x10
def kAdvHasFeature1 : UInt8 := 0x20
def kAdvHasFeature2 : UInt8 := 0x40
def kAdvHasName : UInt8 := 0x80

structure AdvertAppData where
  flags : UInt8 := 0
  latE6 : Int32 := 0
  lonE6 : Int32 := 0
  feature1 : UInt16 := 0
  feature2 : UInt16 := 0
  name : Bytes := []
  deriving DecidableEq

namespace AdvertAppData

/-- The low nibble is a node type, not a bit field. -/
def nodeType (app : AdvertAppData) : UInt8 := app.flags &&& kAdvTypeMask

def hasLocation (app : AdvertAppData) : Bool := app.flags &&& kAdvHasLocation ≠ 0

def hasName (app : AdvertAppData) : Bool := app.flags &&& kAdvHasName ≠ 0

def encode (app : AdvertAppData) : Bytes :=
  [app.flags] ++
  (if app.flags &&& kAdvHasLocation ≠ 0 then putI32 app.latE6 ++ putI32 app.lonE6 else []) ++
  (if app.flags &&& kAdvHasFeature1 ≠ 0 then putU16 app.feature1 else []) ++
  (if app.flags &&& kAdvHasFeature2 ≠ 0 then putU16 app.feature2 else []) ++
  (if app.flags &&& kAdvHasName ≠ 0 then app.name else [])

/-- The optional fields in order; the name runs to the end of the appdata. -/
def decode (data : Bytes) : Option AdvertAppData :=
  let (flags, r) := (Reader.ofBytes data).u8
  let (latE6, lonE6, r) :=
    if flags &&& kAdvHasLocation ≠ 0 then
      let (lat, r) := r.i32
      let (lon, r) := r.i32
      (lat, lon, r)
    else (0, 0, r)
  let (feature1, r) := if flags &&& kAdvHasFeature1 ≠ 0 then r.u16 else (0, r)
  let (feature2, r) := if flags &&& kAdvHasFeature2 ≠ 0 then r.u16 else (0, r)
  if !r.ok then none
  else
    let name := if flags &&& kAdvHasName ≠ 0 then r.rest.1 else []
    some { flags, latE6, lonE6, feature1, feature2, name }

/-- A field without its flag is zero. -/
structure Canonical (app : AdvertAppData) : Prop where
  location : app.flags &&& kAdvHasLocation = 0 → app.latE6 = 0 ∧ app.lonE6 = 0
  feature1 : app.flags &&& kAdvHasFeature1 = 0 → app.feature1 = 0
  feature2 : app.flags &&& kAdvHasFeature2 = 0 → app.feature2 = 0
  name : app.flags &&& kAdvHasName = 0 → app.name = []

/-- A feature is read back, and is zero if it is not there. -/
private theorem optional_u16 {present : Prop} [Decidable present] {v : UInt16}
    (habsent : ¬present → v = 0) (rest : Bytes) :
    (if present then (Reader.ofBytes ((if present then putU16 v else []) ++ rest)).u16
      else (0, Reader.ofBytes ((if present then putU16 v else []) ++ rest))) =
      (v, Reader.ofBytes rest) := by
  by_cases hpresent : present
  · rw [if_pos hpresent, if_pos hpresent, Reader.u16_putU16]
  · rw [if_neg hpresent, if_neg hpresent, habsent hpresent, List.nil_append]

/-- So is the location. -/
private theorem optional_location {present : Prop} [Decidable present] {lat lon : Int32}
    (habsent : ¬present → lat = 0 ∧ lon = 0) (rest : Bytes) :
    (if present then
        match (Reader.ofBytes ((if present then putI32 lat ++ putI32 lon else []) ++ rest)).i32 with
        | (lat, r) => match r.i32 with
          | (lon, r) => (lat, lon, r)
      else (0, 0, Reader.ofBytes ((if present then putI32 lat ++ putI32 lon else []) ++ rest))) =
      (lat, lon, Reader.ofBytes rest) := by
  by_cases hpresent : present
  · rw [if_pos hpresent, if_pos hpresent, List.append_assoc, Reader.i32_putI32]
    dsimp only
    rw [Reader.i32_putI32]
  · obtain ⟨rfl, rfl⟩ := habsent hpresent
    rw [if_neg hpresent, if_neg hpresent, List.nil_append]

/-- The first byte says which fields follow, so they are read back in place. -/
theorem decode_encode {app : AdvertAppData} (happ : app.Canonical) :
    decode app.encode = some app := by
  obtain ⟨flags, latE6, lonE6, feature1, feature2, name⟩ := app
  obtain ⟨hlocation, hfeature1, hfeature2, hname⟩ := happ
  dsimp only at hlocation hfeature1 hfeature2 hname
  have hencode : encode { flags, latE6, lonE6, feature1, feature2, name } =
      flags ::
        ((if flags &&& kAdvHasLocation ≠ 0 then putI32 latE6 ++ putI32 lonE6 else []) ++
          ((if flags &&& kAdvHasFeature1 ≠ 0 then putU16 feature1 else []) ++
            ((if flags &&& kAdvHasFeature2 ≠ 0 then putU16 feature2 else []) ++
              if flags &&& kAdvHasName ≠ 0 then name else []))) := by
    simp only [encode, List.append_assoc, List.cons_append, List.nil_append]
  rw [hencode, decode, Reader.u8_cons]
  dsimp only
  rw [optional_location fun habsent => hlocation (not_not.mp habsent)]
  dsimp only
  rw [optional_u16 fun habsent => hfeature1 (not_not.mp habsent)]
  dsimp only
  rw [optional_u16 fun habsent => hfeature2 (not_not.mp habsent)]
  dsimp only
  rw [if_neg (by simp [Reader.ofBytes])]
  by_cases hnamed : flags &&& kAdvHasName = 0
  · rw [if_neg (not_not.mpr hnamed), hname hnamed]
  · rw [if_pos hnamed, if_pos hnamed, Reader.rest_ofBytes]

end AdvertAppData

structure Advert where
  pubkey : Bytes
  timestamp : UInt32 := 0
  signature : Bytes
  /-- Still encoded. -/
  appdata : Bytes
  deriving DecidableEq

namespace Advert

def decode (payload : Bytes) : Option Advert :=
  let (pubkey, r) := (Reader.ofBytes payload).take kPubKeySize
  let (timestamp, r) := r.u32
  let (signature, r) := r.take kSignatureSize
  if !r.ok then none
  else some { pubkey, timestamp, signature, appdata := r.rest.1 }

def encode (adv : Advert) : Bytes :=
  adv.pubkey ++ putU32 adv.timestamp ++ adv.signature ++ adv.appdata

/-- What the signature covers. -/
def signedRegion (pubkey : Bytes) (timestamp : UInt32) (appdata : Bytes) : Bytes :=
  pubkey ++ putU32 timestamp ++ appdata

def verify (lib : Library) (adv : Advert) : Bool :=
  if adv.pubkey.length ≠ kPubKeySize ∨ adv.signature.length ≠ kSignatureSize then false
  else lib.verify adv.pubkey (signedRegion adv.pubkey adv.timestamp adv.appdata) adv.signature

/-- An advert of ourselves; `sign` is Ed25519 with our private key. -/
def create (sign : Bytes → Bytes) (self : LocalIdentity) (timestamp : UInt32)
    (app : AdvertAppData) : Advert :=
  let appdata := app.encode
  { pubkey := self.pub, timestamp, appdata,
    signature := sign (signedRegion self.pub timestamp appdata) }

theorem decode_encode {adv : Advert} (hkey : adv.pubkey.length = kPubKeySize)
    (hsignature : adv.signature.length = kSignatureSize) : decode adv.encode = some adv := by
  have hencode : adv.encode =
      adv.pubkey ++ (putU32 adv.timestamp ++ (adv.signature ++ adv.appdata)) := by
    simp only [encode, List.append_assoc]
  rw [hencode, decode, Reader.take_append hkey]
  dsimp only
  rw [Reader.u32_putU32]
  dsimp only
  rw [Reader.take_append hsignature]
  dsimp only
  rw [Reader.rest_ofBytes]
  rfl

/-- What the node signs verifies under its key. -/
theorem verify_create {lib : Library} {sign : Bytes → Bytes} {self : LocalIdentity}
    (hsign : ∀ message, (sign message).length = kSignatureSize ∧
      lib.verify self.pub message (sign message) = true)
    (timestamp : UInt32) (app : AdvertAppData) :
    (create sign self timestamp app).verify lib = true := by
  rw [verify, if_neg]
  · exact (hsign _).2
  · rintro (hkey | hsignature)
    · exact hkey self.pub_length
    · exact hsignature (hsign _).1

/-- The key, the time and the signature. -/
theorem length_of_decode {payload : Bytes} {adv : Advert} (hdecode : decode payload = some adv) :
    kPubKeySize + 4 + kSignatureSize ≤ payload.length := by
  simp only [decode] at hdecode
  split at hdecode
  · exact absurd hdecode (by simp)
  · rename_i hok
    have htime := Reader.ok_of_take_ok (by simpa using hok)
    have hsignature := Reader.length_left_of_take_ok (by simpa using hok)
    have hkey := Reader.length_left_of_take_ok (Reader.ok_of_u32_ok htime)
    rw [Reader.u32_snd] at htime hsignature
    have htime' := Reader.length_left_of_take_ok htime
    simp only [Reader.ofBytes] at hsignature hkey htime'
    omega

/-- A decoded advert carries a whole public key. -/
theorem pubkey_length_of_decode {payload : Bytes} {adv : Advert}
    (hdecode : decode payload = some adv) : adv.pubkey.length = kPubKeySize := by
  simp only [decode] at hdecode
  split at hdecode
  · exact absurd hdecode (by simp)
  · rename_i hok
    obtain rfl := Option.some.inj hdecode
    have hsig := Reader.ok_of_take_ok (by simpa using hok)
    exact Reader.length_take_fst (Reader.ok_of_u32_ok hsig)

end Advert

/-! ## The direct envelope -/

/-- What every envelope ends with: the MAC and a ciphertext that is not empty. -/
theorem length_of_sealed {r : Reader}
    (hread : ¬ (!(r.take kCipherMacSize).2.rest.2.ok ||
      (r.take kCipherMacSize).2.rest.1.isEmpty) = true) :
    r.ok = true ∧ kCipherMacSize + 1 ≤ r.left.length := by
  simp only [Bool.or_eq_true, Bool.not_eq_true', not_or, Bool.not_eq_false,
    List.isEmpty_iff] at hread
  have hmac := Reader.ok_of_take_ok hread.1
  have hcipher := List.length_pos_iff.mpr hread.2
  rw [Reader.length_rest_fst hmac] at hcipher
  have hlength := Reader.length_left_of_take_ok hmac
  exact ⟨Reader.ok_of_take_ok hmac, by omega⟩

/-- REQ, RESPONSE, TXT_MSG and PATH share this shape. -/
structure DirectEnvelope where
  destHash : UInt8 := 0
  srcHash : UInt8 := 0
  mac : Bytes := []
  ciphertext : Bytes := []
  deriving DecidableEq

namespace DirectEnvelope

/-- An envelope with no ciphertext carries nothing to open. -/
def decode (payload : Bytes) : Option DirectEnvelope :=
  let (destHash, r) := (Reader.ofBytes payload).u8
  let (srcHash, r) := r.u8
  let (mac, r) := r.take kCipherMacSize
  let (ciphertext, r) := r.rest
  if !r.ok || ciphertext.isEmpty then none
  else some { destHash, srcHash, mac, ciphertext }

def encode (e : DirectEnvelope) : Bytes := [e.destHash, e.srcHash] ++ e.mac ++ e.ciphertext

/-- Seal a plaintext; a refused key leaves MAC and ciphertext empty. -/
def sealWith (lib : Library) (destHash srcHash : UInt8) (key plaintext : Bytes) : DirectEnvelope :=
  let sealed := encryptAndMac lib key plaintext
  if kCipherMacSize ≤ sealed.length then
    { destHash, srcHash, mac := sealed.take kCipherMacSize,
      ciphertext := sealed.drop kCipherMacSize }
  else { destHash, srcHash }

/-- Two hashes, the MAC and at least one byte of ciphertext. -/
theorem length_of_decode {payload : Bytes} {e : DirectEnvelope}
    (hdecode : decode payload = some e) :
    2 + kCipherMacSize + 1 ≤ payload.length := by
  simp only [decode] at hdecode
  split at hdecode
  · exact absurd hdecode (by simp)
  · rename_i hread
    obtain ⟨hsrc, hsealed⟩ := length_of_sealed hread
    have hdest := Reader.length_left_of_take_ok (n := 1) (Reader.ok_of_u8_ok hsrc)
    have hbytes := Reader.length_left_of_take_ok (n := 1) hsrc
    simp only [Reader.ofBytes, Reader.u8_snd] at hdest hbytes hsealed
    omega

end DirectEnvelope

/-! ## The other envelopes -/

/-- A request whose sender need not be a contact: it brings its key along. -/
structure AnonReqEnvelope where
  destHash : UInt8 := 0
  pubkey : Bytes := []
  mac : Bytes := []
  ciphertext : Bytes := []
  deriving DecidableEq

/-- `AnonReqEnvelope::seal`, under a key both ends derive from `senderPub`. -/
def AnonReqEnvelope.sealWith (lib : Library) (destHash : UInt8) (senderPub key plaintext : Bytes) :
    AnonReqEnvelope :=
  let sealed := encryptAndMac lib key plaintext
  if kCipherMacSize ≤ sealed.length then
    { destHash, pubkey := senderPub, mac := sealed.take kCipherMacSize,
      ciphertext := sealed.drop kCipherMacSize }
  else { destHash, pubkey := senderPub }

def AnonReqEnvelope.encode (e : AnonReqEnvelope) : Bytes :=
  [e.destHash] ++ e.pubkey ++ e.mac ++ e.ciphertext

def AnonReqEnvelope.decode (payload : Bytes) : Option AnonReqEnvelope :=
  let (destHash, r) := (Reader.ofBytes payload).u8
  let (pubkey, r) := r.take kPubKeySize
  let (mac, r) := r.take kCipherMacSize
  let (ciphertext, r) := r.rest
  if !r.ok || ciphertext.isEmpty then none
  else some { destHash, pubkey, mac, ciphertext }

/-- The hash, the sender's key, the MAC and at least one byte of ciphertext. -/
theorem AnonReqEnvelope.length_of_decode {payload : Bytes} {e : AnonReqEnvelope}
    (hdecode : decode payload = some e) :
    1 + kPubKeySize + kCipherMacSize + 1 ≤ payload.length := by
  simp only [decode] at hdecode
  split at hdecode
  · exact absurd hdecode (by simp)
  · rename_i hread
    obtain ⟨hkey, hsealed⟩ := length_of_sealed hread
    have hdest := Reader.length_left_of_take_ok (n := 1) (Reader.ok_of_take_ok hkey)
    have hbytes := Reader.length_left_of_take_ok hkey
    simp only [Reader.ofBytes, Reader.u8_snd] at hdest hbytes hsealed
    omega

structure GroupEnvelope where
  channelHash : UInt8 := 0
  mac : Bytes := []
  ciphertext : Bytes := []
  deriving DecidableEq

/-- `GroupEnvelope::seal`, which leaves both parts empty when the key is refused. -/
def GroupEnvelope.sealWith (lib : Library) (channelHash : UInt8) (key plaintext : Bytes) :
    GroupEnvelope :=
  let sealed := encryptAndMac lib key plaintext
  if kCipherMacSize ≤ sealed.length then
    { channelHash, mac := sealed.take kCipherMacSize, ciphertext := sealed.drop kCipherMacSize }
  else { channelHash }

def GroupEnvelope.encode (e : GroupEnvelope) : Bytes := [e.channelHash] ++ e.mac ++ e.ciphertext

def GroupEnvelope.decode (payload : Bytes) : Option GroupEnvelope :=
  let (channelHash, r) := (Reader.ofBytes payload).u8
  let (mac, r) := r.take kCipherMacSize
  let (ciphertext, r) := r.rest
  if !r.ok || ciphertext.isEmpty then none
  else some { channelHash, mac, ciphertext }

/-! ## Text messages and the ack rule -/

def kTxtPlain : UInt8 := 0x00
def kTxtCliData : UInt8 := 0x01
def kTxtSignedPlain : UInt8 := 0x02

/-- Timestamp and flags. -/
def kTextHeaderSize : Nat := 5
/-- The sender's key prefix in front of a signed message's text. -/
def kSignedPrefixSize : Nat := 4

/-- Where the text begins, clamped to the plaintext. -/
def textOffset (plaintext : Bytes) : Nat :=
  if plaintext.length < kTextHeaderSize then plaintext.length
  else
    let txtType := plaintext.getD 4 0 >>> 2
    let offset :=
      if txtType = kTxtSignedPlain then kTextHeaderSize + kSignedPrefixSize else kTextHeaderSize
    min offset plaintext.length

/-- The loop that walks `end` to the first NUL at or after it. -/
def scanNul (b : Bytes) (start : Nat) : Nat := start + ((b.drop start).takeWhile (· ≠ 0)).length

structure TextMessage where
  timestamp : UInt32 := 0
  txtType : UInt8 := kTxtPlain
  attempt : UInt8 := 0
  extendedAttempt : UInt8 := 0
  text : Bytes := []
  deriving DecidableEq

namespace TextMessage

def decode (plaintext : Bytes) : Option TextMessage :=
  let (timestamp, r) := (Reader.ofBytes plaintext).u32
  let (typeAndAttempt, r) := r.u8
  if !r.ok then none
  else
    let rest := r.rest.1
    let stop := scanNul rest (textOffset plaintext - kTextHeaderSize)
    some
      { timestamp
        txtType := typeAndAttempt >>> 2
        attempt := typeAndAttempt &&& 0x03
        text := rest.take stop
        extendedAttempt := if stop + 1 < rest.length then rest.getD (stop + 1) 0 else 0 }

/-- The flags byte: type in the upper six bits, attempt in the lower two. -/
def flagsByte (m : TextMessage) : UInt8 := (m.txtType <<< 2) ||| (m.attempt &&& 0x03)

def encode (m : TextMessage) : Bytes := putU32 m.timestamp ++ [m.flagsByte] ++ m.text

/-- What the app is shown: a signed message's text after the key prefix. -/
def body (m : TextMessage) : Bytes :=
  if m.txtType = kTxtSignedPlain then subviewFrom m.text 4 else m.text

end TextMessage

/-- The bytes an ack hash covers. -/
def ackHashedRegion (plaintext : Bytes) : Bytes :=
  if plaintext.length ≤ kTextHeaderSize then plaintext
  else subview plaintext 0 (scanNul plaintext (textOffset plaintext))

/-- The byte after the text's NUL terminator. -/
def ackExtendedAttempt (plaintext : Bytes) : UInt8 :=
  let afterNul := (ackHashedRegion plaintext).length + 1
  if afterNul < plaintext.length then plaintext.getD afterNul 0 else 0

def messageAckHash (lib : Library) (plaintext pubkey : Bytes) : Bytes :=
  ackHash lib (ackHashedRegion plaintext ++ pubkey)

/-- Hash, extended attempt and one random byte. -/
def ackPayload (hash : Bytes) (extendedAttempt random : UInt8) : Bytes :=
  subview hash 0 kAckHashSize ++ [extendedAttempt, random]

/-! ## Returned paths -/

structure PathReturn where
  path : Bytes := []
  pathHashSize : Nat := 1
  extraType : UInt8 := 0
  extra : Bytes := []
  hasExtra : Bool := false
  deriving DecidableEq

namespace PathReturn

def decode (plaintext : Bytes) : Option PathReturn :=
  let (pathLen, r) := (Reader.ofBytes plaintext).u8
  if !r.ok then none
  else
    let hashSize := (pathLen >>> 6).toNat + 1
    if hashSize = 4 then none
    else
      let (path, r) := r.take ((pathLen &&& 0x3F).toNat * hashSize)
      if !r.ok || decide (kMaxPathSize < path.length) then none
      else if r.has 1 then
        let (extraType, r) := r.u8
        some { path, pathHashSize := hashSize, hasExtra := true,
               extraType := extraType &&& 0x0F, extra := r.rest.1 }
      else some { path, pathHashSize := hashSize }

def encode (p : PathReturn) : Bytes :=
  [Packet.packPathLen p.pathHashSize p.path.length] ++ p.path ++
    if p.hasExtra then [p.extraType &&& 0x0F] ++ p.extra else []

end PathReturn

end Coreletd.Proto
