/-
# The MeshCore packet

The header byte packs version, payload type and route; the path-length byte packs
hop count and hash width. Decoding, the transmit check and encoding are separate
functions in the source with limits of their own and stay separate here.
Receive metadata that only the log and the app's display use is kept where a
modelled function reads it: the signal-to-noise ratio, in the quarter-dB steps
the modem reports.
-/

import Coreletd.Crypto.Crypto

namespace Coreletd.Proto

open Coreletd.Crypto

def kMaxPathSize : Nat := 64
def kMaxPayloadSize : Nat := 184
def kMaxPacketSize : Nat := 255

inductive RouteType
  | transportFlood
  | flood
  | direct
  | transportDirect
  deriving DecidableEq, Repr

/-- The four payload-type bits. Three of the sixteen values are reserved. -/
inductive PayloadType
  | req
  | response
  | txtMsg
  | ack
  | advert
  | grpTxt
  | grpData
  | anonReq
  | path
  | trace
  | multipart
  | control
  | reserved0C
  | reserved0D
  | reserved0E
  | rawCustom
  deriving DecidableEq, Repr

/-- `static_cast<uint8_t>(route)`. -/
def RouteType.toByte : RouteType → UInt8
  | .transportFlood => 0x00
  | .flood => 0x01
  | .direct => 0x02
  | .transportDirect => 0x03

/-- `static_cast<RouteType>` of the two route bits. -/
def RouteType.ofBits (bits : UInt8) : RouteType :=
  match bits with
  | 0x00 => .transportFlood
  | 0x01 => .flood
  | 0x02 => .direct
  | _ => .transportDirect

/-- `static_cast<uint8_t>(type)`. -/
def PayloadType.toByte : PayloadType → UInt8
  | .req => 0x00
  | .response => 0x01
  | .txtMsg => 0x02
  | .ack => 0x03
  | .advert => 0x04
  | .grpTxt => 0x05
  | .grpData => 0x06
  | .anonReq => 0x07
  | .path => 0x08
  | .trace => 0x09
  | .multipart => 0x0A
  | .control => 0x0B
  | .reserved0C => 0x0C
  | .reserved0D => 0x0D
  | .reserved0E => 0x0E
  | .rawCustom => 0x0F

/-- `static_cast<PayloadType>` of the four type bits. -/
def PayloadType.ofBits (bits : UInt8) : PayloadType :=
  match bits with
  | 0x00 => .req
  | 0x01 => .response
  | 0x02 => .txtMsg
  | 0x03 => .ack
  | 0x04 => .advert
  | 0x05 => .grpTxt
  | 0x06 => .grpData
  | 0x07 => .anonReq
  | 0x08 => .path
  | 0x09 => .trace
  | 0x0A => .multipart
  | 0x0B => .control
  | 0x0C => .reserved0C
  | 0x0D => .reserved0D
  | 0x0E => .reserved0E
  | _ => .rawCustom

structure Packet where
  payloadVersion : UInt8 := 0
  route : RouteType := .flood
  type : PayloadType := .advert
  transportCode1 : UInt16 := 0
  transportCode2 : UInt16 := 0
  /-- Width of one path hash in bytes; `path` holds whole hashes. -/
  pathHashSize : Nat := 1
  path : Bytes := []
  payload : Bytes := []
  rssi : Int := 0
  /-- `snr`, in quarter dB. -/
  snrQ4 : Int := 0
  deriving DecidableEq, Repr

namespace Packet

def hasTransportCodes (p : Packet) : Bool :=
  p.route = .transportFlood || p.route = .transportDirect

def isFlood (p : Packet) : Bool := p.route = .flood || p.route = .transportFlood

def isDirect (p : Packet) : Bool := p.route = .direct || p.route = .transportDirect

def hopCount (p : Packet) : Nat :=
  if p.pathHashSize = 0 then 0 else p.path.length / p.pathHashSize

theorem hopCount_of_path_nil {p : Packet} (hempty : p.path = []) : p.hopCount = 0 := by
  simp [hopCount, hempty]

/-- Hop count in bits 0-5, hash size less one in bits 6-7. -/
def packPathLen (hashSize pathBytes : Nat) : UInt8 :=
  let hashSize := if hashSize = 0 then 1 else hashSize
  UInt8.ofNat ((pathBytes / hashSize) &&& 0x3F ||| (hashSize - 1) <<< 6)

def packedPathLen (p : Packet) : UInt8 := packPathLen p.pathHashSize p.path.length

/-- Append one hop, or refuse when the path is full. -/
def pushHop (p : Packet) (hash : Bytes) : Option Packet :=
  if p.pathHashSize = 0 ∨ hash.length < p.pathHashSize then none
  else if kMaxPathSize < p.path.length + p.pathHashSize then none
  else if 63 ≤ p.hopCount then none
  else some { p with path := p.path ++ hash.take p.pathHashSize }

/-- The next node a direct-routed packet is for. -/
def firstHop (p : Packet) : Bytes :=
  if p.path.length < p.pathHashSize then [] else p.path.take p.pathHashSize

/-- Consume the leading hop. -/
def popHop (p : Packet) : Packet :=
  if p.path.length < p.pathHashSize then { p with path := [] }
  else { p with path := p.path.drop p.pathHashSize }

/-- What follows the transport codes: the path-length byte, the path and a
payload of 1 to 184 bytes. -/
def decodeBody (p : Packet) (r : Reader) : Option Packet :=
  let (pathLen, r) := r.u8
  if !r.ok then none
  else
    let hops := (pathLen &&& 0x3F).toNat
    let hashSize := ((pathLen &&& 0xC0) >>> 6).toNat + 1
    if hashSize = 4 then none
    else if kMaxPathSize < hops * hashSize then none
    else
      let (path, r) := r.take (hops * hashSize)
      if !r.ok then none
      else
        let (payload, _) := r.rest
        if payload = [] then none
        else if kMaxPayloadSize < payload.length then none
        else some { p with pathHashSize := hashSize, path := path, payload := payload }

def decode (raw : Bytes) : Option Packet :=
  let (header, r) := (Reader.ofBytes raw).u8
  if !r.ok then none
  else
    let p : Packet :=
      { route := RouteType.ofBits (header &&& 0x03)
        type := PayloadType.ofBits ((header &&& 0x3C) >>> 2)
        payloadVersion := (header &&& 0xC0) >>> 6 }
    if 0 < p.payloadVersion then none
    else if p.hasTransportCodes then
      let (code1, r) := r.u16
      let (code2, r) := r.u16
      if !r.ok then none
      else decodeBody { p with transportCode1 := code1, transportCode2 := code2 } r
    else decodeBody p r

/-- Every representational limit, checked before a packet is accepted for
transmission. -/
def valid (p : Packet) : Bool :=
  if p.pathHashSize < 1 ∨ 3 < p.pathHashSize then false
  else if kMaxPathSize < p.path.length ∨ p.path.length % p.pathHashSize ≠ 0 then false
  else if 63 < p.hopCount ∨ kMaxPayloadSize < p.payload.length then false
  else decide (2 + (if p.hasTransportCodes then 4 else 0) + p.path.length + p.payload.length ≤
    kMaxPacketSize)

/-- The header byte: version, payload type and route. -/
def headerByte (p : Packet) : UInt8 :=
  let routeBits : UInt8 := p.route.toByte &&& 0x03
  let typeBits : UInt8 := (p.type.toByte <<< 2) &&& 0x3C
  let versionBits : UInt8 := (p.payloadVersion <<< 6) &&& 0xC0
  routeBits ||| typeBits ||| versionBits

def encode (p : Packet) : Bytes :=
  [p.headerByte] ++
  (if p.hasTransportCodes then putU16 p.transportCode1 ++ putU16 p.transportCode2 else []) ++
  [p.packedPathLen] ++ p.path ++ p.payload

/-- Type and payload without the path, which changes at every hop; a trace mixes
its path length in as a 16-bit field. -/
def dedupHash (lib : Library) (p : Packet) : Bytes :=
  ackHash lib ([p.type.toByte] ++
    (if p.type = .trace then putU16 p.packedPathLen.toUInt16 else []) ++ p.payload)

theorem isDirect_eq_not_isFlood (p : Packet) : p.isDirect = !p.isFlood := by
  cases hroute : p.route <;> simp [isDirect, isFlood, hroute]

theorem length_encode (p : Packet) :
    p.encode.length =
      2 + (if p.hasTransportCodes then 4 else 0) + p.path.length + p.payload.length := by
  rw [encode]
  split <;> simp [putU16] <;> omega

/-- A path of whole hashes that fits the path field and its packed length. -/
structure PathFits (p : Packet) : Prop where
  size_pos : 1 ≤ p.pathHashSize
  size_le : p.pathHashSize ≤ 3
  whole : p.path.length % p.pathHashSize = 0
  hops : p.path.length / p.pathHashSize ≤ 63
  fits : p.path.length ≤ kMaxPathSize

theorem pathLen_fields : ∀ pathLen : UInt8,
    ((pathLen &&& 0xC0) >>> 6).toNat + 1 ≤ 4 ∧ (pathLen &&& 0x3F).toNat ≤ 63 :=
  forall_byte (by decide +kernel)

theorem pathFits_of_decodeBody {p p' : Packet} {r : Reader}
    (hdecode : decodeBody p r = some p') : p'.PathFits := by
  simp only [decodeBody] at hdecode
  have hfields := pathLen_fields r.u8.1
  have hpos : 1 ≤ ((r.u8.1 &&& 0xC0) >>> 6).toNat + 1 := Nat.le_add_left 1 _
  generalize ((r.u8.1 &&& 0xC0) >>> 6).toNat + 1 = hashSize at hdecode hfields hpos
  generalize (r.u8.1 &&& 0x3F).toNat = hops at hdecode hfields
  split at hdecode
  · simp at hdecode
  · split at hdecode
    · simp at hdecode
    · split at hdecode
      · simp at hdecode
      · split at hdecode
        · simp at hdecode
        · next hfour hlong hok =>
          split at hdecode
          · simp at hdecode
          · split at hdecode
            · simp at hdecode
            · obtain rfl := Option.some.inj hdecode
              have hlength : (r.u8.2.take (hops * hashSize)).1.length = hops * hashSize :=
                Reader.length_take_fst (by simpa using hok)
              refine ⟨hpos, ?_, ?_, ?_, ?_⟩
              · show hashSize ≤ 3
                omega
              · show (r.u8.2.take (hops * hashSize)).1.length % hashSize = 0
                rw [hlength, Nat.mul_mod_left]
              · show (r.u8.2.take (hops * hashSize)).1.length / hashSize ≤ 63
                rw [hlength, Nat.mul_div_cancel _ hpos]
                exact hfields.2
              · show (r.u8.2.take (hops * hashSize)).1.length ≤ kMaxPathSize
                rw [hlength]
                exact Nat.le_of_not_lt hlong

/-- What the decoder accepts has a path that fits. -/
theorem pathFits_of_decode {raw : Bytes} {p : Packet} (hdecode : decode raw = some p) :
    p.PathFits := by
  simp only [decode] at hdecode
  split at hdecode
  · simp at hdecode
  · split at hdecode
    · simp at hdecode
    · split at hdecode
      · split at hdecode
        · simp at hdecode
        · exact pathFits_of_decodeBody hdecode
      · exact pathFits_of_decodeBody hdecode

/-- A valid packet fits the radio's buffer. -/
theorem length_encode_le_of_valid {p : Packet} (hvalid : p.valid = true) :
    p.encode.length ≤ kMaxPacketSize := by
  rw [length_encode]
  unfold valid at hvalid
  split at hvalid
  · exact absurd hvalid (by simp)
  · split at hvalid
    · exact absurd hvalid (by simp)
    · split at hvalid
      · exact absurd hvalid (by simp)
      · exact of_decide_eq_true hvalid

end Packet

/-- The two halves of a packed path length. -/
theorem packPathLen_halves : ∀ hops : Fin 64, ∀ wider : Fin 3,
    (UInt8.ofNat ((hops : Nat) &&& 0x3F ||| (wider : Nat) <<< 6) >>> 6).toNat = wider ∧
      (UInt8.ofNat ((hops : Nat) &&& 0x3F ||| (wider : Nat) <<< 6) &&& 0x3F).toNat = hops := by
  decide +kernel

theorem packPathLen_fields {hashSize pathBytes : Nat} (hpos : 1 ≤ hashSize) (hsize : hashSize ≤ 3)
    (hhops : pathBytes / hashSize ≤ 63) :
    (Packet.packPathLen hashSize pathBytes >>> 6).toNat + 1 = hashSize ∧
      (Packet.packPathLen hashSize pathBytes &&& 0x3F).toNat = pathBytes / hashSize := by
  have hhalves := packPathLen_halves ⟨pathBytes / hashSize, by omega⟩ ⟨hashSize - 1, by omega⟩
  simp only [Packet.packPathLen]
  rw [if_neg (by omega)]
  exact ⟨by rw [hhalves.1]; simp only; omega, hhalves.2⟩

end Coreletd.Proto
