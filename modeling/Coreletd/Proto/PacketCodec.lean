/-
# The packet codec is exact

The wire format written down on its own, as the parts a packet is cut into, and
the three codec functions measured against it: the decoder accepts exactly the
well-formed byte strings, what it returns encodes to the same bytes, and every
packet fit to send comes back from its own encoding.
-/

import Coreletd.Proto.Packet

namespace Coreletd.Proto

open Coreletd.Crypto

/-- The parts of a byte string, in the order they are sent. -/
structure Wire where
  header : UInt8
  codes : Bytes
  pathLen : UInt8
  path : Bytes
  payload : Bytes

namespace Wire

def bytes (w : Wire) : Bytes := w.header :: (w.codes ++ w.pathLen :: (w.path ++ w.payload))

def route (w : Wire) : RouteType := RouteType.ofBits (w.header &&& 0x03)

/-- The width of one path hash, from the two upper bits of the path length. -/
def hashSize (w : Wire) : Nat := (w.pathLen >>> 6).toNat + 1

/-- The six lower bits. -/
def hops (w : Wire) : Nat := (w.pathLen &&& 0x3F).toNat

/-- What may travel: version bits 00, four bytes of transport codes exactly on
the transport routes, hashes of one to three bytes in a path of at most 64, and
a payload of 1 to 184 bytes. -/
structure WellFormed (w : Wire) : Prop where
  version : w.header &&& 0xC0 = 0
  codes_length : w.codes.length =
    if w.route = .transportFlood ∨ w.route = .transportDirect then 4 else 0
  hashSize_le : w.hashSize ≤ 3
  path_length : w.path.length = w.hops * w.hashSize
  path_fits : w.hops * w.hashSize ≤ 64
  payload_pos : 1 ≤ w.payload.length
  payload_le : w.payload.length ≤ 184

/-- Two little-endian bytes of the transport codes. -/
def codeAt (w : Wire) (i : Nat) : UInt16 :=
  (w.codes.getD i 0).toUInt16 ||| ((w.codes.getD (i + 1) 0).toUInt16 <<< 8)

/-- The packet the parts stand for. -/
def packet (w : Wire) : Packet :=
  { route := w.route
    type := PayloadType.ofBits ((w.header &&& 0x3C) >>> 2)
    transportCode1 := w.codeAt 0
    transportCode2 := w.codeAt 2
    pathHashSize := w.hashSize
    path := w.path
    payload := w.payload }

end Wire

/-! ## Bytes and their fields -/

theorem pathLen_upper : ∀ pathLen : UInt8, (pathLen &&& 0xC0) >>> 6 = pathLen >>> 6 :=
  forall_byte (by decide +kernel)

theorem hashSize_eq (w : Wire) : ((w.pathLen &&& 0xC0) >>> 6).toNat + 1 = w.hashSize := by
  rw [pathLen_upper, Wire.hashSize]

/-- A header without version bits is its route and its type. -/
theorem headerByte_ofBits : ∀ header : UInt8, header &&& 0xC0 = 0 →
    ((RouteType.ofBits (header &&& 0x03)).toByte &&& (0x03 : UInt8)) |||
      (((PayloadType.ofBits ((header &&& 0x3C) >>> 2)).toByte <<< 2) &&& (0x3C : UInt8)) =
      header :=
  forall_byte (by decide +kernel)

/-- A path length with hashes of at most three bytes is packed from its halves. -/
theorem packPathLen_unpacked : ∀ pathLen : UInt8, (pathLen >>> 6).toNat + 1 ≤ 3 →
    Packet.packPathLen ((pathLen >>> 6).toNat + 1)
      ((pathLen &&& 0x3F).toNat * ((pathLen >>> 6).toNat + 1)) = pathLen :=
  forall_byte (by decide +kernel)

/-! ## Decoding -/

namespace Packet

/-- What follows the transport codes, as far as the wire format goes. -/
structure BodyOf (w : Wire) (b : Bytes) : Prop where
  split : b = w.pathLen :: (w.path ++ w.payload)
  hashSize_le : w.hashSize ≤ 3
  path_length : w.path.length = w.hops * w.hashSize
  path_fits : w.hops * w.hashSize ≤ kMaxPathSize
  payload_pos : 1 ≤ w.payload.length
  payload_le : w.payload.length ≤ kMaxPayloadSize

theorem decodeBody_of_bodyOf (p : Packet) {w : Wire} {b : Bytes} (hbody : BodyOf w b) :
    decodeBody p (Reader.ofBytes b) =
      some { p with pathHashSize := w.hashSize, path := w.path, payload := w.payload } := by
  obtain ⟨rfl, hsize, hlength, hfits, hpos, hle⟩ := hbody
  have hne : w.payload ≠ [] := List.ne_nil_of_length_pos hpos
  have hhops : (w.pathLen &&& 0x3F).toNat = w.hops := rfl
  simp only [decodeBody, Reader.u8_cons, hashSize_eq, hhops]
  rw [if_neg (by simp [Reader.ofBytes]), if_neg (by omega), if_neg (Nat.not_lt.mpr hfits),
    Reader.take_append hlength, if_neg (by simp [Reader.ofBytes]), Reader.rest_ofBytes,
    if_neg hne, if_neg (Nat.not_lt.mpr hle)]

theorem bodyOf_of_decodeBody {p p' : Packet} {b : Bytes} (header : UInt8) (codes : Bytes)
    (hdecode : decodeBody p (Reader.ofBytes b) = some p') :
    ∃ w : Wire, w.header = header ∧ w.codes = codes ∧ BodyOf w b := by
  cases b with
  | nil => simp [decodeBody, Reader.u8, Reader.take, Reader.has, Reader.remaining,
      Reader.ofBytes] at hdecode
  | cons pathLen rest =>
      let w : Wire :=
        { header, codes, pathLen
          path := rest.take ((pathLen &&& 0x3F).toNat * ((pathLen >>> 6).toNat + 1))
          payload := rest.drop ((pathLen &&& 0x3F).toNat * ((pathLen >>> 6).toNat + 1)) }
      have hsize : ((pathLen &&& 0xC0) >>> 6).toNat + 1 = w.hashSize := hashSize_eq w
      have hhops : (pathLen &&& 0x3F).toNat = w.hops := rfl
      have hfields := pathLen_fields pathLen
      rw [hsize] at hfields
      simp only [decodeBody, Reader.u8_cons, hsize, hhops] at hdecode
      refine ⟨w, rfl, rfl, ?_⟩
      split at hdecode
      · simp at hdecode
      · split at hdecode
        · simp at hdecode
        · next hfour =>
          split at hdecode
          · simp at hdecode
          · next hfits =>
            split at hdecode
            · simp at hdecode
            · next hok =>
              have hlong : w.hops * w.hashSize ≤ rest.length := by
                by_contra hshort
                refine hok ?_
                simp [Reader.take, Reader.has, Reader.remaining, Reader.ofBytes, hshort]
              rw [Reader.take_ofBytes hlong, Reader.rest_ofBytes] at hdecode
              split at hdecode
              · simp at hdecode
              · next hne =>
                split at hdecode
                · simp at hdecode
                · next hle =>
                  refine ⟨?_, by omega, ?_, Nat.le_of_not_lt hfits, ?_, Nat.le_of_not_lt hle⟩
                  · exact congrArg (pathLen :: ·) (List.take_append_drop _ rest).symm
                  · exact List.length_take_of_le hlong
                  · exact List.length_pos_of_ne_nil hne

/-- The header's share of a packet. -/
def ofHeader (header : UInt8) : Packet :=
  { route := RouteType.ofBits (header &&& 0x03)
    type := PayloadType.ofBits ((header &&& 0x3C) >>> 2)
    payloadVersion := (header &&& 0xC0) >>> 6 }

theorem version_pos_iff : ∀ header : UInt8,
    0 < (ofHeader header).payloadVersion ↔ header &&& 0xC0 ≠ 0 :=
  forall_byte (by decide +kernel)

/-- The decoder behind the header byte. -/
theorem decode_cons (header : UInt8) (b : Bytes) :
    decode (header :: b) =
      if header &&& 0xC0 ≠ 0 then none
      else if (ofHeader header).hasTransportCodes then
        if ((Reader.ofBytes b).u16.2.u16.2.ok) then
          decodeBody { ofHeader header with
            transportCode1 := (Reader.ofBytes b).u16.1
            transportCode2 := (Reader.ofBytes b).u16.2.u16.1 } (Reader.ofBytes b).u16.2.u16.2
        else none
      else decodeBody (ofHeader header) (Reader.ofBytes b) := by
  simp only [decode, Reader.u8_cons]
  rw [if_neg (by simp [Reader.ofBytes])]
  show (if 0 < (ofHeader header).payloadVersion then none else _) = _
  simp only [version_pos_iff]
  split
  · rfl
  · show (if (ofHeader header).hasTransportCodes = true then _ else _) = _
    split
    · cases (Reader.ofBytes b).u16.2.u16.2.ok <;> rfl
    · rfl

theorem hasTransportCodes_iff (w : Wire) :
    (ofHeader w.header).hasTransportCodes = true ↔
      w.route = .transportFlood ∨ w.route = .transportDirect := by
  simp only [hasTransportCodes, Bool.or_eq_true, decide_eq_true_eq]
  rfl

/-- Well-formed bytes decode to the packet they stand for. -/
theorem decode_bytes {w : Wire} (hw : w.WellFormed) : decode w.bytes = some w.packet := by
  have hbody : BodyOf w (w.pathLen :: (w.path ++ w.payload)) :=
    ⟨rfl, hw.hashSize_le, hw.path_length, hw.path_fits, hw.payload_pos, hw.payload_le⟩
  have hversion : (w.header &&& 0xC0) >>> 6 = 0 := by
    rw [hw.version]
    rfl
  have hcodes := hw.codes_length
  rw [Wire.bytes, decode_cons, if_neg (by rw [hw.version]; exact fun h => h rfl)]
  by_cases htransport : (ofHeader w.header).hasTransportCodes = true
  · rw [if_pos ((hasTransportCodes_iff w).mp htransport)] at hcodes
    obtain ⟨b0, b1, b2, b3, hfour⟩ : ∃ b0 b1 b2 b3, w.codes = [b0, b1, b2, b3] := by
      rcases hlist : w.codes with _ | ⟨b0, _ | ⟨b1, _ | ⟨b2, _ | ⟨b3, _ | _⟩⟩⟩⟩ <;>
        simp [hlist] at hcodes
      exact ⟨b0, b1, b2, b3, rfl⟩
    rw [if_pos htransport, hfour]
    simp only [List.cons_append, List.nil_append, Reader.u16_cons]
    rw [if_pos (show (Reader.ofBytes _).ok = true from rfl), decodeBody_of_bodyOf _ hbody]
    simp [ofHeader, Wire.packet, Wire.codeAt, Wire.route, hfour, hversion]
  · rw [if_neg (fun h => htransport ((hasTransportCodes_iff w).mpr h))] at hcodes
    have hnil : w.codes = [] := List.eq_nil_of_length_eq_zero hcodes
    rw [if_neg htransport, hnil, List.nil_append, decodeBody_of_bodyOf _ hbody]
    simp [ofHeader, Wire.packet, Wire.codeAt, Wire.route, hnil, hversion]

/-- What the decoder accepts is well formed. -/
theorem wellFormed_of_decode {raw : Bytes} {p : Packet} (hdecode : decode raw = some p) :
    ∃ w : Wire, w.WellFormed ∧ raw = w.bytes := by
  cases raw with
  | nil => simp [decode, Reader.u8, Reader.take, Reader.has, Reader.remaining,
      Reader.ofBytes] at hdecode
  | cons header b =>
      rw [decode_cons] at hdecode
      split at hdecode
      · simp at hdecode
      · next hversion =>
        have hversion' : header &&& 0xC0 = 0 := not_not.mp hversion
        split at hdecode
        · next htransport =>
          split at hdecode
          · next hok =>
            obtain ⟨b0, b1, b2, b3, rest, rfl⟩ : ∃ b0 b1 b2 b3 rest,
                b = b0 :: b1 :: b2 :: b3 :: rest := by
              rcases b with _ | ⟨b0, _ | ⟨b1, _ | ⟨b2, _ | ⟨b3, rest⟩⟩⟩⟩ <;>
                simp [Reader.u16, Reader.take, Reader.has, Reader.remaining,
                  Reader.ofBytes] at hok ⊢
            simp only [Reader.u16_cons] at hdecode
            obtain ⟨w, rfl, hcodes, hbody⟩ :=
              bodyOf_of_decodeBody header [b0, b1, b2, b3] hdecode
            refine ⟨w, ⟨hversion', ?_, hbody.hashSize_le, hbody.path_length, hbody.path_fits,
              hbody.payload_pos, hbody.payload_le⟩, ?_⟩
            · rw [hcodes]
              exact (if_pos ((hasTransportCodes_iff w).mp htransport)).symm
            · rw [Wire.bytes, hcodes, ← hbody.split]
              rfl
          · simp at hdecode
        · next hplain =>
          obtain ⟨w, rfl, hcodes, hbody⟩ := bodyOf_of_decodeBody header [] hdecode
          refine ⟨w, ⟨hversion', ?_, hbody.hashSize_le, hbody.path_length, hbody.path_fits,
            hbody.payload_pos, hbody.payload_le⟩, ?_⟩
          · rw [hcodes]
            exact (if_neg fun h => hplain ((hasTransportCodes_iff w).mpr h)).symm
          · rw [Wire.bytes, hcodes, List.nil_append, ← hbody.split]

/-! ## Encoding -/

/-- The parts a packet is encoded as. -/
def wire (p : Packet) : Wire :=
  { header := p.headerByte
    codes := if p.hasTransportCodes then putU16 p.transportCode1 ++ putU16 p.transportCode2 else []
    pathLen := p.packedPathLen
    path := p.path
    payload := p.payload }

theorem encode_eq_bytes (p : Packet) : p.encode = p.wire.bytes := by
  simp [encode, Wire.bytes, wire]

theorem hasTransportCodes_packet (w : Wire) :
    w.packet.hasTransportCodes = true ↔
      w.route = .transportFlood ∨ w.route = .transportDirect := by
  simp only [hasTransportCodes, Bool.or_eq_true, decide_eq_true_eq]
  rfl

/-- Well-formed parts are the parts of their packet. -/
theorem wire_packet {w : Wire} (hw : w.WellFormed) : w.packet.wire = w := by
  have hheader : w.packet.headerByte = w.header := by
    simp only [headerByte, Wire.packet, Wire.route]
    rw [headerByte_ofBits w.header hw.version]
    simp
  have hpathLen : w.packet.packedPathLen = w.pathLen := by
    rw [packedPathLen]
    show packPathLen w.hashSize w.path.length = w.pathLen
    rw [hw.path_length]
    exact packPathLen_unpacked w.pathLen hw.hashSize_le
  have hcodes : w.packet.wire.codes = w.codes := by
    have hlength := hw.codes_length
    rw [wire]
    split
    · next htransport =>
      rw [if_pos ((hasTransportCodes_packet w).mp htransport)] at hlength
      rcases hlist : w.codes with _ | ⟨b0, _ | ⟨b1, _ | ⟨b2, _ | ⟨b3, _ | _⟩⟩⟩⟩ <;>
        simp [hlist] at hlength
      have hfirst : w.packet.transportCode1 = b0.toUInt16 ||| (b1.toUInt16 <<< 8) := by
        simp [Wire.packet, Wire.codeAt, hlist]
      have hsecond : w.packet.transportCode2 = b2.toUInt16 ||| (b3.toUInt16 <<< 8) := by
        simp [Wire.packet, Wire.codeAt, hlist]
      rw [hfirst, hsecond, putU16_join, putU16_join]
      rfl
    · next hplain =>
      rw [if_neg fun h => hplain ((hasTransportCodes_packet w).mpr h)] at hlength
      exact (List.eq_nil_of_length_eq_zero hlength).symm
  rcases w with ⟨header, codes, pathLen, path, payload⟩
  simp only [wire] at hcodes ⊢
  rw [hheader, hpathLen, hcodes]
  rfl

/-! ## Fit to send -/

theorem pathFits_of_valid {p : Packet} (hvalid : p.valid = true) :
    p.PathFits ∧ p.payload.length ≤ kMaxPayloadSize := by
  unfold valid at hvalid
  split at hvalid
  · simp at hvalid
  · next hsize =>
    split at hvalid
    · simp at hvalid
    · next hpath =>
      split at hvalid
      · simp at hvalid
      · next hhops =>
        rw [hopCount, if_neg (by omega)] at hhops
        exact ⟨⟨by omega, by omega, by omega, by omega, by omega⟩, by omega⟩

/-- A path that fits and a short payload are all that is asked of a packet: the
whole is then short enough by itself. -/
theorem valid_of_pathFits {p : Packet} (hfits : p.PathFits)
    (hpayload : p.payload.length ≤ kMaxPayloadSize) : p.valid = true := by
  obtain ⟨hpos, hsize, hwhole, hhops, hlength⟩ := hfits
  have hcount : p.hopCount = p.path.length / p.pathHashSize := by rw [hopCount, if_neg (by omega)]
  rw [valid, if_neg (by omega), if_neg (by omega), if_neg (by rw [hcount]; omega)]
  apply decide_eq_true
  simp only [kMaxPathSize, kMaxPayloadSize, kMaxPacketSize] at hlength hpayload ⊢
  split <;> omega

/-- The header of a packet of version 0, field by field. -/
theorem headerByte_fields {p : Packet} (hversion : p.payloadVersion = 0) :
    p.headerByte &&& 0xC0 = 0 ∧ RouteType.ofBits (p.headerByte &&& 0x03) = p.route ∧
      PayloadType.ofBits ((p.headerByte &&& 0x3C) >>> 2) = p.type := by
  simp only [headerByte, hversion]
  generalize p.route = route
  generalize p.type = type
  cases route <;> cases type <;> decide

theorem wire_route {p : Packet} (hversion : p.payloadVersion = 0) : p.wire.route = p.route :=
  (headerByte_fields hversion).2.1

/-- A packet fit to send is well formed on the wire. -/
theorem wire_wellFormed {p : Packet} (hversion : p.payloadVersion = 0) (hne : p.payload ≠ [])
    (hvalid : p.valid = true) : p.wire.WellFormed := by
  obtain ⟨⟨hpos, hsize, hwhole, hhops, hlength⟩, hpayload⟩ := pathFits_of_valid hvalid
  obtain ⟨hwidth, hcount⟩ := packPathLen_fields hpos hsize hhops
  have hhashSize : p.wire.hashSize = p.pathHashSize := hwidth
  have hhopCount : p.wire.hops = p.path.length / p.pathHashSize := hcount
  have hproduct : p.wire.hops * p.wire.hashSize = p.path.length := by
    rw [hhashSize, hhopCount]
    exact Nat.div_mul_cancel (Nat.dvd_of_mod_eq_zero hwhole)
  refine ⟨(headerByte_fields hversion).1, ?_, ?_, hproduct.symm, ?_, ?_, hpayload⟩
  · rw [wire_route hversion, wire, hasTransportCodes]
    simp only [Bool.or_eq_true, decide_eq_true_eq]
    split <;> rfl
  · rw [hhashSize]
    exact hsize
  · rw [hproduct]
    exact hlength
  · exact List.length_pos_of_ne_nil hne

/-- Two packets that look the same on the air. Transport codes count only on the
transport routes. -/
structure SameOnAir (p p' : Packet) : Prop where
  route : p'.route = p.route
  type : p'.type = p.type
  codes : p.hasTransportCodes = true →
    p'.transportCode1 = p.transportCode1 ∧ p'.transportCode2 = p.transportCode2
  pathHashSize : p'.pathHashSize = p.pathHashSize
  path : p'.path = p.path
  payload : p'.payload = p.payload

/-- A packet fit to send comes back from its encoding. -/
theorem decode_encode {p : Packet} (hversion : p.payloadVersion = 0) (hne : p.payload ≠ [])
    (hvalid : p.valid = true) : ∃ p', decode p.encode = some p' ∧ SameOnAir p p' := by
  obtain ⟨⟨hpos, hsize, hwhole, hhops, hlength⟩, hpayload⟩ := pathFits_of_valid hvalid
  refine ⟨p.wire.packet, ?_, wire_route hversion, (headerByte_fields hversion).2.2, ?_,
    (packPathLen_fields hpos hsize hhops).1, rfl, rfl⟩
  · rw [encode_eq_bytes]
    exact decode_bytes (wire_wellFormed hversion hne hvalid)
  · intro htransport
    simp only [Wire.packet, Wire.codeAt, wire, htransport, if_true, putU16, List.cons_append,
      List.nil_append]
    exact ⟨join_putU16 _, join_putU16 _⟩

theorem version_bits_cases : ∀ version : UInt8,
    (version <<< 6) &&& 0xC0 ∈ [(0 : UInt8), 0x40, 0x80, 0xC0] :=
  forall_byte (by decide +kernel)

/-- Type and route are read back whatever else becomes of a packet. -/
theorem kind_of_decode_encode {p p' : Packet} (hdecode : decode p.encode = some p') :
    p'.type = p.type ∧ p'.route = p.route := by
  obtain ⟨w, hw, hbytes⟩ := wellFormed_of_decode hdecode
  obtain rfl : w.packet = p' := by
    rw [hbytes, decode_bytes hw] at hdecode
    exact Option.some.inj hdecode
  have hheader : p.headerByte = w.header := by
    rw [encode_eq_bytes] at hbytes
    exact (List.cons.inj hbytes).1
  have hversion := version_bits_cases p.payloadVersion
  show PayloadType.ofBits ((w.header &&& 0x3C) >>> 2) = p.type ∧
    RouteType.ofBits (w.header &&& 0x03) = p.route
  rw [← hheader, headerByte]
  generalize (p.payloadVersion <<< 6) &&& 0xC0 = version at hversion ⊢
  generalize p.route = route
  generalize p.type = type
  simp only [List.mem_cons, List.not_mem_nil, or_false] at hversion
  rcases hversion with rfl | rfl | rfl | rfl <;> cases route <;> cases type <;> decide

/-! ## Packets off the air -/

/-- What is known of every packet that was decoded, and of none of its reception
metadata. -/
structure FromAir (p : Packet) : Prop where
  fits : p.PathFits
  payload_ne : p.payload ≠ []
  payload_le : p.payload.length ≤ kMaxPayloadSize
  version : p.payloadVersion = 0

theorem fromAir_of_decode {raw : Bytes} {p : Packet} (hdecode : decode raw = some p) :
    p.FromAir := by
  have hfits := pathFits_of_decode hdecode
  obtain ⟨w, hw, rfl⟩ := wellFormed_of_decode hdecode
  obtain rfl : w.packet = p := by
    rw [decode_bytes hw] at hdecode
    exact Option.some.inj hdecode
  exact ⟨hfits, List.ne_nil_of_length_pos hw.payload_pos, hw.payload_le, rfl⟩

theorem FromAir.valid {p : Packet} (hp : p.FromAir) : p.valid = true :=
  valid_of_pathFits hp.fits hp.payload_le

/-- Where and how strongly a packet was heard makes no difference. -/
theorem FromAir.heard {p : Packet} (hp : p.FromAir) (rssi snrQ4 : Int) :
    { p with rssi, snrQ4 }.FromAir := by
  obtain ⟨⟨size_pos, size_le, whole, hops, fits⟩, payload_ne, payload_le, version⟩ := hp
  exact ⟨⟨size_pos, size_le, whole, hops, fits⟩, payload_ne, payload_le, version⟩

/-- With room for it, the hop is appended. -/
theorem FromAir.pushHop_eq {p : Packet} (hp : p.FromAir) {hash : Bytes}
    (hhash : p.pathHashSize ≤ hash.length) (hroom : p.path.length + p.pathHashSize ≤ kMaxPathSize)
    (hhops : p.hopCount < 63) :
    p.pushHop hash = some { p with path := p.path ++ hash.take p.pathHashSize } := by
  have hpos := hp.fits.size_pos
  rw [pushHop, if_neg (by omega), if_neg (by omega), if_neg (by omega)]

/-- One more hop leaves a packet fit to travel. -/
theorem FromAir.pushed {p out : Packet} (hp : p.FromAir) {hash : Bytes}
    (hout : p.pushHop hash = some out) : out.FromAir := by
  obtain ⟨⟨size_pos, size_le, whole, hops, fits⟩, payload_ne, payload_le, version⟩ := hp
  rw [pushHop, hopCount, if_neg (by omega : ¬ p.pathHashSize = 0)] at hout
  split at hout
  · simp at hout
  · next hlong =>
    split at hout
    · simp at hout
    · next hroom =>
      split at hout
      · simp at hout
      · next hmany =>
        obtain rfl := Option.some.inj hout
        have hlength : (p.path ++ hash.take p.pathHashSize).length =
            p.path.length + p.pathHashSize := by
          rw [List.length_append, List.length_take, Nat.min_eq_left (by omega)]
        refine ⟨⟨size_pos, size_le, ?_, ?_, ?_⟩, payload_ne, payload_le, version⟩
        · show (p.path ++ hash.take p.pathHashSize).length % p.pathHashSize = 0
          rw [hlength, Nat.add_mod_right, whole]
        · show (p.path ++ hash.take p.pathHashSize).length / p.pathHashSize ≤ 63
          rw [hlength, Nat.add_div_right _ size_pos]
          omega
        · show (p.path ++ hash.take p.pathHashSize).length ≤ kMaxPathSize
          rw [hlength]
          omega

/-- One hop less too. -/
theorem FromAir.popped {p : Packet} (hp : p.FromAir) : p.popHop.FromAir := by
  obtain ⟨⟨size_pos, size_le, whole, hops, fits⟩, payload_ne, payload_le, version⟩ := hp
  rw [popHop]
  split
  · exact ⟨⟨size_pos, size_le, by simp, by simp, by simp⟩, payload_ne, payload_le, version⟩
  · next hlong =>
    have hdrop := List.length_drop (i := p.pathHashSize) (l := p.path)
    refine ⟨⟨size_pos, size_le, ?_, ?_, ?_⟩, payload_ne, payload_le, version⟩
    · show (p.path.drop p.pathHashSize).length % p.pathHashSize = 0
      rw [hdrop, ← Nat.mod_eq_sub_mod (Nat.le_of_not_lt hlong)]
      exact whole
    · show (p.path.drop p.pathHashSize).length / p.pathHashSize ≤ 63
      rw [hdrop]
      exact (Nat.div_le_div_right (Nat.sub_le _ _)).trans hops
    · show (p.path.drop p.pathHashSize).length ≤ kMaxPathSize
      rw [hdrop]
      omega

end Packet

end Coreletd.Proto
