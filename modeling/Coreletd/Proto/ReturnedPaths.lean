/-
# Returned paths

A path travels twice: in the header of a packet, and inside the sealed return that tells
the sender of it. Both stand behind one byte that packs the hops and their width, written
and read in two places of the source. The two agree: a return is read from just the
plaintexts that begin with the length byte and the path of a packet, so a path comes
through sealing, and nothing else is handed out as one.
-/

import Coreletd.Proto.Envelopes
import Coreletd.Proto.PacketCodec

namespace Coreletd.Proto

open Coreletd.Crypto

/-- The length byte a packet came with is the one it packs. -/
theorem Packet.split_of_decode {raw : Bytes} {p : Packet} (hdecode : Packet.decode raw = some p) :
    ∃ header codes, raw = header :: (codes ++ p.packedPathLen :: (p.path ++ p.payload)) := by
  obtain ⟨w, hw, hbytes⟩ := Packet.wellFormed_of_decode hdecode
  obtain rfl : w.packet = p := by
    rw [hbytes, Packet.decode_bytes hw] at hdecode
    exact Option.some.inj hdecode
  have hpacked : w.packet.packedPathLen = w.pathLen :=
    congrArg Wire.pathLen (Packet.wire_packet hw)
  exact ⟨w.header, w.codes, by rw [hpacked, hbytes]; rfl⟩

namespace PathReturn

/-! ## What is read -/

/-- The return of the path a packet came by, with something to go along. -/
def ofPacket (p : Packet) (extraType : UInt8) (extra : Bytes) : PathReturn :=
  { path := p.path, pathHashSize := p.pathHashSize, hasExtra := true, extraType, extra }

@[simp]
theorem extra_ofPacket (p : Packet) (extraType : UInt8) (extra : Bytes) :
    (ofPacket p extraType extra).extra = extra := rfl

/-- What is made of the bytes behind the path. -/
def ofTail (p : Packet) : Bytes → PathReturn
  | [] => { path := p.path, pathHashSize := p.pathHashSize }
  | extraType :: extra => ofPacket p (extraType &&& 0x0F) extra

theorem path_ofTail (p : Packet) (tail : Bytes) : (ofTail p tail).path = p.path := by
  cases tail <;> rfl

theorem pathHashSize_ofTail (p : Packet) (tail : Bytes) :
    (ofTail p tail).pathHashSize = p.pathHashSize := by
  cases tail <;> rfl

/-- The two ends of the extra, once the path is read. -/
theorem ofTail_eq (p : Packet) (tail : Bytes) :
    (if ({ left := tail } : Reader).has 1 then
      some { path := p.path, pathHashSize := p.pathHashSize, hasExtra := true
             extraType := ({ left := tail } : Reader).u8.1 &&& 0x0F
             extra := ({ left := tail } : Reader).u8.2.rest.1 }
      else some { path := p.path, pathHashSize := p.pathHashSize }) = some (ofTail p tail) := by
  cases tail with
  | nil => rfl
  | cons extraType extra =>
      rw [if_pos (by simp [Reader.has, Reader.remaining])]
      rw [show ({ left := extraType :: extra } : Reader).u8 = (extraType, Reader.ofBytes extra) from
        Reader.u8_cons extraType extra, Reader.rest_ofBytes]
      rfl

/-- A path that fits a packet is read behind the packet's length byte. -/
theorem decode_path {p : Packet} (hfits : p.PathFits) (tail : Bytes) :
    decode (p.packedPathLen :: (p.path ++ tail)) = some (ofTail p tail) := by
  obtain ⟨hwidth, hcount⟩ := packPathLen_fields hfits.size_pos hfits.size_le hfits.hops
  have hlength : p.path.length / p.pathHashSize * p.pathHashSize = p.path.length :=
    Nat.div_mul_cancel (Nat.dvd_of_mod_eq_zero hfits.whole)
  have hsize := hfits.size_le
  rw [decode, Reader.u8_cons]
  dsimp only
  rw [Packet.packedPathLen, hwidth, hcount, hlength, if_neg (by simp [Reader.ofBytes]),
    if_neg (by omega), Reader.take_append rfl]
  dsimp only
  rw [if_neg (by simp [Reader.ofBytes, hfits.fits])]
  exact ofTail_eq p tail

/-- And nothing else is: what is accepted begins with the length byte and the path of
some packet. -/
theorem exists_path_of_decode {plaintext : Bytes} {ret : PathReturn}
    (hdecode : decode plaintext = some ret) :
    ∃ p : Packet, p.PathFits ∧
      ∃ tail, plaintext = p.packedPathLen :: (p.path ++ tail) ∧ ret = ofTail p tail := by
  cases plaintext with
  | nil => simp [decode, Reader.u8, Reader.take, Reader.has, Reader.remaining,
      Reader.ofBytes] at hdecode
  | cons pathLen rest =>
      have hunpacked := packPathLen_unpacked pathLen
      have hfields := Packet.pathLen_fields pathLen
      rw [pathLen_upper] at hfields
      have hpos : 1 ≤ (pathLen >>> 6).toNat + 1 := Nat.le_add_left 1 _
      rw [decode, Reader.u8_cons] at hdecode
      dsimp only at hdecode
      generalize (pathLen >>> 6).toNat + 1 = hashSize at hdecode hunpacked hfields hpos
      generalize (pathLen &&& 0x3F).toNat = hops at hdecode hunpacked hfields
      rw [if_neg (by simp [Reader.ofBytes])] at hdecode
      split at hdecode
      · cases hdecode
      next hfour =>
        split at hdecode
        · cases hdecode
        next hread =>
          simp only [Bool.or_eq_true, not_or, Bool.not_eq_true', Bool.not_eq_false,
            decide_eq_true_eq, Nat.not_lt] at hread
          have hlength := Reader.length_take_fst hread.1
          have hjoin := Reader.take_append_left hread.1
          generalize (Reader.ofBytes rest).take (hops * hashSize) = taken
            at hdecode hread hlength hjoin
          obtain ⟨path, tail, ok⟩ := taken
          obtain rfl : ok = true := hread.1
          have hsize : hashSize ≤ 3 := by omega
          let p : Packet := { path, pathHashSize := hashSize }
          have hpacked : p.packedPathLen = pathLen := by
            rw [← hunpacked hsize, ← hlength]
            rfl
          have hfits : p.PathFits := by
            refine ⟨hpos, hsize, ?_, ?_, hread.2⟩
            · exact hlength ▸ Nat.mul_mod_left hops hashSize
            · show path.length / hashSize ≤ 63
              rw [hlength, Nat.mul_div_cancel _ hpos]
              exact hfields.2
          refine ⟨p, hfits, tail, ?_, ?_⟩
          · rw [hpacked, show rest = path ++ tail from hjoin.symm]
          · exact Option.some.inj (hdecode.symm.trans (ofTail_eq p tail))

/-- The decoder accepts exactly the paths a packet can have, behind the packet's own
length byte. -/
theorem decode_iff {plaintext : Bytes} {ret : PathReturn} :
    decode plaintext = some ret ↔ ∃ p : Packet, p.PathFits ∧
      ∃ tail, plaintext = p.packedPathLen :: (p.path ++ tail) ∧ ret = ofTail p tail := by
  refine ⟨exists_path_of_decode, ?_⟩
  rintro ⟨p, hfits, tail, rfl, rfl⟩
  exact decode_path hfits tail

/-- A returned path is one that a packet can have. -/
theorem pathFits_of_decode {plaintext : Bytes} {ret : PathReturn}
    (hdecode : decode plaintext = some ret) :
    ({ path := ret.path, pathHashSize := ret.pathHashSize } : Packet).PathFits := by
  obtain ⟨p, hfits, tail, -, rfl⟩ := decode_iff.mp hdecode
  rw [path_ofTail, pathHashSize_ofTail]
  exact ⟨hfits.size_pos, hfits.size_le, hfits.whole, hfits.hops, hfits.fits⟩

/-! ## What is sent -/

/-- The path of a packet reads back through whatever follows it, which ends up behind
the extra. -/
theorem decode_encode_append {p : Packet} (hfits : p.PathFits) {ret : PathReturn}
    (hpath : ret.path = p.path) (hsize : ret.pathHashSize = p.pathHashSize)
    (hextra : ret.hasExtra = true) (htype : ret.extraType &&& 0x0F = ret.extraType)
    (tail : Bytes) :
    decode (ret.encode ++ tail) = some { ret with extra := ret.extra ++ tail } := by
  have hencode : ret.encode ++ tail =
      p.packedPathLen :: (p.path ++ ret.extraType :: (ret.extra ++ tail)) := by
    simp [encode, Packet.packedPathLen, hpath, hsize, hextra, htype]
  rw [hencode, decode_path hfits, ofTail, htype, ofPacket, hpath, hsize, hextra]

/-- Sealed and opened, a return is followed by the cipher's padding and reads the same. -/
theorem opens_seal {lib : Library} (hciphers : lib.Ciphers) {key : Bytes}
    (hkey : kAesBlockSize ≤ key.length) {p : Packet} (hfits : p.PathFits) {ret : PathReturn}
    (hpath : ret.path = p.path) (hsize : ret.pathHashSize = p.pathHashSize)
    (hextra : ret.hasExtra = true) (htype : ret.extraType &&& 0x0F = ret.extraType)
    (destHash srcHash : UInt8) :
    ∃ env plaintext, DirectEnvelope.decode
        (DirectEnvelope.sealWith lib destHash srcHash key ret.encode).encode = some env ∧
      macAndDecrypt lib key env.mac env.ciphertext = some plaintext ∧
      decode plaintext = some { ret with extra := ret.extra ++ padding ret.encode.length } := by
  have hne : ret.encode ≠ [] := by simp [encode]
  obtain ⟨env, henv, -, -, hopens⟩ := DirectEnvelope.opens_seal hciphers hkey hne destHash srcHash
  exact ⟨env, _, henv, hopens, decode_encode_append hfits hpath hsize hextra htype _⟩

/-- The return of a packet's path, behind any padding: it begins with the length byte
that the packet packs and came with, and everything in it is read back. -/
structure Survives (raw : Bytes) (p : Packet) (extraType : UInt8) (extra : Bytes)
    (zeros : Nat) : Prop where
  received : ∃ header codes, raw = header :: (codes ++ p.packedPathLen :: (p.path ++ p.payload))
  pathLen : (ofPacket p extraType extra).encode.head? = some p.packedPathLen
  read : ∃ ret, decode ((ofPacket p extraType extra).encode ++ List.replicate zeros 0) = some ret ∧
    ret.path = p.path ∧ ret.pathHashSize = p.pathHashSize ∧ ret.hasExtra = true ∧
    ret.extraType = extraType ∧ ret.extra = extra ++ List.replicate zeros 0

/-- A path within the limits: whole hops, each of a byte at least, and few enough for
their count and for the path field. -/
structure WholeHops (ret : PathReturn) : Prop where
  hop : 1 ≤ ret.pathHashSize
  whole : ret.path.length % ret.pathHashSize = 0
  counted : ret.path.length / ret.pathHashSize < 64
  short : ret.path.length ≤ 64

/-- A type of four bits is left alone by the mask. -/
theorem extraType_masked {extraType : UInt8} (htype : extraType ≤ 15) :
    extraType &&& 0x0F = extraType := by
  have hsmall : ∀ bits : UInt8, bits ≤ 15 → bits &&& 0x0F = bits := forall_byte (by decide +kernel)
  exact hsmall extraType htype

/-- **A returned path survives sealing**: whatever packet was decoded, the return of its
path is read behind any number of zeros as it was made, under the packet's own length
byte; and whatever is read as a return has a path within the limits. -/
theorem survives_sealing :
    (∀ raw p, Packet.decode raw = some p → ∀ extraType extra zeros, extraType ≤ 15 →
      Survives raw p extraType extra zeros) ∧
    ∀ plaintext ret, decode plaintext = some ret → WholeHops ret := by
  constructor
  · intro raw p hdecode extraType extra zeros htype
    have hfits := Packet.pathFits_of_decode hdecode
    refine ⟨Packet.split_of_decode hdecode, by simp [encode, ofPacket, Packet.packedPathLen], ?_⟩
    exact ⟨_, decode_encode_append hfits rfl rfl rfl (extraType_masked htype) _,
      rfl, rfl, rfl, rfl, rfl⟩
  · intro plaintext ret hdecode
    have hfits := pathFits_of_decode hdecode
    exact ⟨hfits.size_pos, hfits.whole, Nat.lt_succ_of_le hfits.hops, hfits.fits⟩

/-- An ack that came over three hops of two bytes. -/
def wideRaw : Bytes := [0x0D, 0x43, 1, 2, 3, 4, 5, 6, 7, 8, 9, 10]

theorem survives_sealing_wide :
    (∃ p, Packet.decode wideRaw = some p ∧ p.pathHashSize = 2 ∧ p.path = [1, 2, 3, 4, 5, 6] ∧
      Survives wideRaw p 0x03 [7, 8, 9, 10] 4) ∧
    ∃ ret, decode [0x43, 1, 2, 3, 4, 5, 6, 0xA3, 7, 8] = some ret ∧ WholeHops ret := by
  have hraw : Packet.decode wideRaw =
      some { type := .ack, pathHashSize := 2, path := [1, 2, 3, 4, 5, 6],
             payload := [7, 8, 9, 10] } := by decide +kernel
  have hread : decode [0x43, 1, 2, 3, 4, 5, 6, 0xA3, 7, 8] =
      some { path := [1, 2, 3, 4, 5, 6], pathHashSize := 2, extraType := 0x03,
             extra := [7, 8], hasExtra := true } := by decide +kernel
  exact ⟨⟨_, hraw, rfl, rfl, survives_sealing.1 _ _ hraw _ _ _ (by decide)⟩,
    _, hread, survives_sealing.2 _ _ hread⟩

end PathReturn

end Coreletd.Proto
