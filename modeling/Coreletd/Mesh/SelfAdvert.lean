/-
# The node's own advert

What a node says of itself: its type, its name, and its position unless it has
none. The name and the position are the app's to change at any time.
-/

import Coreletd.Mesh.Node
import Coreletd.Proto.PacketCodec
import Coreletd.Proto.Payloads

namespace Coreletd.Mesh

open Coreletd.Crypto
open Coreletd.Proto

/-- The fields of `Node::Config` that an advert carries. -/
structure NodeProfile where
  /-- Empty is an advert without a name, which clients ignore. -/
  name : Bytes := []
  advType : UInt8 := kAdvTypeChat
  /-- 0,0 is no position. -/
  latE6 : Int32 := 0
  lonE6 : Int32 := 0
  deriving DecidableEq

namespace NodeProfile

def hasLocation (profile : NodeProfile) : Bool := profile.latE6 ≠ 0 || profile.lonE6 ≠ 0

def buildAppdata (profile : NodeProfile) : AdvertAppData :=
  { flags := (profile.advType &&& kAdvTypeMask) |||
      (if profile.hasLocation then kAdvHasLocation else 0) |||
      if profile.name ≠ [] then kAdvHasName else 0
    latE6 := if profile.hasLocation then profile.latE6 else 0
    lonE6 := if profile.hasLocation then profile.lonE6 else 0
    name := profile.name }

end NodeProfile

/-- The wall clock: the system's seconds since the epoch, the correction that an
app's time made, and whether one was made. -/
structure WallClock where
  system : Int
  offset : Int := 0
  corrected : Bool := false

namespace WallClock

/-- Before 2024 the clock was never set. -/
def kPlausibleEpoch : UInt32 := 1704067200

def unixNow (clock : WallClock) : UInt32 := UInt32.ofNat (clock.system + clock.offset).toNat

def isValid (clock : WallClock) : Bool := clock.corrected || kPlausibleEpoch ≤ clock.unixNow

end WallClock

/-- An advert of this node as a packet, unless its clock would spoil the
receivers' replay checks. -/
def buildAdvertPacket (sign : Bytes → Bytes) (clock : WallClock) (self : LocalIdentity)
    (profile : NodeProfile) (flood : Bool) : Option Packet :=
  if !clock.isValid then none
  else
    some
      { type := .advert
        route := if flood then .flood else .direct
        payload := (Advert.create sign self clock.unixNow profile.buildAppdata).encode }

/-! ## What a receiver makes of it -/

namespace NodeProfile

variable {profile : NodeProfile}

/-- The four flags and the type, apart. -/
theorem flags_of_parts : ∀ (advType : UInt8) (located named : Bool),
    let flags := (advType &&& kAdvTypeMask) |||
      (if located then kAdvHasLocation else 0) ||| if named then kAdvHasName else 0
    (flags &&& kAdvHasLocation = 0 ↔ located = false) ∧ flags &&& kAdvHasFeature1 = 0 ∧
      flags &&& kAdvHasFeature2 = 0 ∧ (flags &&& kAdvHasName = 0 ↔ named = false) ∧
      flags &&& kAdvTypeMask = advType &&& kAdvTypeMask :=
  forall_byte (by decide +kernel)

theorem flags_buildAppdata (profile : NodeProfile) :
    (profile.buildAppdata.flags &&& kAdvHasLocation = 0 ↔ profile.hasLocation = false) ∧
      profile.buildAppdata.flags &&& kAdvHasFeature1 = 0 ∧
      profile.buildAppdata.flags &&& kAdvHasFeature2 = 0 ∧
      (profile.buildAppdata.flags &&& kAdvHasName = 0 ↔ profile.name = []) ∧
      profile.buildAppdata.nodeType = profile.advType &&& kAdvTypeMask := by
  have hparts := flags_of_parts profile.advType profile.hasLocation (decide (profile.name ≠ []))
  simpa [buildAppdata, AdvertAppData.nodeType] using hparts

theorem canonical_buildAppdata (profile : NodeProfile) :
    profile.buildAppdata.Canonical := by
  obtain ⟨hlocation, -, -, hname, -⟩ := flags_buildAppdata profile
  refine ⟨fun hclear => ?_, fun _ => rfl, fun _ => rfl, hname.mp⟩
  have hnowhere := hlocation.mp hclear
  simp [buildAppdata, hnowhere]

theorem length_encode_buildAppdata (profile : NodeProfile) :
    profile.buildAppdata.encode.length =
      1 + (if profile.hasLocation then 8 else 0) + profile.name.length := by
  obtain ⟨hlocation, hfirst, hsecond, hname, -⟩ := flags_buildAppdata profile
  have hposition : (if profile.buildAppdata.flags &&& kAdvHasLocation ≠ 0 then
      putI32 profile.buildAppdata.latE6 ++ putI32 profile.buildAppdata.lonE6
      else []).length = if profile.hasLocation then 8 else 0 := by
    by_cases hlocated : profile.hasLocation = true
    · rw [if_pos (by rw [Ne, hlocation, hlocated]; simp), if_pos hlocated]
      rfl
    · rw [if_neg (by rw [Ne, hlocation]; simpa using hlocated), if_neg hlocated]
      rfl
  have hcalled : (if profile.buildAppdata.flags &&& kAdvHasName ≠ 0 then
      profile.buildAppdata.name else []) = profile.name := by
    by_cases hnamed : profile.name = []
    · rw [if_neg (by rw [Ne, hname]; exact not_not_intro hnamed), hnamed]
    · rw [if_pos (by rw [Ne, hname]; exact hnamed)]
      rfl
  rw [AdvertAppData.encode, hcalled, if_neg (not_not_intro hfirst),
    if_neg (not_not_intro hsecond)]
  simp only [List.length_append, List.length_singleton, List.length_nil, hposition]
  omega

/-- A name for clients to show, in the space that an advert has for it. -/
structure Advertisable (profile : NodeProfile) : Prop where
  advType : profile.advType &&& kAdvTypeMask = profile.advType
  named : profile.name ≠ []
  first : profile.name.head? ≠ some 0
  fits : 1 + (if profile.hasLocation then 8 else 0) + profile.name.length ≤ 32

/-- What a receiver of a packet finds in it: an advert that verifies, and in its
data the profile's type, name and position. -/
structure ReadAs (lib : Library) (profile : NodeProfile) (raw : Bytes) (packet : Packet)
    (adv : Advert) (app : AdvertAppData) : Prop where
  received : Packet.decode raw = some packet
  kind : packet.type = .advert
  advert : Advert.decode packet.payload = some adv
  verified : adv.verify lib = true
  short : adv.appdata.length ≤ 32
  appdata : AdvertAppData.decode adv.appdata = some app
  nodeType : app.nodeType = profile.advType
  hasName : app.hasName = true
  name : app.name = profile.name
  nameFirst : app.name.head? ≠ some 0 ∧ app.name ≠ []
  hasLocation : app.hasLocation = profile.hasLocation
  position : profile.hasLocation = true → app.latE6 = profile.latE6 ∧ app.lonE6 = profile.lonE6

theorem appdata_read (hprofile : profile.Advertisable) :
    let app := profile.buildAppdata
    app.nodeType = profile.advType ∧ app.hasName = true ∧ app.hasLocation = profile.hasLocation ∧
      (profile.hasLocation = true → app.latE6 = profile.latE6 ∧ app.lonE6 = profile.lonE6) := by
  obtain ⟨hlocation, -, -, hname, htype⟩ := flags_buildAppdata profile
  refine ⟨htype.trans hprofile.advType, ?_, ?_, fun hlocated => ?_⟩
  · rw [AdvertAppData.hasName, decide_eq_true_iff, Ne, hname]
    exact hprofile.named
  · rw [AdvertAppData.hasLocation, Bool.eq_iff_iff, decide_eq_true_iff, Ne, hlocation,
      Bool.not_eq_false]
  · simp [buildAppdata, hlocated]

end NodeProfile

/-- An advert of a node with such a profile is a packet to send, and is read as
the profile. -/
theorem buildAdvertPacket_read {lib : Library} {sign : Bytes → Bytes} {self : LocalIdentity}
    (hsign : ∀ message, (sign message).length = kSignatureSize ∧
      lib.verify self.pub message (sign message) = true)
    {clock : WallClock} (hclock : clock.isValid = true) {profile : NodeProfile}
    (hprofile : profile.Advertisable) (flood : Bool) :
    ∃ sent, buildAdvertPacket sign clock self profile flood = some sent ∧ sent.valid = true ∧
      ∃ packet adv app, profile.ReadAs lib sent.encode packet adv app := by
  let adv := Advert.create sign self clock.unixNow profile.buildAppdata
  let sent : Packet :=
    { type := .advert, route := if flood then .flood else .direct, payload := adv.encode }
  have hshort : adv.appdata.length ≤ 32 := by
    show profile.buildAppdata.encode.length ≤ 32
    rw [NodeProfile.length_encode_buildAppdata]
    exact hprofile.fits
  have hlength : adv.encode.length = kPubKeySize + 4 + kSignatureSize + adv.appdata.length := by
    have hkey : adv.pubkey.length = kPubKeySize := self.pub_length
    have hsignature : adv.signature.length = kSignatureSize := (hsign _).1
    rw [Advert.encode, List.length_append, List.length_append, List.length_append, hkey, hsignature]
    rfl
  have hpath : sent.PathFits := by
    constructor <;> simp [sent]
  have hvalid : sent.valid = true := by
    refine Packet.valid_of_pathFits hpath ?_
    show adv.encode.length ≤ kMaxPayloadSize
    rw [hlength]
    simp only [kPubKeySize, kSignatureSize, kMaxPayloadSize]
    omega
  have hne : sent.payload ≠ [] := by
    show adv.encode ≠ []
    refine List.ne_nil_of_length_pos ?_
    rw [hlength]
    simp only [kPubKeySize]
    omega
  refine ⟨sent, ?_, hvalid, ?_⟩
  · rw [buildAdvertPacket, hclock]
    rfl
  obtain ⟨packet, hdecode, hair⟩ := Packet.decode_encode rfl hne hvalid
  obtain ⟨htype, hnamed, hlocated, hposition⟩ := NodeProfile.appdata_read hprofile
  refine ⟨packet, adv, profile.buildAppdata, hdecode, hair.type, ?_,
    Advert.verify_create hsign _ _, hshort,
    AdvertAppData.decode_encode (NodeProfile.canonical_buildAppdata profile), htype, hnamed, rfl,
    ⟨hprofile.first, hprofile.named⟩, hlocated, hposition⟩
  rw [hair.payload]
  exact Advert.decode_encode self.pub_length (hsign _).1

end Coreletd.Mesh
