/-
# Adverts in any order

To the contact store an advert is an offer: under its key, the one with the latest
timestamp stays, so the order in which adverts arrive and how often they do leaves no
trace. An advert that is not taken leaves the node as it was.
-/

import Mathlib.Data.Finset.Card
import Mathlib.Data.Finset.Dedup
import Coreletd.Library.Newest
import Coreletd.Library.Runs
import Coreletd.Mesh.NodeSteps

namespace Coreletd.Mesh

open Coreletd.Crypto Coreletd.Library Coreletd.Proto

/-! ## Adverts -/

/-- An advert that gets as far as the contact store: its signature is good, it is not
our own, and its appdata decodes and carries a name. -/
structure NamedAdvert (lib : Crypto.Library) (own : LocalIdentity) where
  adv : Advert
  app : AdvertAppData
  verified : adv.verify lib = true
  foreign : adv.pubkey ≠ own.pub
  decoded : AdvertAppData.decode adv.appdata = some app
  named : app.hasName = true ∧ app.name ≠ [] ∧ app.name.head? ≠ some 0

/-- What adverts have a say in: the fields of a contact that its newest one sets. -/
structure Described where
  advTimestamp : UInt32
  type : UInt8
  flags : UInt8
  name : Bytes
  deriving DecidableEq

def Described.stamp (d : Described) : Nat := d.advTimestamp.toNat

def Contact.described (c : Contact) : Described where
  advTimestamp := c.advTimestamp
  type := c.type
  flags := c.flags
  name := c.name

namespace NamedAdvert

variable {lib : Crypto.Library} {own : LocalIdentity}

def key (advert : NamedAdvert lib own) : Bytes := advert.adv.pubkey

def described (advert : NamedAdvert lib own) : Described where
  advTimestamp := advert.adv.timestamp
  type := advert.app.nodeType
  flags := advert.app.flags
  name := advert.app.name

theorem described_congr {advert other : NamedAdvert lib own} (hadv : advert.adv = other.adv) :
    advert.described = other.described := by
  have happ : some advert.app = some other.app := by
    rw [← advert.decoded, ← other.decoded, hadv]
  rw [described, described, hadv, Option.some.inj happ]

end NamedAdvert

/-! ## One advert at the store -/

namespace ContactStore

/-- What the store holds of a contact that adverts have a say in. -/
def described (s : ContactStore) (key : Bytes) : Option Described :=
  (s.find key).map Contact.described

/-- An advert the store has no use for: not newer than its contact, or of a new key when
the store is full. -/
def Ignores (s : ContactStore) (adv : Advert) : Prop :=
  (∃ c, s.find adv.pubkey = some c ∧ adv.timestamp ≤ c.advTimestamp) ∨
    (s.find adv.pubkey = none ∧ s.maxContacts ≤ s.contacts.length)

variable {s s' : ContactStore} {adv : Advert} {app : AdvertAppData} {now : UInt32}

theorem applyAdvert_of_ignores (hignores : s.Ignores adv) : s.applyAdvert adv app now = none := by
  rcases hignores with ⟨c, hfind, hle⟩ | ⟨hfind, hfull⟩
  · rw [applyAdvert, hfind]
    exact if_pos hle
  · rw [applyAdvert, hfind]
    simp [upsert, hfind, hfull]

/-- An advert the store has a use for is applied, to its contact and to no other. -/
theorem applyAdvert_of_not_ignores (hnot : ¬s.Ignores adv) (app : AdvertAppData)
    (now : UInt32) :
    ∃ s' created, s.applyAdvert adv app now = some (s', created) ∧
      (∀ c, s.find adv.pubkey = some c → c.advTimestamp < adv.timestamp) ∧
      ∀ key, s'.find key =
        if key = adv.pubkey then
          some (adoptAdvert adv app now ((s.find adv.pubkey).getD { pubkey := adv.pubkey }))
        else s.find key := by
  have hlater : ∀ c, s.find adv.pubkey = some c → c.advTimestamp < adv.timestamp :=
    fun c hfind => UInt32.not_le.mp fun hle => hnot (.inl ⟨c, hfind, hle⟩)
  have hroom : s.find adv.pubkey = none → s.contacts.length < s.maxContacts :=
    fun hfind => Nat.lt_of_not_le fun hfull => hnot (.inr ⟨hfind, hfull⟩)
  have happlied : (s.applyAdvert adv app now).isSome = true := by
    rw [applyAdvert]
    cases hfind : s.find adv.pubkey with
    | some c => simp [UInt32.not_le.mpr (hlater c hfind)]
    | none => simp [upsert, hfind, hroom hfind]
  obtain ⟨⟨s', created⟩, hs⟩ := Option.isSome_iff_exists.mp happlied
  obtain ⟨upserted, hupsert, rfl⟩ := applyAdvert_writes hs
  have hkeys : ∀ c, (adoptAdvert adv app now c).pubkey = c.pubkey := fun _ => rfl
  refine ⟨_, created, hs, hlater, fun key => ?_⟩
  rw [find_modify upserted adv.pubkey key hkeys, find_upsert hupsert]
  split
  next hkey => rw [Option.map_some]
  next => rfl

/-! ## Room -/

/-- The store can hold every one of these keys. -/
def HasRoom (s : ContactStore) (keys : Finset Bytes) : Prop :=
  (keys.filter fun key => s.find key = none).card ≤ s.maxContacts - s.contacts.length

instance (s : ContactStore) (keys : Finset Bytes) : Decidable (s.HasRoom keys) :=
  inferInstanceAs (Decidable (_ ≤ _))

variable {keys : Finset Bytes} {key : Bytes}

theorem HasRoom.lt (hroom : s.HasRoom keys) (hkey : key ∈ keys) (hfind : s.find key = none) :
    s.contacts.length < s.maxContacts := by
  have hpos : 0 < (keys.filter fun key => s.find key = none).card :=
    Finset.card_pos.mpr ⟨key, Finset.mem_filter.mpr ⟨hkey, hfind⟩⟩
  have hle : 0 < s.maxContacts - s.contacts.length := hpos.trans_le hroom
  omega

/-- Writing into a contact takes no room. -/
theorem HasRoom.modify (hroom : s.HasRoom keys) (pubkey : Bytes) {f : Contact → Contact}
    (hf : ∀ c, (f c).pubkey = c.pubkey) : (s.modify pubkey f).HasRoom keys := by
  have hnone : ∀ key, (s.modify pubkey f).find key = none ↔ s.find key = none := by
    intro key
    rw [find_modify s pubkey key hf]
    split
    · exact Option.map_eq_none_iff
    · exact Iff.rfl
  have hlength : (s.modify pubkey f).contacts.length = s.contacts.length :=
    length_modifyFirst _ _ _
  simp only [HasRoom, hnone, hlength]
  exact hroom

/-- A contact that is made was counted. -/
theorem HasRoom.upsert (hroom : s.HasRoom keys) (hkey : key ∈ keys)
    (hs : s.upsert key = some s') : s'.HasRoom keys := by
  have hfind := find_upsert hs
  rcases upsert_cases hs with ⟨-, rfl⟩ | ⟨hnew, -, rfl⟩
  · exact hroom
  · have herase : (keys.filter fun other => find { s with
          contacts := s.contacts ++ [{ pubkey := key }], dirty := true } other = none) =
        (keys.filter fun other => s.find other = none).erase key := by
      ext other
      simp only [Finset.mem_filter, Finset.mem_erase, hfind]
      split
      next hequal => simp [hequal]
      next hne => simp [hne]
    rw [HasRoom, herase, Finset.card_erase_of_mem (Finset.mem_filter.mpr ⟨hkey, hnew⟩)]
    simp only [List.length_append, List.length_singleton]
    have hcounted : (keys.filter fun other => s.find other = none).card ≤
      s.maxContacts - s.contacts.length := hroom
    omega

theorem HasRoom.applyAdvert {created : Bool} (hroom : s.HasRoom keys) (hkey : adv.pubkey ∈ keys)
    (hs : s.applyAdvert adv app now = some (s', created)) : s'.HasRoom keys := by
  obtain ⟨upserted, hupsert, rfl⟩ := applyAdvert_writes hs
  exact (hroom.upsert hkey hupsert).modify adv.pubkey fun _ => rfl

end ContactStore

/-! ## One advert at the node -/

/-- An advert as it comes in: the packet that carries it, and when. -/
structure Arrival (lib : Crypto.Library) (own : LocalIdentity) where
  moment : Moment
  packet : Packet
  advert : NamedAdvert lib own
  carries : Advert.decode packet.payload = some advert.adv

/-- The node behind `handle_advert`. -/
def Node.hear {lib : Crypto.Library} {own : LocalIdentity} (n : Node) (arrival : Arrival lib own) :
    Node :=
  (n.handleAdvert lib arrival.moment arrival.packet).2

/-- What one arrival does to the node. -/
structure Heard {lib : Crypto.Library} {own : LocalIdentity} (n : Node)
    (arrival : Arrival lib own) : Prop where
  /-- No contact, no flag and no event: the node is the one it was. -/
  ignored : n.contacts.Ignores arrival.advert.adv → n.hear arrival = n
  /-- Its contact moves on in time, and the app is told. -/
  later : ¬n.contacts.Ignores arrival.advert.adv →
    ∀ c, n.contacts.find arrival.advert.key = some c →
      c.advTimestamp < arrival.advert.adv.timestamp
  described : ¬n.contacts.Ignores arrival.advert.adv →
    (n.hear arrival).contacts.described arrival.advert.key = some arrival.advert.described
  others : ∀ key, key ≠ arrival.advert.key →
    (n.hear arrival).contacts.find key = n.contacts.find key
  told : ¬n.contacts.Ignores arrival.advert.adv → ∃ created, (n.hear arrival).notices =
    .contactChanged arrival.advert.key created :: .advertSeen arrival.advert.key :: n.notices

section Hearing

variable {lib : Crypto.Library} {own : LocalIdentity} {n : Node} (arrival : Arrival lib own)

/-- Everything in front of the store lets the advert through. -/
theorem Node.hear_eq (hown : n.identity = own) :
    n.hear arrival =
      match n.contacts.applyAdvert arrival.advert.adv arrival.advert.app arrival.moment.unixNow with
      | none => n
      | some (contacts, created) =>
          (({ n with
              contacts := contacts.touchSignal arrival.advert.key arrival.moment.unixNow
                arrival.packet.rssi arrival.packet.snrQ4 }.notify
            (.advertSeen arrival.advert.key)).notify
            (.contactChanged arrival.advert.key created)) := by
  obtain ⟨hhas, hne, hfirst⟩ := arrival.advert.named
  have hforeign : arrival.advert.adv.pubkey ≠ n.identity.pub := hown ▸ arrival.advert.foreign
  rw [hear, handleAdvert, arrival.carries]
  simp only [arrival.advert.verified, Bool.not_true, Bool.false_eq_true, if_false, hforeign,
    applyAdvert, arrival.advert.decoded, hhas, hne, hfirst, decide_false, Bool.or_false]
  rfl

theorem heard (hown : n.identity = own) : Heard n arrival := by
  by_cases hignores : n.contacts.Ignores arrival.advert.adv
  · have hsame : n.hear arrival = n := by
      rw [Node.hear_eq arrival hown, ContactStore.applyAdvert_of_ignores hignores]
    exact ⟨fun _ => hsame, fun hnot => absurd hignores hnot, fun hnot => absurd hignores hnot,
      fun _ _ => by rw [hsame], fun hnot => absurd hignores hnot⟩
  · obtain ⟨contacts, created, hs, hlater, hfind⟩ := ContactStore.applyAdvert_of_not_ignores
      hignores arrival.advert.app arrival.moment.unixNow
    have hhear := Node.hear_eq arrival hown
    rw [hs] at hhear
    have htouched : ∀ key, (n.hear arrival).contacts.find key =
        if key = arrival.advert.key then
          (contacts.find key).map fun c => { c with
            lastRssi := arrival.packet.rssi
            lastSnrQ4 := arrival.packet.snrQ4
            lastSeen := arrival.moment.unixNow }
        else contacts.find key := by
      intro key
      rw [hhear]
      exact ContactStore.find_modify contacts arrival.advert.key key fun _ => rfl
    refine ⟨fun h => absurd h hignores, fun _ => hlater, fun _ => ?_, fun key hkey => ?_,
      fun _ => ⟨created, by rw [hhear]; rfl⟩⟩
    · obtain ⟨hhas, -, -⟩ := arrival.advert.named
      rw [ContactStore.described, htouched, if_pos rfl, hfind]
      simp [NamedAdvert.key, Contact.described, NamedAdvert.described, ContactStore.adoptAdvert,
        hhas]
    · rw [htouched, if_neg hkey, hfind]
      exact if_neg hkey

variable {arrival} {keys : Finset Bytes}

theorem Node.identity_hear (hown : n.identity = own) : (n.hear arrival).identity = own := by
  rw [hear_eq arrival hown]
  split
  · exact hown
  · exact hown

theorem Node.hasRoom_hear (hown : n.identity = own) (hroom : n.contacts.HasRoom keys)
    (hkey : arrival.advert.key ∈ keys) : (n.hear arrival).contacts.HasRoom keys := by
  rw [hear_eq arrival hown]
  split
  next => exact hroom
  next contacts created hs => exact (hroom.applyAdvert hkey hs).modify _ fun _ => rfl

/-- With room for its key, an advert is an offer to what is held under it. -/
theorem Node.described_hear (hown : n.identity = own) (hroom : n.contacts.HasRoom keys)
    (hkey : arrival.advert.key ∈ keys) (key : Bytes) :
    (n.hear arrival).contacts.described key =
      if key = arrival.advert.key then
        adopt Described.stamp (n.contacts.described key) arrival.advert.described
      else n.contacts.described key := by
  have hheard := heard arrival hown
  by_cases hequal : key = arrival.advert.key
  · subst hequal
    rw [if_pos rfl]
    cases hfind : n.contacts.find arrival.advert.key with
    | none =>
      have hnot : ¬n.contacts.Ignores arrival.advert.adv := by
        rintro (⟨c, hknown, -⟩ | ⟨-, hfull⟩)
        · exact absurd (hknown.symm.trans hfind) (by simp)
        · exact absurd hfull (Nat.not_le.mpr (hroom.lt hkey hfind))
      rw [hheard.described hnot, ContactStore.described, hfind]
      rfl
    | some c =>
      have hheld : n.contacts.described arrival.advert.key = some c.described := by
        rw [ContactStore.described, hfind, Option.map_some]
      rw [hheld, adopt]
      by_cases hle : arrival.advert.adv.timestamp ≤ c.advTimestamp
      · rw [hheard.ignored (.inl ⟨c, hfind, hle⟩), hheld]
        exact (if_pos (UInt32.le_iff_toNat_le.mp hle)).symm
      · have hnot : ¬n.contacts.Ignores arrival.advert.adv := by
          rintro (⟨other, hknown, hold⟩ | ⟨hunknown, -⟩)
          · obtain rfl := Option.some.inj (hknown.symm.trans hfind)
            exact hle hold
          · exact absurd (hunknown.symm.trans hfind) (by simp)
        rw [hheard.described hnot]
        exact (if_neg fun hstamp => hle (UInt32.le_iff_toNat_le.mpr hstamp)).symm
  · rw [if_neg hequal, ContactStore.described, hheard.others key hequal, ContactStore.described]

end Hearing

/-! ## Every order of arrival -/

section Converging

variable {lib : Crypto.Library} {own : LocalIdentity} {n : Node}

/-- What these adverts offer under a key, in order. -/
def offersOf (adverts : List (NamedAdvert lib own)) (key : Bytes) : List Described :=
  (adverts.filter (·.key = key)).map (·.described)

/-- The same without the order. -/
def offered (adverts : List (NamedAdvert lib own)) (key : Bytes) : Set Described :=
  {d | ∃ advert ∈ adverts, advert.key = key ∧ advert.described = d}

theorem mem_offersOf (adverts : List (NamedAdvert lib own)) (key : Bytes) :
    {d | d ∈ offersOf adverts key} = offered adverts key := by
  ext d
  simp [offersOf, offered, and_assoc]

/-- No two adverts of one key have a timestamp in common. -/
def DistinctTimestamps (adverts : List (NamedAdvert lib own)) : Prop :=
  ∀ advert ∈ adverts, ∀ other ∈ adverts, advert.key = other.key →
    advert.adv.timestamp = other.adv.timestamp → advert.adv = other.adv

/-- These arrivals bring these adverts, each at least once and no others. -/
def Delivers (adverts : List (NamedAdvert lib own)) (arrivals : List (Arrival lib own)) : Prop :=
  ∀ advert, advert ∈ adverts ↔ advert ∈ arrivals.map (·.advert)

theorem injOn_offered {adverts : List (NamedAdvert lib own)}
    (hdistinct : DistinctTimestamps adverts) (key : Bytes) :
    Set.InjOn Described.stamp (offered adverts key) := by
  rintro _ ⟨advert, hadvert, rfl, rfl⟩ _ ⟨other, hother, hkey, rfl⟩ hstamp
  have htime : advert.adv.timestamp = other.adv.timestamp := UInt32.toNat_inj.mp hstamp
  exact NamedAdvert.described_congr (hdistinct advert hadvert other hother hkey.symm htime)

theorem offered_of_delivers {adverts : List (NamedAdvert lib own)}
    {arrivals : List (Arrival lib own)} (hdelivers : Delivers adverts arrivals) (key : Bytes) :
    offered (arrivals.map (·.advert)) key = offered adverts key := by
  simp only [offered, hdelivers _]

/-- Under every key the store is a register that takes what is newer. -/
theorem described_run {keys : Finset Bytes} {arrivals : List (Arrival lib own)}
    (hown : n.identity = own) (hroom : n.contacts.HasRoom keys)
    (hkeys : ∀ arrival ∈ arrivals, arrival.advert.key ∈ keys) (key : Bytes) :
    (run Node.hear n arrivals).contacts.described key =
      (offersOf (arrivals.map (·.advert)) key).foldl (adopt Described.stamp)
        (n.contacts.described key) := by
  induction arrivals generalizing n with
  | nil => rfl
  | cons arrival rest ih =>
    have hkey := hkeys arrival List.mem_cons_self
    have hrest := ih (Node.identity_hear hown) (Node.hasRoom_hear hown hroom hkey)
      fun other hother => hkeys other (List.mem_cons_of_mem _ hother)
    rw [run_cons, hrest, Node.described_hear hown hroom hkey]
    by_cases hequal : arrival.advert.key = key
    · rw [if_pos hequal.symm, offersOf, offersOf, List.map_cons,
        List.filter_cons_of_pos (by simpa using hequal)]
      rfl
    · rw [if_neg (Ne.symm hequal), offersOf, offersOf, List.map_cons,
        List.filter_cons_of_neg (by simpa using hequal)]

theorem along_heard (hown : n.identity = own) (arrivals : List (Arrival lib own)) :
    Along Node.hear Heard n arrivals := by
  induction arrivals generalizing n with
  | nil => trivial
  | cons arrival rest ih => exact ⟨heard arrival hown, ih (Node.identity_hear hown)⟩

end Converging

/-- Adverts converge: however they are delivered, every contact ends as its newest one
has it, or as it was when none is newer. On the way each of them moves its contact on in
time, or is ignored and leaves the node alone. -/
theorem adverts_converge {lib : Crypto.Library} (n : Node)
    (adverts : List (NamedAdvert lib n.identity)) (hdistinct : DistinctTimestamps adverts)
    (hroom : n.contacts.HasRoom (adverts.map (·.key)).toFinset) :
    (∃ final : Bytes → Option Described,
      (∀ key, Newest Described.stamp (n.contacts.described key) (offered adverts key)
        (final key)) ∧
      ∀ arrivals, Delivers adverts arrivals → ∀ key,
        (run Node.hear n arrivals).contacts.described key = final key) ∧
    ∀ arrivals : List (Arrival lib n.identity), Along Node.hear Heard n arrivals := by
  have hnewest : ∀ arrivals, Delivers adverts arrivals → ∀ key,
      Newest Described.stamp (n.contacts.described key) (offered adverts key)
        ((run Node.hear n arrivals).contacts.described key) := by
    intro arrivals hdelivers key
    have hkeys : ∀ arrival ∈ arrivals, arrival.advert.key ∈ (adverts.map (·.key)).toFinset := by
      intro arrival harrival
      have hmem := (hdelivers arrival.advert).mpr (List.mem_map_of_mem harrival)
      exact List.mem_toFinset.mpr (List.mem_map_of_mem hmem)
    rw [described_run rfl hroom hkeys, ← offered_of_delivers hdelivers key, ← mem_offersOf]
    exact newest_foldl _ _ _
  have hfinal : ∀ key, Newest Described.stamp (n.contacts.described key) (offered adverts key)
      ((offersOf adverts key).foldl (adopt Described.stamp) (n.contacts.described key)) := by
    intro key
    rw [← mem_offersOf]
    exact newest_foldl _ _ _
  refine ⟨⟨_, hfinal, fun arrivals hdelivers key => ?_⟩, along_heard rfl⟩
  exact (hnewest arrivals hdelivers key).unique (injOn_offered hdistinct key) (hfinal key)

/-! ## A node that changes its name -/

def listening : Node :=
  Node.new 10 16 8
    { pub := List.replicate 32 11, priv := List.replicate 32 11, pub_length := by decide }
    {} 0 {} {} {} fun _ => none

/-- The neighbour as "A". -/
def firstName : NamedAdvert Library.transparent listening.identity where
  adv := { pubkey := List.replicate 32 2, timestamp := 5, signature := List.replicate 64 0,
           appdata := [0x81, 65] }
  app := { flags := 0x81, name := [65] }
  verified := by decide
  foreign := by decide
  decoded := by decide
  named := by decide

/-- The neighbour as "B", a second later. -/
def secondName : NamedAdvert Library.transparent listening.identity where
  adv := { firstName.adv with timestamp := 6, appdata := [0x81, 66] }
  app := { flags := 0x81, name := [66] }
  verified := by decide
  foreign := by decide
  decoded := by decide
  named := by decide

/-- The packet an advert comes in. -/
def packetOf (adv : Advert) : Packet := { type := .advert, payload := adv.encode }

/-- The later one first, then the older one, then the later one again. -/
def outOfOrder : List (Arrival Library.transparent listening.identity) :=
  [⟨{ radio := .down }, packetOf secondName.adv, secondName, by decide +kernel⟩,
    ⟨{ radio := .down }, packetOf firstName.adv, firstName, by decide +kernel⟩,
    ⟨{ radio := .down }, packetOf secondName.adv, secondName, by decide +kernel⟩]

theorem adverts_converge_renamed :
    (run Node.hear listening outOfOrder).contacts.described secondName.key =
        some secondName.described ∧
      Along Node.hear Heard listening outOfOrder := by
  have hdistinct : DistinctTimestamps [secondName, firstName] := by
    simp [DistinctTimestamps]
    decide
  have hdelivers : Delivers [secondName, firstName] outOfOrder := by
    intro advert
    simp only [outOfOrder, List.map_cons, List.map_nil, List.mem_cons, List.not_mem_nil, or_false]
    tauto
  obtain ⟨⟨final, hnewest, hfinal⟩, halong⟩ :=
    adverts_converge listening [secondName, firstName] hdistinct (by decide +kernel)
  have hsecond : Newest Described.stamp (listening.contacts.described secondName.key)
      (offered [secondName, firstName] secondName.key) (some secondName.described) := by
    refine .taken ⟨secondName, List.mem_cons_self, rfl, rfl⟩ ?_ ?_
    · intro current hcurrent
      cases hcurrent
    · rintro _ ⟨advert, hadvert, -, rfl⟩
      rcases List.mem_cons.mp hadvert with rfl | hadvert
      · exact le_rfl
      · obtain rfl := List.mem_singleton.mp hadvert
        decide
  refine ⟨?_, halong outOfOrder⟩
  rw [hfinal outOfOrder hdelivers]
  exact (hnewest secondName.key).unique (injOn_offered hdistinct _) hsecond

end Coreletd.Mesh
