/-
# The contact store

Contacts are handed out by pointer in the source and written through it; here
the pointer is the public key and a write is a `modify` of the first contact
that has it. The ECDH result a contact caches is recomputed instead: the key it
depends on never changes. Wall-clock readings are arguments.
-/

import Coreletd.Mesh.Record
import Coreletd.Proto.Payloads
import Coreletd.Util.Persist

namespace Coreletd.Mesh

open Coreletd.Crypto Coreletd.Library Coreletd.Proto

structure Contact where
  pubkey : Bytes
  name : Bytes := []
  type : UInt8 := kAdvTypeChat
  flags : UInt8 := 0
  latE6 : Int32 := 0
  lonE6 : Int32 := 0
  advTimestamp : UInt32 := 0
  lastSeen : UInt32 := 0
  /-- Empty with `pathKnown` set is a zero-hop neighbour. -/
  outPath : Bytes := []
  pathKnown : Bool := false
  lastRssi : Int := 0
  /-- `last_snr`, in quarter dB. -/
  lastSnrQ4 : Int := 0
  deriving DecidableEq

/-- The first key byte, which packets carry instead of the key. -/
def Contact.id (c : Contact) : UInt8 := c.pubkey.headD 0

/-- The ECDH result with this contact, empty when its key is unusable. -/
def Contact.sharedSecret (lib : Library) (self : LocalIdentity) (c : Contact) : Bytes :=
  (lib.sharedSecret self.priv c.pubkey).getD []

def kMaxContacts : Nat := 100

structure ContactStore where
  /-- Empty for an in-memory store. -/
  path : Bytes := []
  maxContacts : Nat := kMaxContacts
  contacts : List Contact := []
  dirty : Bool := false
  deriving DecidableEq

/-- Write through the first element that matches. -/
def modifyFirst {α : Type} (p : α → Bool) (f : α → α) : List α → List α
  | [] => []
  | x :: xs => if p x then f x :: xs else x :: modifyFirst p f xs

theorem forall_mem_modifyFirst {α : Type} {p : α → Bool} {f : α → α} {q : α → Prop}
    {l : List α} (hall : ∀ x ∈ l, q x) (hf : ∀ x, p x = true → q x → q (f x)) :
    ∀ x ∈ modifyFirst p f l, q x := by
  induction l with
  | nil => exact hall
  | cons head tail ih =>
      have hhead := hall head List.mem_cons_self
      have htail : ∀ x ∈ tail, q x := fun x hx => hall x (List.mem_cons_of_mem _ hx)
      rw [modifyFirst]
      split
      · rename_i hmatch
        exact List.forall_mem_cons.mpr ⟨hf head hmatch hhead, htail⟩
      · exact List.forall_mem_cons.mpr ⟨hhead, ih htail⟩

theorem map_modifyFirst {α β : Type} {p : α → Bool} {f : α → α} (key : α → β)
    (hkey : ∀ x, key (f x) = key x) (l : List α) :
    (modifyFirst p f l).map key = l.map key := by
  induction l with
  | nil => rfl
  | cons head tail ih =>
      rw [modifyFirst]
      split
      · simp [hkey]
      · simp [ih]

theorem length_modifyFirst {α : Type} (p : α → Bool) (f : α → α) (l : List α) :
    (modifyFirst p f l).length = l.length := by
  induction l with
  | nil => rfl
  | cons head tail ih =>
      rw [modifyFirst]
      split <;> simp [ih]

theorem filter_modifyFirst {α : Type} {p : α → Bool} {f : α → α} (hf : ∀ x, p (f x) = true)
    (l : List α) : (modifyFirst p f l).filter p = modifyFirst p f (l.filter p) := by
  induction l with
  | nil => rfl
  | cons x l ih =>
      cases hx : p x with
      | true => simp [modifyFirst, hx, hf]
      | false => simp [modifyFirst, hx, ih]

theorem filter_modifyFirst_of_disjoint {α : Type} {p q : α → Bool} {f : α → α}
    (hp : ∀ x, p x = true → q x = false ∧ q (f x) = false) (l : List α) :
    (modifyFirst p f l).filter q = l.filter q := by
  induction l with
  | nil => rfl
  | cons x l ih =>
      cases hx : p x with
      | true => simp [modifyFirst, hx, hp x hx]
      | false => cases hq : q x <;> simp [modifyFirst, hx, hq, ih]

namespace ContactStore

def find (s : ContactStore) (pubkey : Bytes) : Option Contact :=
  s.contacts.find? (·.pubkey = pubkey)

/-- All contacts that share a first key byte, in store order. -/
def byId (s : ContactStore) (id : UInt8) : List Contact := s.contacts.filter (·.id = id)

/-- Write through a `Contact*`. -/
def modify (s : ContactStore) (pubkey : Bytes) (f : Contact → Contact) : ContactStore :=
  { s with contacts := modifyFirst (·.pubkey = pubkey) f s.contacts, dirty := true }

/-- Writing through a contact changes what is found under its key, and nothing else. -/
theorem find_modify (s : ContactStore) (key peer : Bytes) {f : Contact → Contact}
    (hf : ∀ c, (f c).pubkey = c.pubkey) :
    (s.modify key f).find peer = if peer = key then (s.find peer).map f else s.find peer := by
  rw [find, find, modify]
  dsimp only
  induction s.contacts with
  | nil => simp [modifyFirst]
  | cons c rest ih =>
      by_cases hkey : c.pubkey = key
      · subst hkey
        by_cases hpeer : c.pubkey = peer
        · subst hpeer
          simp [modifyFirst, hf]
        · simp [modifyFirst, hf, hpeer, Ne.symm hpeer]
      · by_cases hpeer : c.pubkey = peer
        · subst hpeer
          simp [modifyFirst, hkey]
        · simp [modifyFirst, hkey, hpeer, ih]

/-- Make sure the contact exists; refused when a new one would exceed the
limit. -/
def upsert (s : ContactStore) (pubkey : Bytes) : Option ContactStore :=
  if (s.find pubkey).isSome then some s
  else if s.maxContacts ≤ s.contacts.length then none
  else some { s with contacts := s.contacts ++ [{ pubkey }], dirty := true }

def touch (s : ContactStore) (pubkey : Bytes) (now : UInt32) : ContactStore :=
  s.modify pubkey fun c => { c with lastSeen := now }

/-- `touch` with the radio quality of the packet we heard. -/
def touchSignal (s : ContactStore) (pubkey : Bytes) (now : UInt32) (rssi snrQ4 : Int) :
    ContactStore :=
  s.modify pubkey fun c => { c with lastRssi := rssi, lastSnrQ4 := snrQ4, lastSeen := now }

/-- Whether the route was new, and the store after it. -/
def setPath (s : ContactStore) (pubkey path : Bytes) : Bool × ContactStore :=
  match s.find pubkey with
  | none => (false, s)
  | some c =>
      if c.pathKnown ∧ c.outPath = path then (false, s)
      else (true, s.modify pubkey fun c => { c with outPath := path, pathKnown := true })

def clearPath (s : ContactStore) (pubkey : Bytes) : Bool × ContactStore :=
  match s.find pubkey with
  | none => (false, s)
  | some c =>
      if !c.pathKnown ∧ c.outPath = [] then (false, s)
      else (true, s.modify pubkey fun c => { c with outPath := [], pathKnown := false })

/-- What a newer advert writes into its contact. -/
def adoptAdvert (adv : Advert) (app : AdvertAppData) (now : UInt32) (c : Contact) : Contact :=
  { c with
    advTimestamp := adv.timestamp
    lastSeen := now
    type := app.nodeType
    flags := app.flags
    name := if app.hasName then app.name else c.name
    latE6 := if app.hasLocation then app.latE6 else c.latE6
    lonE6 := if app.hasLocation then app.lonE6 else c.lonE6 }

/-- Apply a verified advert: the store after it and whether the contact is new,
or nothing for a replay and for a new key in a full store. -/
def applyAdvert (s : ContactStore) (adv : Advert) (app : AdvertAppData) (now : UInt32) :
    Option (ContactStore × Bool) :=
  match s.find adv.pubkey with
  | some existing =>
      if adv.timestamp ≤ existing.advTimestamp then none
      else some (s.modify adv.pubkey (adoptAdvert adv app now), false)
  | none =>
      (s.upsert adv.pubkey).map fun s => (s.modify adv.pubkey (adoptAdvert adv app now), true)

def remove (s : ContactStore) (pubkey : Bytes) : Option ContactStore :=
  if (s.find pubkey).isSome then
    some { s with contacts := s.contacts.eraseP (·.pubkey = pubkey), dirty := true }
  else none

/-! ## What a write can do -/

variable {s s' : ContactStore}

/-- The contact is there, or there is room for it. -/
theorem upsert_cases {pubkey : Bytes} (hs : s.upsert pubkey = some s') :
    ((s.find pubkey).isSome = true ∧ s' = s) ∨
      (s.find pubkey = none ∧ s.contacts.length < s.maxContacts ∧
        s' = { s with contacts := s.contacts ++ [{ pubkey }], dirty := true }) := by
  rw [upsert] at hs
  split at hs
  next hknown => exact .inl ⟨hknown, (Option.some.inj hs).symm⟩
  next hnew =>
    split at hs
    · cases hs
    next hroom =>
      exact .inr ⟨by simpa using hnew, Nat.lt_of_not_le hroom, (Option.some.inj hs).symm⟩

/-- The contact an upsert makes sure of. -/
theorem find_upsert {pubkey : Bytes} (hs : s.upsert pubkey = some s') (key : Bytes) :
    s'.find key =
      if key = pubkey then some ((s.find pubkey).getD { pubkey }) else s.find key := by
  rcases upsert_cases hs with ⟨hknown, rfl⟩ | ⟨hnew, -, rfl⟩
  · split
    next hkey =>
      obtain ⟨c, hfind⟩ := Option.isSome_iff_exists.mp hknown
      rw [hkey, hfind, Option.getD_some]
    next => rfl
  · rw [find, find, List.find?_append]
    split
    next hkey =>
      rw [find] at hnew
      simp [hkey, hnew]
    next hkey => simp [find, Ne.symm hkey]

theorem setPath_cases (s : ContactStore) (pubkey path : Bytes) :
    (s.setPath pubkey path).2 = s ∨
      (s.setPath pubkey path).2 =
        s.modify pubkey fun c => { c with outPath := path, pathKnown := true } := by
  rw [setPath]
  split
  · exact .inl rfl
  · split
    · exact .inl rfl
    · exact .inr rfl

theorem clearPath_cases (s : ContactStore) (pubkey : Bytes) :
    (s.clearPath pubkey).2 = s ∨
      (s.clearPath pubkey).2 =
        s.modify pubkey fun c => { c with outPath := [], pathKnown := false } := by
  rw [clearPath]
  split
  · exact .inl rfl
  · split
    · exact .inl rfl
    · exact .inr rfl

/-- An advert that is applied is written into its contact, which is made if it is not
there. -/
theorem applyAdvert_writes {adv : Advert} {app : AdvertAppData} {now : UInt32} {created : Bool}
    (hs : s.applyAdvert adv app now = some (s', created)) :
    ∃ upserted, s.upsert adv.pubkey = some upserted ∧
      s' = upserted.modify adv.pubkey (adoptAdvert adv app now) := by
  rw [applyAdvert] at hs
  split at hs
  next existing hfind =>
    split at hs
    · cases hs
    · obtain ⟨rfl, -⟩ := Prod.mk.inj (Option.some.inj hs)
      exact ⟨s, by rw [upsert, hfind]; rfl, rfl⟩
  · obtain ⟨upserted, hupsert, hpair⟩ := Option.map_eq_some_iff.mp hs
    exact ⟨upserted, hupsert, (Prod.mk.inj hpair).1.symm⟩

/-! ## The file -/

/-- One record a line, whatever bytes a name holds. -/
def sanitise (s : Bytes) : Bytes :=
  s.map fun c => if c = tab ∨ c = lf ∨ c = cr then 32 else c

def headerLine : Bytes := Text.ascii "# coreletd contacts v1"

def columnsLine : Bytes :=
  Text.ascii "# pubkey\ttype\tflags\tadv_ts\tlast_seen\tlat_e6\tlon_e6\tpath\tname"

def pathField (c : Contact) : Bytes :=
  if c.pathKnown then (if c.outPath = [] then Text.ascii "direct" else hex c.outPath)
  else Text.ascii "-"

def recordFields (c : Contact) : List Bytes :=
  [hex c.pubkey, Text.decimal c.type.toNat, Text.decimal c.flags.toNat,
    Text.decimal c.advTimestamp.toNat, Text.decimal c.lastSeen.toNat,
    Text.decimalInt c.latE6.toInt, Text.decimalInt c.lonE6.toInt, pathField c, sanitise c.name]

/-- The lines `save` streams, each ended by a line feed. -/
def fileLines (s : ContactStore) : List Bytes :=
  headerLine :: columnsLine :: s.contacts.map fun c => joinFields (recordFields c)

def fileContent (s : ContactStore) : Bytes := s.fileLines.flatMap fun line => line ++ [lf]

/-- The dirty flag is cleared only once the replacement is installed. -/
def save (io : SaveIo) (s : ContactStore) (fs : FileSystem) : Bool × ContactStore × FileSystem :=
  match saveContent io fs s.path s.fileContent true with
  | (true, fs) => (true, { s with dirty := false }, fs)
  | (false, fs) => (false, s, fs)

/-- The path field: nothing known, a zero-hop neighbour, or a route that fits. -/
def parsePath (field : Bytes) : Option (Bool × Bytes) :=
  if field = Text.ascii "direct" then some (true, [])
  else if field = Text.ascii "-" then some (false, [])
  else
    match unhex field with
    | some path =>
        if path = [] ∨ kMaxPathSize < path.length then none else some (true, path)
    | none => none

/-- One record line against the contacts loaded so far. -/
def parseRecord (maxContacts : Nat) (loaded : List Contact) (line : Bytes) :
    Except String Contact :=
  match splitFields line 9 with
  | some [key, type, flags, advTs, lastSeen, lat, lon, path, name] =>
      match unhex key with
      | none => .error "invalid public key"
      | some pubkey =>
          if pubkey.length ≠ kPubKeySize then .error "invalid public key"
          else if loaded.any (·.pubkey = pubkey) then .error "duplicate public key"
          else
            match parseUnsigned type 255, parseUnsigned flags 255,
              parseUnsigned advTs 4294967295, parseUnsigned lastSeen 4294967295,
              parseSigned lat (-90000000) 90000000, parseSigned lon (-180000000) 180000000 with
            | some type, some flags, some advTs, some lastSeen, some lat, some lon =>
                match parsePath path with
                | none => .error "invalid path"
                | some (pathKnown, outPath) =>
                    if maxContacts ≤ loaded.length then .error "contact limit exceeded"
                    else .ok
                      { pubkey, name, type := UInt8.ofNat type, flags := UInt8.ofNat flags,
                        advTimestamp := UInt32.ofNat advTs, lastSeen := UInt32.ofNat lastSeen,
                        latE6 := Int32.ofInt lat, lonE6 := Int32.ofInt lon, outPath, pathKnown }
            | _, _, _, _, _, _ => .error "invalid numeric field"
  | _ => .error "malformed record"

/-- One turn of the loading loop: whether the header was seen, and the contacts
so far. -/
def loadLine (maxContacts : Nat) (acc : Bool × List Contact) (line : Bytes) :
    Except String (Bool × List Contact) :=
  if line = headerLine then .ok (true, acc.2)
  else if line = [] ∨ line.head? = some 35 then .ok acc
  else
    match parseRecord maxContacts acc.2 line with
    | .ok c => .ok (acc.1, acc.2 ++ [c])
    | .error why => .error why

/-- Read the store's file. `badAfter` is a read error behind that many lines. -/
def load (s : ContactStore) (fs : FileSystem) (badAfter : Option Nat := none) :
    LoadResult × ContactStore :=
  if s.path = [] then (.missing, s)
  else
    match fs s.path with
    | none => (.missing, s)
    | some content =>
        let all := Text.lines lf content
        let seen := match badAfter with
          | some n => all.take n
          | none => all
        match seen.foldlM (loadLine s.maxContacts) (false, []) with
        | .error _ => (.corrupt, s)
        | .ok (sawHeader, loaded) =>
            if badAfter.isSome then (.corrupt, s)
            else if !sawHeader then (.corrupt, s)
            else (.loaded, { s with contacts := loaded, dirty := false })

end ContactStore

end Coreletd.Mesh
