/-
# Incremental contact sync

An app that has synced asks for what is new since a mark it was given. Both the
mark and the filter are the peers' own clocks, so a peer whose clock is behind the
mark is missed, however lately it was heard.
-/

import Coreletd.Companion.ContactRuns
import Coreletd.Companion.Session
import Coreletd.Mesh.Node

namespace Coreletd.Companion

open Coreletd.Crypto Coreletd.Library Coreletd.Proto Coreletd.Mesh

def kRespContactsStart : UInt8 := 2
def kRespContact : UInt8 := 3
def kRespEndOfContacts : UInt8 := 4

/-! ## The command -/

def contactFrame (code : UInt8) (c : Contact) : Bytes :=
  [code] ++ c.pubkey ++
    [c.type, c.flags, if c.pathKnown then UInt8.ofNat c.outPath.length else kNoPath] ++
    putPadded c.outPath kContactPathField ++ putPadded c.name kContactNameField ++
    putU32 c.advTimestamp ++ putI32 c.latE6 ++ putI32 c.lonE6 ++
    putU32 (if c.lastSeen ≠ 0 then c.lastSeen else c.advTimestamp)

/-- The optional filter of `CMD_GET_CONTACTS`. -/
def readSince (args : Bytes) : UInt32 :=
  if (Reader.ofBytes args).has 4 then (Reader.ofBytes args).u32.1 else 0

/-- The contacts that are not older than the filter. -/
def matching (s : ContactStore) (since : UInt32) : List Contact :=
  s.contacts.filter fun c => !decide (c.advTimestamp < since)

def mostRecent (contacts : List Contact) : UInt32 :=
  contacts.foldl (fun latest c => max latest c.advTimestamp) 0

/-- Everything the command replies with. -/
def cmdGetContacts (s : ContactStore) (args : Bytes) : List Bytes :=
  let matching := matching s (readSince args)
  [[kRespContactsStart] ++ putU32 (UInt32.ofNat matching.length)] ++
    matching.map (contactFrame kRespContact) ++
    [[kRespEndOfContacts] ++ putU32 (mostRecent matching)]

/-- What the reply to `CMD_GET_CONTACTS` ends with. -/
def syncMark (s : ContactStore) (args : Bytes) : UInt32 := mostRecent (matching s (readSince args))

/-! ## Runs -/

/-- A received advert, as far as it is one to apply: signed, not our own, and with a
name. -/
def namedAdvert (lib : Crypto.Library) (self payload : Bytes) : Option (Advert × AdvertAppData) :=
  match Advert.decode payload with
  | none => none
  | some adv =>
      if !adv.verify lib then none
      else if adv.pubkey = self then none
      else
        match AdvertAppData.decode adv.appdata with
        | none => none
        | some app =>
            if !app.hasName || app.name = [] || app.name.head? = some 0 then none
            else some (adv, app)

/-- What happens to the contacts while the daemon runs. -/
inductive ContactEvent where
  | advert (payload : Bytes) (now : UInt32) (rssi snrQ4 : Int)
  | addUpdateContact (args : Bytes)
  | removeContact (args : Bytes)
  | resetPath (args : Bytes)
  /-- A path was returned. -/
  | setPath (pubkey path : Bytes)
  /-- A route was given up. -/
  | clearPath (pubkey : Bytes)
  | touch (pubkey : Bytes) (now : UInt32)
  | touchSignal (pubkey : Bytes) (now : UInt32) (rssi snrQ4 : Int)

/-- The contacts, and the keys of those that an advert created or updated since the
sync; one that the app removed is not a contact any more. -/
structure Sync where
  store : ContactStore
  changed : List Bytes := []

namespace Sync

def applyAdvert (s : Sync) (adv : Advert) (app : AdvertAppData) (now : UInt32)
    (rssi snrQ4 : Int) : Sync :=
  match s.store.applyAdvert adv app now with
  | none => s
  | some (store, _) =>
      { store := store.touchSignal adv.pubkey now rssi snrQ4, changed := adv.pubkey :: s.changed }

def removeContact (s : Sync) (args : Bytes) : Sync :=
  match cmdRemoveContact s.store args with
  | .ok store => { store, changed := s.changed.filter (· ≠ args.take kPubKeySize) }
  | .error _ => s

def step (lib : Crypto.Library) (self : Bytes) (s : Sync) : ContactEvent → Sync
  | .advert payload now rssi snrQ4 =>
      match namedAdvert lib self payload with
      | none => s
      | some (adv, app) => s.applyAdvert adv app now rssi snrQ4
  | .addUpdateContact args =>
    { s with store := (cmdAddUpdateContact s.store args).toOption.getD s.store }
  | .removeContact args => s.removeContact args
  | .resetPath args => { s with store := (cmdResetPath s.store args).toOption.getD s.store }
  | .setPath pubkey path => { s with store := (s.store.setPath pubkey path).2 }
  | .clearPath pubkey => { s with store := (s.store.clearPath pubkey).2 }
  | .touch pubkey now => { s with store := s.store.touch pubkey now }
  | .touchSignal pubkey now rssi snrQ4 =>
      { s with store := s.store.touchSignal pubkey now rssi snrQ4 }

/-- The contact under a key is in the reply to `CMD_GET_CONTACTS` with a filter. -/
def Reported (s : Sync) (since : UInt32) (key : Bytes) : Prop :=
  ∃ c, s.store.find key = some c ∧
    contactFrame kRespContact c ∈ cmdGetContacts s.store (putU32 since)

/-- A sync from the mark misses none of the contacts that adverts changed since. -/
def Complete (mark : UInt32) (s : Sync) : Prop := ∀ key ∈ s.changed, s.Reported mark key

/-- The timestamp an add-or-update frame carries, if it goes that far. -/
def frameTimestamp (args : Bytes) : Option UInt32 := (readTail (readAddUpdateHead args).2).2.1

/-- No advert that is taken on, and no frame that overwrites the time of a contact an
advert changed, has a time before the mark. -/
def Current (lib : Crypto.Library) (self : Bytes) (mark : UInt32) (s : Sync) : ContactEvent → Prop
  | .advert payload now _ _ =>
      ∀ adv app, namedAdvert lib self payload = some (adv, app) →
        (s.store.applyAdvert adv app now).isSome = true → mark ≤ adv.timestamp
  | .addUpdateContact args =>
      (readAddUpdateHead args).1.pubkey ∈ s.changed →
        (cmdAddUpdateContact s.store args).toOption.isSome = true →
          ∀ timestamp, frameTimestamp args = some timestamp → mark ≤ timestamp
  | _ => True

end Sync

/-! ## What the reply holds -/

theorem length_putU32 (v : UInt32) : (putU32 v).length = 4 := rfl

/-- The frames of two contacts tell their times apart. -/
theorem advTimestamp_of_contactFrame {code : UInt8} {c c' : Contact}
    (hequal : contactFrame code c = contactFrame code c') : c.advTimestamp = c'.advTimestamp := by
  unfold contactFrame at hequal
  obtain ⟨hequal, -⟩ := List.append_inj' hequal (by rw [length_putU32, length_putU32])
  obtain ⟨hequal, -⟩ := List.append_inj' hequal (by rw [putI32, putI32, length_putU32, length_putU32])
  obtain ⟨hequal, -⟩ := List.append_inj' hequal (by rw [putI32, putI32, length_putU32, length_putU32])
  obtain ⟨-, htime⟩ := List.append_inj' hequal (by rw [length_putU32, length_putU32])
  exact putU32_injective htime

theorem readSince_putU32 (since : UInt32) : readSince (putU32 since) = since := by
  have hread := Reader.u32_putU32 since []
  rw [List.append_nil] at hread
  have hhas : (Reader.ofBytes (putU32 since)).has 4 = true := rfl
  rw [readSince, if_pos hhas, hread]

theorem mem_cmdGetContacts {s : ContactStore} {since : UInt32} {c : Contact}
    (hc : c ∈ s.contacts) :
    contactFrame kRespContact c ∈ cmdGetContacts s (putU32 since) ↔ since ≤ c.advTimestamp := by
  have hstart (bytes : Bytes) : contactFrame kRespContact c ≠ [kRespContactsStart] ++ bytes := by
    intro hequal
    simp [contactFrame, kRespContact, kRespContactsStart] at hequal
  have hend (bytes : Bytes) : contactFrame kRespContact c ≠ [kRespEndOfContacts] ++ bytes := by
    intro hequal
    simp [contactFrame, kRespContact, kRespEndOfContacts] at hequal
  simp only [cmdGetContacts, readSince_putU32, List.mem_append, List.mem_singleton, hstart, hend,
    false_or, or_false, List.mem_map, matching, List.mem_filter]
  constructor
  · rintro ⟨other, ⟨-, hsince⟩, hequal⟩
    rw [← advTimestamp_of_contactFrame hequal]
    simpa using hsince
  · intro hsince
    exact ⟨c, ⟨hc, by simpa using hsince⟩, rfl⟩

/-- The time of the last advert of a contact. -/
def advTime (s : ContactStore) (key : Bytes) : Option UInt32 := (s.find key).map (·.advTimestamp)

theorem Sync.reported_iff (s : Sync) (since : UInt32) (key : Bytes) :
    s.Reported since key ↔ ∃ time, advTime s.store key = some time ∧ since ≤ time := by
  constructor
  · rintro ⟨c, hfind, hmem⟩
    refine ⟨c.advTimestamp, by rw [advTime, hfind]; rfl, ?_⟩
    exact (mem_cmdGetContacts (List.mem_of_find?_eq_some hfind)).mp hmem
  · rintro ⟨time, htime, hsince⟩
    obtain ⟨c, hfind, rfl⟩ := Option.map_eq_some_iff.mp htime
    exact ⟨c, hfind, (mem_cmdGetContacts (List.mem_of_find?_eq_some hfind)).mpr hsince⟩

/-! ## What the writes do to the times -/

variable {s : ContactStore}

/-- A write that keeps key and time. -/
theorem advTime_modify {f : Contact → Contact} (pubkey key : Bytes)
    (hkey : ∀ c, (f c).pubkey = c.pubkey) (htime : ∀ c, (f c).advTimestamp = c.advTimestamp) :
    advTime (s.modify pubkey f) key = advTime s key := by
  rw [advTime, ContactStore.find_modify s pubkey key hkey]
  split
  · rw [Option.map_map]
    exact Option.map_congr fun c _ => htime c
  · rfl

theorem advTime_touch (pubkey key : Bytes) (now : UInt32) :
    advTime (s.touch pubkey now) key = advTime s key :=
  advTime_modify pubkey key (fun _ => rfl) fun _ => rfl

theorem advTime_touchSignal (pubkey key : Bytes) (now : UInt32) (rssi snrQ4 : Int) :
    advTime (s.touchSignal pubkey now rssi snrQ4) key = advTime s key :=
  advTime_modify pubkey key (fun _ => rfl) fun _ => rfl

theorem advTime_setPath (pubkey path key : Bytes) :
    advTime (s.setPath pubkey path).2 key = advTime s key := by
  obtain hsame | hset := s.setPath_cases pubkey path
  · rw [hsame]
  · rw [hset]
    exact advTime_modify pubkey key (fun _ => rfl) fun _ => rfl

theorem advTime_clearPath (pubkey key : Bytes) :
    advTime (s.clearPath pubkey).2 key = advTime s key := by
  obtain hsame | hcleared := s.clearPath_cases pubkey
  · rw [hsame]
  · rw [hcleared]
    exact advTime_modify pubkey key (fun _ => rfl) fun _ => rfl

theorem advTime_upsert {s' : ContactStore} {pubkey key : Bytes}
    (hs : s.upsert pubkey = some s') (hkey : key ≠ pubkey ∨ (s.find pubkey).isSome = true) :
    advTime s' key = advTime s key := by
  obtain ⟨-, rfl⟩ | ⟨hnew, -, rfl⟩ := ContactStore.upsert_cases hs
  · rfl
  · have hother : pubkey ≠ key := by
      rcases hkey with hkey | hknown
      · exact hkey.symm
      · exact absurd hknown (by simp [hnew])
    simp [advTime, ContactStore.find, List.find?_append, hother]

/-- An advert that is taken on is its contact's last, and no other's. -/
theorem advTime_applyAdvert {adv : Advert} {app : AdvertAppData} {now : UInt32}
    {s' : ContactStore} {created : Bool} (hs : s.applyAdvert adv app now = some (s', created))
    (key : Bytes) :
    advTime s' key = if key = adv.pubkey then some adv.timestamp else advTime s key := by
  have hkeys : ∀ c, (ContactStore.adoptAdvert adv app now c).pubkey = c.pubkey := fun _ => rfl
  obtain ⟨upserted, hupsert, rfl⟩ := ContactStore.applyAdvert_writes hs
  rw [advTime, ContactStore.find_modify upserted adv.pubkey key hkeys]
  split
  next hkey =>
    rw [hkey, ContactStore.find_upsert hupsert, if_pos rfl]
    rfl
  next hkey => exact advTime_upsert hupsert (.inl hkey)

theorem isSome_find_of_advTime {key : Bytes} {time : UInt32} (htime : advTime s key = some time) :
    (s.find key).isSome = true := by
  obtain ⟨c, hfind, -⟩ := Option.map_eq_some_iff.mp htime
  rw [hfind]
  rfl

theorem advTime_addUpdateTail {pubkey key args : Bytes} {time : UInt32}
    (htime : advTime s key = some time) :
    advTime (s.modify pubkey (addUpdateTail (readTail (readAddUpdateHead args).2))) key =
      some (if key = pubkey then (Sync.frameTimestamp args).getD time else time) := by
  have hkeys : ∀ c, (addUpdateTail (readTail (readAddUpdateHead args).2) c).pubkey = c.pubkey :=
    fun _ => rfl
  obtain ⟨c, hfind, rfl⟩ := Option.map_eq_some_iff.mp htime
  rw [advTime, ContactStore.find_modify s pubkey key hkeys, hfind]
  split <;> rfl

/-- A frame overwrites the time of the contact it names, if it carries one. -/
theorem advTime_addUpdateContact {s' : ContactStore} {args key : Bytes} {time : UInt32}
    (hs : cmdAddUpdateContact s args = .ok s') (htime : advTime s key = some time) :
    advTime s' key = some (if key = (readAddUpdateHead args).1.pubkey then
      (Sync.frameTimestamp args).getD time else time) := by
  simp only [cmdAddUpdateContact] at hs
  split at hs
  · cases hs
  · split at hs
    · cases hs
    · split at hs
      · cases hs
      next upserted hupsert =>
        obtain rfl := Except.ok.inj hs
        refine advTime_addUpdateTail ?_
        have hupserted : advTime upserted key = some time := by
          rw [advTime_upsert hupsert, htime]
          by_cases hkey : key = (readAddUpdateHead args).1.pubkey
          · exact .inr (hkey ▸ isSome_find_of_advTime htime)
          · exact .inl hkey
        have htyped (type flags : UInt8) :
            advTime (upserted.modify (readAddUpdateHead args).1.pubkey
              fun c => { c with type, flags }) key = some time := by
          rw [← hupserted]
          exact advTime_modify _ key (fun _ => rfl) fun _ => rfl
        split
        · rw [advTime_clearPath, htyped]
        · rw [advTime_setPath, htyped]

theorem find?_eraseP_of_disjoint {α : Type} {p q : α → Bool} (hpq : ∀ x, p x = true → q x = false)
    (l : List α) : (l.eraseP p).find? q = l.find? q := by
  induction l with
  | nil => rfl
  | cons x l ih =>
      cases hx : p x with
      | true => simp [hx, hpq x hx]
      | false => cases hq : q x <;> simp [hx, hq, ih]

theorem advTime_removeContact {s' : ContactStore} {args key : Bytes}
    (hs : cmdRemoveContact s args = .ok s') (hkey : key ≠ args.take kPubKeySize) :
    advTime s' key = advTime s key := by
  rw [cmdRemoveContact] at hs
  by_cases hlength : args.length < kPubKeySize
  · rw [Reader.take_ofBytes_short hlength] at hs
    cases hs
  · rw [Reader.take_ofBytes (Nat.not_lt.mp hlength)] at hs
    simp only [ContactStore.remove] at hs
    split at hs
    · cases hs
    · split at hs
      · cases hs
      next removed hremove =>
        obtain rfl := Except.ok.inj hs
        split at hremove
        · obtain rfl := Option.some.inj hremove
          rw [advTime, advTime, ContactStore.find, ContactStore.find, find?_eraseP_of_disjoint]
          intro c hc
          have hpubkey : c.pubkey = args.take kPubKeySize := by simpa using hc
          simpa [hpubkey] using hkey.symm
        · cases hremove

theorem advTime_resetPath {s' : ContactStore} {args : Bytes} (key : Bytes)
    (hs : cmdResetPath s args = .ok s') : advTime s' key = advTime s key := by
  rw [cmdResetPath] at hs
  simp only at hs
  split at hs
  · cases hs
  · split at hs
    · cases hs
    · obtain rfl := Except.ok.inj hs
      exact advTime_clearPath _ key

/-! ## Completeness, step by step -/

namespace Sync

variable {lib : Crypto.Library} {self : Bytes} {mark : UInt32} {s : Sync}

/-- What adverts changed is in the store, with no time before the mark. -/
theorem complete_iff (mark : UInt32) (s : Sync) :
    Complete mark s ↔ ∀ key ∈ s.changed, ∃ time, advTime s.store key = some time ∧ mark ≤ time :=
  forall_congr' fun key => imp_congr_right fun _ => s.reported_iff mark key

/-- An event that changes no time keeps the sync complete. -/
theorem complete_of_advTime {s' : Sync} (hcomplete : Complete mark s)
    (hchanged : ∀ key ∈ s'.changed, key ∈ s.changed)
    (htime : ∀ key ∈ s'.changed, advTime s'.store key = advTime s.store key) :
    Complete mark s' := by
  rw [complete_iff] at hcomplete ⊢
  intro key hkey
  rw [htime key hkey]
  exact hcomplete key (hchanged key hkey)

theorem complete_applyAdvert_iff {adv : Advert} {app : AdvertAppData} {now : UInt32}
    {rssi snrQ4 : Int} (hcomplete : Complete mark s) :
    Complete mark (s.applyAdvert adv app now rssi snrQ4) ↔
      ((s.store.applyAdvert adv app now).isSome = true → mark ≤ adv.timestamp) := by
  rw [applyAdvert]
  split
  next hnone => simp [hnone, hcomplete]
  next store created hsome =>
    have htime (key : Bytes) : advTime (store.touchSignal adv.pubkey now rssi snrQ4) key =
        if key = adv.pubkey then some adv.timestamp else advTime s.store key := by
      rw [advTime_touchSignal, advTime_applyAdvert hsome]
    rw [complete_iff] at hcomplete ⊢
    simp only [hsome, Option.isSome_some, forall_const, List.forall_mem_cons, htime, if_true]
    constructor
    · rintro ⟨⟨time, htime, hmark⟩, -⟩
      rwa [Option.some.inj htime]
    · intro hmark
      refine ⟨⟨adv.timestamp, rfl, hmark⟩, fun key hkey => ?_⟩
      split
      · exact ⟨adv.timestamp, rfl, hmark⟩
      · exact hcomplete key hkey

theorem complete_addUpdateContact_iff {args : Bytes} (hcomplete : Complete mark s) :
    Complete mark (s.step lib self (.addUpdateContact args)) ↔
      Current lib self mark s (.addUpdateContact args) := by
  rw [step, Current]
  cases hcommand : cmdAddUpdateContact s.store args with
  | error why =>
      simp only [Except.toOption, Option.getD_none, Option.isSome_none, Bool.false_eq_true,
        false_implies, implies_true, iff_true]
      exact hcomplete
  | ok store =>
      simp only [Except.toOption, Option.getD_some, Option.isSome_some, forall_const]
      rw [complete_iff] at hcomplete ⊢
      constructor
      · intro hafter hkey timestamp hframe
        obtain ⟨old, hold, -⟩ := hcomplete _ hkey
        obtain ⟨time, htime, hmark⟩ := hafter _ hkey
        rw [advTime_addUpdateContact hcommand hold, if_pos rfl, hframe] at htime
        obtain rfl : timestamp = time := Option.some.inj htime
        exact hmark
      · intro hcurrent key hkey
        obtain ⟨time, htime, hmark⟩ := hcomplete key hkey
        refine ⟨_, advTime_addUpdateContact hcommand htime, ?_⟩
        split
        next hpubkey =>
          cases hframe : frameTimestamp args with
          | none => exact hmark
          | some timestamp => exact hcurrent (hpubkey ▸ hkey) timestamp hframe
        · exact hmark

theorem complete_removeContact {args : Bytes} (hcomplete : Complete mark s) :
    Complete mark (s.removeContact args) := by
  rw [removeContact]
  split
  next store hcommand =>
    refine complete_of_advTime hcomplete (fun key hkey => (List.mem_filter.mp hkey).1) ?_
    intro key hkey
    exact advTime_removeContact hcommand (by simpa using (List.mem_filter.mp hkey).2)
  · exact hcomplete

/-- A step keeps the sync complete exactly when it brings in no time before the mark. -/
theorem complete_step_iff (hcomplete : Complete mark s) (event : ContactEvent) :
    Complete mark (s.step lib self event) ↔ Current lib self mark s event := by
  cases event with
  | advert payload now rssi snrQ4 =>
      rw [step, Current]
      cases hadvert : namedAdvert lib self payload with
      | none => simp [hcomplete]
      | some pair =>
          obtain ⟨adv, app⟩ := pair
          simp only [complete_applyAdvert_iff hcomplete]
          constructor
          · rintro hcurrent adv' app' hsame
            cases hsame
            exact hcurrent
          · intro hcurrent
            exact hcurrent adv app rfl
  | addUpdateContact args => exact complete_addUpdateContact_iff hcomplete
  | removeContact args => exact iff_of_true (complete_removeContact hcomplete) trivial
  | resetPath args =>
      refine iff_of_true (complete_of_advTime hcomplete (fun _ h => h) fun key _ => ?_) trivial
      rw [step]
      cases hcommand : cmdResetPath s.store args with
      | error why => rfl
      | ok store => exact advTime_resetPath key hcommand
  | setPath pubkey path =>
      exact iff_of_true (complete_of_advTime hcomplete (fun _ h => h)
        fun key _ => advTime_setPath pubkey path key) trivial
  | clearPath pubkey =>
      exact iff_of_true (complete_of_advTime hcomplete (fun _ h => h)
        fun key _ => advTime_clearPath pubkey key) trivial
  | touch pubkey now =>
      exact iff_of_true (complete_of_advTime hcomplete (fun _ h => h)
        fun key _ => advTime_touch pubkey key now) trivial
  | touchSignal pubkey now rssi snrQ4 =>
      exact iff_of_true (complete_of_advTime hcomplete (fun _ h => h)
        fun key _ => advTime_touchSignal pubkey key now rssi snrQ4) trivial

/-- An incremental sync misses nothing, at any moment behind a sync, exactly when no
time before its mark has come in. -/
theorem complete_run_iff (hcomplete : Complete mark s) (events : List ContactEvent) :
    (∀ count, Complete mark (run (step lib self) s (events.take count))) ↔
      Along (step lib self) (Current lib self mark) s events := by
  induction events generalizing s with
  | nil => simp [hcomplete]
  | cons event events ih =>
      rw [along_cons, ← complete_step_iff hcomplete event]
      constructor
      · intro hall
        have hstep : Complete mark (s.step lib self event) := hall 1
        exact ⟨hstep, (ih hstep).mp fun count => hall (count + 1)⟩
      · rintro ⟨hstep, halong⟩ count
        cases count with
        | zero => exact hcomplete
        | succ count => exact (ih hstep).mpr halong count

/-- Behind every sync, whatever it was asked for, the next one from its mark misses
nothing exactly as long as no advert and no overwritten time is older than the mark. -/
theorem incremental_sync_complete_iff (lib : Crypto.Library) (self : Bytes)
    (store : ContactStore) (args : Bytes) (events : List ContactEvent) :
    (cmdGetContacts store args).getLast? =
        some ([kRespEndOfContacts] ++ putU32 (syncMark store args)) ∧
      ((∀ count, Complete (syncMark store args) (run (step lib self) { store } (events.take count))) ↔
        Along (step lib self) (Current lib self (syncMark store args)) { store } events) := by
  refine ⟨?_, complete_run_iff (fun key hkey => by simp at hkey) events⟩
  exact List.getLast?_concat

/-- An advert of a node with that first key byte and that clock. -/
def advertOf (id : UInt8) (timestamp : UInt32) : ContactEvent :=
  .advert (List.replicate 32 id ++ putU32 timestamp ++ List.replicate 64 0 ++ [0x81, 0x42])
    1700000100 (-90) 20

/-- What is known after hearing one node whose clock is right. -/
def heardOne : ContactStore :=
  (run (step Crypto.Library.transparent []) { store := {} } [advertOf 1 1700000000]).store

/-- The app syncs, then a new node is heard whose clock is a day behind: the app is not
told of it. -/
theorem slow_clock_missed :
    ¬ Complete (syncMark heardOne [])
      (run (step Crypto.Library.transparent []) { store := heardOne } [advertOf 2 1699913600]) := by
  rw [complete_iff]
  intro hcomplete
  have hheard : List.replicate 32 2 ∈ (run (step Crypto.Library.transparent [])
      { store := heardOne } [advertOf 2 1699913600]).changed := by decide +kernel
  have htime : advTime (run (step Crypto.Library.transparent []) { store := heardOne }
      [advertOf 2 1699913600]).store (List.replicate 32 2) = some 1699913600 := by decide +kernel
  have hmark : syncMark heardOne [] = 1700000000 := by decide +kernel
  obtain ⟨time, hafter, hle⟩ := hcomplete _ hheard
  rw [htime] at hafter
  rw [hmark, ← Option.some.inj hafter] at hle
  exact absurd hle (by decide)

/-- Adverts reach the contacts the way the node handles them. -/
theorem store_step_advert (n : Node) (m : Moment) (p : Packet) (changed : List Bytes) :
    (({ store := n.contacts, changed } : Sync).step lib n.identity.pub
      (.advert p.payload m.unixNow p.rssi p.snrQ4)).store = (n.handleAdvert lib m p).2.contacts := by
  rw [step, namedAdvert, Node.handleAdvert]
  cases hadvert : Advert.decode p.payload with
  | none => rfl
  | some adv =>
      by_cases hverify : adv.verify lib = true
      · by_cases hown : adv.pubkey = n.identity.pub
        · simp [hverify, hown]
        · simp only [hverify, Bool.not_true, Bool.false_eq_true, if_false, if_neg hown,
            Node.applyAdvert]
          cases happ : AdvertAppData.decode adv.appdata with
          | none => rfl
          | some app =>
              cases hunnamed : !app.hasName || app.name = [] || app.name.head? = some 0 with
              | true => simp [hunnamed]
              | false =>
                  simp only [hunnamed, Bool.false_eq_true, if_false, applyAdvert]
                  cases happlied : n.contacts.applyAdvert adv app m.unixNow with
                  | none => rfl
                  | some pair => rfl
      · simp [hverify]

end Sync

end Coreletd.Companion
