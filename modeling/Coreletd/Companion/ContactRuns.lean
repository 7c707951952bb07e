/-
# The contact store over whole runs of the daemon

Adverts off the air, returned paths, app commands and loads are the only writers
of the store. Each of them keeps the store well formed, so what a save wrote is
read back record by record; but none of them holds a position to the range the
loader demands, and one position outside it makes the whole file unreadable.
-/

import Coreletd.Companion.Contacts
import Coreletd.Library.Runs
import Coreletd.Mesh.ContactFile
import Coreletd.Proto.ReturnedPaths

namespace Coreletd.Companion

open Coreletd.Crypto Coreletd.Library Coreletd.Proto Coreletd.Mesh

/-- One operation of the daemon on the store, with what it is given: a received
payload, an app's frame, a decrypted path return, a file. -/
inductive StoreOp
  | advert (payload : Bytes) (now : UInt32)
  | addUpdateContact (args : Bytes)
  | setPath (pubkey plaintext : Bytes)
  | clearPath (pubkey : Bytes)
  | touch (pubkey : Bytes) (now : UInt32)
  | remove (pubkey : Bytes)
  | load (fs : FileSystem)

/-- `apply_advert` of a validly signed advert whose appdata decodes. -/
def stepAdvert (lib : Crypto.Library) (s : ContactStore) (payload : Bytes) (now : UInt32) :
    ContactStore :=
  match Advert.decode payload with
  | none => s
  | some adv =>
      if adv.verify lib then
        match AdvertAppData.decode adv.appdata with
        | none => s
        | some app =>
            match s.applyAdvert adv app now with
            | none => s
            | some (s, _) => s
      else s

/-- `set_path` with a route a contact returned, as the node stores one: only
routes of one-byte hashes. -/
def stepSetPath (s : ContactStore) (pubkey plaintext : Bytes) : ContactStore :=
  match PathReturn.decode plaintext with
  | none => s
  | some returned =>
      if returned.pathHashSize = 1 then (s.setPath pubkey returned.path).2 else s

/-- One step of a run. A refused command leaves the store as it was. -/
def storeStep (lib : Crypto.Library) (s : ContactStore) : StoreOp → ContactStore
  | .advert payload now => stepAdvert lib s payload now
  | .addUpdateContact args =>
      match cmdAddUpdateContact s args with
      | .ok s => s
      | .error _ => s
  | .setPath pubkey plaintext => stepSetPath s pubkey plaintext
  | .clearPath pubkey => (s.clearPath pubkey).2
  | .touch pubkey now => s.touch pubkey now
  | .remove pubkey => (s.remove pubkey).getD s
  | .load fs => (s.load fs).2

/-- The position an operation brings in, if it brings one, is one the loader
accepts. -/
def StoreOp.InRange : StoreOp → Prop
  | .advert payload _ =>
      ∀ adv app, Advert.decode payload = some adv → AdvertAppData.decode adv.appdata = some app →
        app.hasLocation = true → PositionInRange app.latE6 app.lonE6
  | .addUpdateContact args =>
      ∀ latE6 lonE6, framePosition args = some (latE6, lonE6) → PositionInRange latE6 lonE6
  | _ => True

/-! ## What the elementary writes keep -/

variable {s : ContactStore}

theorem wellFormed_modify (hwell : s.WellFormed) {pubkey : Bytes} {f : Contact → Contact}
    (hkey : ∀ c, (f c).pubkey = c.pubkey) (hstorable : ∀ c, c.Storable → (f c).Storable) :
    (s.modify pubkey f).WellFormed where
  storable := forall_mem_modifyFirst hwell.storable fun c _ => hstorable c
  distinct := by
    rw [ContactStore.modify, map_modifyFirst _ hkey]
    exact hwell.distinct
  bounded := by
    rw [ContactStore.modify, length_modifyFirst]
    exact hwell.bounded

theorem wellFormed_upsert (hwell : s.WellFormed) {pubkey : Bytes}
    (hlen : pubkey.length = kPubKeySize) {s' : ContactStore} (hs : s.upsert pubkey = some s') :
    s'.WellFormed := by
  obtain ⟨-, rfl⟩ | ⟨hnew, hroom, rfl⟩ := ContactStore.upsert_cases hs
  · exact hwell
  · have hfresh : ∀ c ∈ s.contacts, c.pubkey ≠ pubkey := by
      simpa [ContactStore.find] using hnew
    refine ⟨?_, ?_, ?_⟩
    · intro c hc
      rcases List.mem_append.mp hc with hc | hc
      · exact hwell.storable c hc
      · obtain rfl := List.mem_singleton.mp hc
        exact ⟨hlen, Nat.zero_le _, fun _ => rfl⟩
    · rw [List.map_append, List.map_singleton]
      refine List.nodup_append.mpr ⟨hwell.distinct, by simp, ?_⟩
      intro key hkey other hother hequal
      obtain ⟨c, hc, rfl⟩ := List.mem_map.mp hkey
      exact hfresh c hc (hequal.trans (List.mem_singleton.mp hother))
    · rw [List.length_append, List.length_singleton]
      exact hroom

theorem wellFormed_setPath (hwell : s.WellFormed) {pubkey path : Bytes}
    (hlen : path.length ≤ kMaxPathSize) : (s.setPath pubkey path).2.WellFormed := by
  obtain hsame | hset := s.setPath_cases pubkey path
  · rw [hsame]
    exact hwell
  · rw [hset]
    exact wellFormed_modify hwell (fun _ => rfl)
      fun c hc => ⟨hc.pubkey_length, hlen, fun hknown => by simp at hknown⟩

theorem wellFormed_clearPath (hwell : s.WellFormed) (pubkey : Bytes) :
    (s.clearPath pubkey).2.WellFormed := by
  obtain hsame | hcleared := s.clearPath_cases pubkey
  · rw [hsame]
    exact hwell
  · rw [hcleared]
    exact wellFormed_modify hwell (fun _ => rfl)
      fun c hc => ⟨hc.pubkey_length, Nat.zero_le _, fun _ => rfl⟩

theorem wellFormed_applyAdvert (hwell : s.WellFormed) {adv : Advert} {app : AdvertAppData}
    {now : UInt32} (hlen : adv.pubkey.length = kPubKeySize) {s' : ContactStore} {created : Bool}
    (hs : s.applyAdvert adv app now = some (s', created)) : s'.WellFormed := by
  have hadopt : ∀ c : Contact, c.Storable → (ContactStore.adoptAdvert adv app now c).Storable :=
    fun c hc => ⟨hc.pubkey_length, hc.path_length, hc.path_unknown⟩
  obtain ⟨upserted, hupsert, rfl⟩ := ContactStore.applyAdvert_writes hs
  exact wellFormed_modify (wellFormed_upsert hwell hlen hupsert) (fun _ => rfl) hadopt

theorem wellFormed_remove (hwell : s.WellFormed) (pubkey : Bytes) :
    ((s.remove pubkey).getD s).WellFormed := by
  rw [ContactStore.remove]
  split
  · have hsub : (s.contacts.eraseP (·.pubkey = pubkey)).Sublist s.contacts :=
      List.eraseP_sublist
    exact ⟨fun c hc => hwell.storable c (hsub.subset hc),
      hwell.distinct.sublist (hsub.map _), le_trans hsub.length_le hwell.bounded⟩
  · exact hwell

theorem wellFormed_load (hwell : s.WellFormed) (fs : FileSystem) : (s.load fs).2.WellFormed := by
  rcases s.load_cases fs none with hsame | ⟨loaded, hloaded, hsofar⟩
  · rw [hsame]
    exact hwell
  · rw [hloaded]
    exact ⟨hsofar.storable, hsofar.distinct, hsofar.bounded⟩

/-- What an accepted add-or-update frame holds. -/
theorem readAddUpdateHead_ok {args : Bytes} (hok : (readAddUpdateHead args).2.ok = true) :
    (readAddUpdateHead args).1.pubkey.length = kPubKeySize ∧
      (readAddUpdateHead args).1.pathBytes.length = kContactPathField := by
  simp only [readAddUpdateHead] at hok ⊢
  have hpathLen := Reader.ok_of_take_ok hok
  have hflags := Reader.ok_of_u8_ok hpathLen
  have htype := Reader.ok_of_u8_ok hflags
  exact ⟨Reader.length_take_fst (Reader.ok_of_u8_ok htype), Reader.length_take_fst hok⟩

/-- The steps of an accepted add-or-update command, for any property of stores
that those steps keep. -/
theorem cmdAddUpdateContact_keeps {args : Bytes} {s' : ContactStore} (keeps : ContactStore → Prop)
    (hs : cmdAddUpdateContact s args = .ok s') (hstart : keeps s)
    (hupsert : ∀ (s s' : ContactStore) pubkey, pubkey.length = kPubKeySize →
      keeps s → s.upsert pubkey = some s' → keeps s')
    (hhead : ∀ (s : ContactStore) pubkey type flags, keeps s →
      keeps (s.modify pubkey fun c => { c with type, flags }))
    (hclear : ∀ (s : ContactStore) pubkey, keeps s → keeps (s.clearPath pubkey).2)
    (hset : ∀ (s : ContactStore) pubkey path,
      path.length = (readAddUpdateHead args).1.pathLen.toNat → path.length ≤ kMaxPathSize →
      keeps s → keeps (s.setPath pubkey path).2)
    (htail : ∀ (s : ContactStore) pubkey, keeps s →
      keeps (s.modify pubkey (addUpdateTail (readTail (readAddUpdateHead args).2)))) :
    keeps s' := by
  simp only [cmdAddUpdateContact] at hs
  split at hs
  · exact absurd hs (by simp)
  · rename_i hok
    obtain ⟨hkey, hpath⟩ := readAddUpdateHead_ok (by simpa using hok)
    split at hs
    · exact absurd hs (by simp)
    · rename_i hlong
      split at hs
      · exact absurd hs (by simp)
      · rename_i upserted hupserted
        obtain rfl := Except.ok.inj hs
        apply htail
        have hmodified := hhead upserted (readAddUpdateHead args).1.pubkey
          (readAddUpdateHead args).1.type (readAddUpdateHead args).1.flags
          (hupsert s upserted _ hkey hstart hupserted)
        split
        · exact hclear _ _ hmodified
        · rename_i hroute
          have hlength : ((readAddUpdateHead args).1.pathBytes.take
              (readAddUpdateHead args).1.pathLen.toNat).length =
              (readAddUpdateHead args).1.pathLen.toNat := by
            rw [List.length_take, hpath, Nat.min_eq_left]
            exact Nat.le_of_not_lt fun hlt => hlong ⟨hroute, hlt⟩
          refine hset _ _ _ hlength ?_ hmodified
          rw [List.length_take, hpath]
          exact Nat.min_le_right _ _

/-! ## What a step can do -/

theorem storeStep_advert (lib : Crypto.Library) (s : ContactStore) (payload : Bytes)
    (now : UInt32) :
    storeStep lib s (.advert payload now) = s ∨
      ∃ adv app created, Advert.decode payload = some adv ∧
        AdvertAppData.decode adv.appdata = some app ∧
        s.applyAdvert adv app now = some (storeStep lib s (.advert payload now), created) := by
  show stepAdvert lib s payload now = s ∨ ∃ adv app created, _ ∧ _ ∧
    s.applyAdvert adv app now = some (stepAdvert lib s payload now, created)
  rw [stepAdvert]
  split
  · exact .inl rfl
  next adv hdecode =>
    split
    · split
      · exact .inl rfl
      next app happ =>
        split
        · exact .inl rfl
        next s' created happly => exact .inr ⟨adv, app, created, hdecode, happ, happly⟩
    · exact .inl rfl

/-- A refused frame leaves the store as it was. -/
theorem storeStep_addUpdateContact (lib : Crypto.Library) (s : ContactStore) (args : Bytes) :
    storeStep lib s (.addUpdateContact args) = s ∨
      cmdAddUpdateContact s args = .ok (storeStep lib s (.addUpdateContact args)) := by
  unfold storeStep
  dsimp only
  split
  next hcmd => exact .inr hcmd
  · exact .inl rfl

theorem storeStep_setPath (lib : Crypto.Library) (s : ContactStore) (pubkey plaintext : Bytes) :
    storeStep lib s (.setPath pubkey plaintext) = s ∨
      ∃ returned, PathReturn.decode plaintext = some returned ∧ returned.pathHashSize = 1 ∧
        storeStep lib s (.setPath pubkey plaintext) = (s.setPath pubkey returned.path).2 := by
  show stepSetPath s pubkey plaintext = s ∨ ∃ returned : PathReturn, _ ∧ _ ∧
    stepSetPath s pubkey plaintext = (s.setPath pubkey returned.path).2
  rw [stepSetPath]
  split
  · exact .inl rfl
  next returned hdecode =>
    split
    next hsize => exact .inr ⟨returned, hdecode, hsize, rfl⟩
    · exact .inl rfl

/-- Every writer keeps the store well formed. -/
theorem wellFormed_storeStep (lib : Crypto.Library) (hwell : s.WellFormed) (op : StoreOp) :
    (storeStep lib s op).WellFormed := by
  cases op with
  | advert payload now =>
      obtain hsame | ⟨adv, app, created, hdecode, -, happly⟩ := storeStep_advert lib s payload now
      · rw [hsame]
        exact hwell
      · exact wellFormed_applyAdvert hwell (Advert.pubkey_length_of_decode hdecode) happly
  | addUpdateContact args =>
      obtain hsame | hcmd := storeStep_addUpdateContact lib s args
      · rw [hsame]
        exact hwell
      · refine cmdAddUpdateContact_keeps ContactStore.WellFormed hcmd hwell ?_ ?_ ?_ ?_ ?_
        · exact fun _ _ _ hlen hs hupsert => wellFormed_upsert hs hlen hupsert
        · exact fun _ _ _ _ hs => wellFormed_modify hs (fun _ => rfl) fun c hc =>
            ⟨hc.pubkey_length, hc.path_length, hc.path_unknown⟩
        · exact fun _ _ hs => wellFormed_clearPath hs _
        · exact fun _ _ _ _ hlen hs => wellFormed_setPath hs hlen
        · exact fun _ _ hs => wellFormed_modify hs (fun _ => rfl) fun c hc =>
            ⟨hc.pubkey_length, hc.path_length, hc.path_unknown⟩
  | setPath pubkey plaintext =>
      obtain hsame | ⟨returned, hdecode, -, hset⟩ := storeStep_setPath lib s pubkey plaintext
      · rw [hsame]
        exact hwell
      · rw [hset]
        exact wellFormed_setPath hwell (PathReturn.pathFits_of_decode hdecode).fits
  | clearPath pubkey => exact wellFormed_clearPath hwell pubkey
  | touch pubkey now =>
      exact wellFormed_modify hwell (fun _ => rfl) fun c hc =>
        ⟨hc.pubkey_length, hc.path_length, hc.path_unknown⟩
  | remove pubkey => exact wellFormed_remove hwell pubkey
  | load fs => exact wellFormed_load hwell fs

/-! ## What holds of every contact -/

section AllContacts

variable {q : Contact → Prop}

theorem forall_modify (hall : ∀ c ∈ s.contacts, q c) {pubkey : Bytes} {f : Contact → Contact}
    (hf : ∀ c, q c → q (f c)) : ∀ c ∈ (s.modify pubkey f).contacts, q c :=
  forall_mem_modifyFirst hall fun c _ => hf c

theorem forall_upsert (hall : ∀ c ∈ s.contacts, q c) {pubkey : Bytes} (hnew : q { pubkey })
    {s' : ContactStore} (hs : s.upsert pubkey = some s') : ∀ c ∈ s'.contacts, q c := by
  obtain ⟨-, rfl⟩ | ⟨-, -, rfl⟩ := ContactStore.upsert_cases hs
  · exact hall
  · intro c hc
    rcases List.mem_append.mp hc with hc | hc
    · exact hall c hc
    · obtain rfl := List.mem_singleton.mp hc
      exact hnew

theorem forall_setPath (hall : ∀ c ∈ s.contacts, q c) {pubkey path : Bytes}
    (hset : ∀ c, q c → q { c with outPath := path, pathKnown := true }) :
    ∀ c ∈ (s.setPath pubkey path).2.contacts, q c := by
  obtain hsame | hwritten := s.setPath_cases pubkey path
  · rw [hsame]
    exact hall
  · rw [hwritten]
    exact forall_modify hall hset

theorem forall_clearPath (hall : ∀ c ∈ s.contacts, q c) {pubkey : Bytes}
    (hclear : ∀ c, q c → q { c with outPath := [], pathKnown := false }) :
    ∀ c ∈ (s.clearPath pubkey).2.contacts, q c := by
  obtain hsame | hwritten := s.clearPath_cases pubkey
  · rw [hsame]
    exact hall
  · rw [hwritten]
    exact forall_modify hall hclear

theorem forall_applyAdvert (hall : ∀ c ∈ s.contacts, q c) {adv : Advert} {app : AdvertAppData}
    {now : UInt32} (hnew : q { pubkey := adv.pubkey })
    (hadopt : ∀ c, q c → q (ContactStore.adoptAdvert adv app now c)) {s' : ContactStore}
    {created : Bool} (hs : s.applyAdvert adv app now = some (s', created)) :
    ∀ c ∈ s'.contacts, q c := by
  obtain ⟨upserted, hupsert, rfl⟩ := ContactStore.applyAdvert_writes hs
  exact forall_modify (forall_upsert hall hnew hupsert) hadopt

theorem forall_remove (hall : ∀ c ∈ s.contacts, q c) (pubkey : Bytes) :
    ∀ c ∈ ((s.remove pubkey).getD s).contacts, q c := by
  rw [ContactStore.remove]
  split
  · exact fun c hc => hall c (List.eraseP_sublist.subset hc)
  · exact hall

end AllContacts

/-! ## Positions -/

/-- Every stored position is one the loader accepts. -/
def AllInRange (s : ContactStore) : Prop := ∀ c ∈ s.contacts, PositionInRange c.latE6 c.lonE6

/-- A step that brings in no position outside the range keeps all of them
inside. -/
theorem allInRange_storeStep (lib : Crypto.Library) (hall : AllInRange s) {op : StoreOp}
    (hop : op.InRange) : AllInRange (storeStep lib s op) := by
  cases op with
  | advert payload now =>
      obtain hsame | ⟨adv, app, created, hdecode, happ, happly⟩ :=
        storeStep_advert lib s payload now
      · rw [hsame]
        exact hall
      · refine forall_applyAdvert hall (by decide : PositionInRange 0 0) (fun c hc => ?_) happly
        have hrange := hop adv app hdecode happ
        by_cases hlocation : app.hasLocation = true
        · simpa [ContactStore.adoptAdvert, hlocation] using hrange hlocation
        · simpa [ContactStore.adoptAdvert, hlocation] using hc
  | addUpdateContact args =>
      have htail : ∀ c : Contact, PositionInRange c.latE6 c.lonE6 →
          PositionInRange (addUpdateTail (readTail (readAddUpdateHead args).2) c).latE6
            (addUpdateTail (readTail (readAddUpdateHead args).2) c).lonE6 := by
        intro c hc
        cases hposition : framePosition args with
        | none =>
            rw [framePosition] at hposition
            simpa [addUpdateTail, hposition] using hc
        | some position =>
            have hrange := hop position.1 position.2 hposition
            rw [framePosition] at hposition
            simpa [addUpdateTail, hposition] using hrange
      obtain hsame | hcmd := storeStep_addUpdateContact lib s args
      · rw [hsame]
        exact hall
      · refine cmdAddUpdateContact_keeps AllInRange hcmd hall ?_ ?_ ?_ ?_ ?_
        · exact fun _ _ _ _ hs hupsert =>
            forall_upsert hs (by decide : PositionInRange 0 0) hupsert
        · exact fun _ _ _ _ hs => forall_modify hs fun _ hc => hc
        · exact fun _ _ hs => forall_clearPath hs fun _ hc => hc
        · exact fun _ _ _ _ _ hs => forall_setPath hs fun _ hc => hc
        · exact fun _ _ hs => forall_modify hs htail
  | setPath pubkey plaintext =>
      obtain hsame | ⟨returned, -, -, hset⟩ := storeStep_setPath lib s pubkey plaintext
      · rw [hsame]
        exact hall
      · rw [hset]
        exact forall_setPath hall fun _ hc => hc
  | clearPath pubkey => exact forall_clearPath hall fun _ hc => hc
  | touch pubkey now => exact forall_modify hall fun _ hc => hc
  | remove pubkey => exact forall_remove hall pubkey
  | load fs =>
      show AllInRange (s.load fs).2
      rcases s.load_cases fs none with hsame | ⟨loaded, hloaded, hsofar⟩
      · rw [hsame]
        exact hall
      · rw [hloaded]
        exact hsofar.inRange

/-! ## The round trip over runs -/

/-- The same file and the same limit. -/
structure SameConfig (s s' : ContactStore) : Prop where
  path : s'.path = s.path
  maxContacts : s'.maxContacts = s.maxContacts

theorem SameConfig.trans {s s' s'' : ContactStore} (hfirst : SameConfig s s')
    (hsecond : SameConfig s' s'') : SameConfig s s'' :=
  ⟨hsecond.path.trans hfirst.path, hsecond.maxContacts.trans hfirst.maxContacts⟩

theorem sameConfig_upsert {s s' : ContactStore} {pubkey : Bytes}
    (hupsert : s.upsert pubkey = some s') : SameConfig s s' := by
  obtain ⟨-, rfl⟩ | ⟨-, -, rfl⟩ := ContactStore.upsert_cases hupsert
  · exact ⟨rfl, rfl⟩
  · exact ⟨rfl, rfl⟩

theorem sameConfig_setPath (s : ContactStore) (pubkey path : Bytes) :
    SameConfig s (s.setPath pubkey path).2 := by
  obtain hsame | hset := s.setPath_cases pubkey path
  · rw [hsame]
    exact ⟨rfl, rfl⟩
  · rw [hset]
    exact ⟨rfl, rfl⟩

theorem sameConfig_clearPath (s : ContactStore) (pubkey : Bytes) :
    SameConfig s (s.clearPath pubkey).2 := by
  obtain hsame | hcleared := s.clearPath_cases pubkey
  · rw [hsame]
    exact ⟨rfl, rfl⟩
  · rw [hcleared]
    exact ⟨rfl, rfl⟩

theorem sameConfig_applyAdvert {s s' : ContactStore} {adv : Advert} {app : AdvertAppData}
    {now : UInt32} {created : Bool} (happly : s.applyAdvert adv app now = some (s', created)) :
    SameConfig s s' := by
  obtain ⟨upserted, hupserted, rfl⟩ := ContactStore.applyAdvert_writes happly
  have hkept := sameConfig_upsert hupserted
  exact ⟨hkept.path, hkept.maxContacts⟩

/-- No operation moves the store to another file or changes its limit. -/
theorem sameConfig_storeStep (lib : Crypto.Library) (s : ContactStore) (op : StoreOp) :
    SameConfig s (storeStep lib s op) := by
  cases op with
  | advert payload now =>
      obtain hsame | ⟨adv, app, created, -, -, happly⟩ := storeStep_advert lib s payload now
      · rw [hsame]
        exact ⟨rfl, rfl⟩
      · exact sameConfig_applyAdvert happly
  | addUpdateContact args =>
      obtain hsame | hcmd := storeStep_addUpdateContact lib s args
      · rw [hsame]
        exact ⟨rfl, rfl⟩
      · apply cmdAddUpdateContact_keeps (SameConfig s) hcmd ⟨rfl, rfl⟩
        · exact fun s s' pubkey _ hs hupsert => hs.trans (sameConfig_upsert hupsert)
        · exact fun _ _ _ _ hs => ⟨hs.path, hs.maxContacts⟩
        · exact fun s pubkey hs => hs.trans (sameConfig_clearPath s pubkey)
        · exact fun s pubkey path _ _ hs => hs.trans (sameConfig_setPath s pubkey path)
        · exact fun _ _ hs => ⟨hs.path, hs.maxContacts⟩
  | setPath pubkey plaintext =>
      obtain hsame | ⟨returned, -, -, hset⟩ := storeStep_setPath lib s pubkey plaintext
      · rw [hsame]
        exact ⟨rfl, rfl⟩
      · rw [hset]
        exact sameConfig_setPath _ _ _
  | clearPath pubkey => exact sameConfig_clearPath s pubkey
  | touch pubkey now => exact ⟨rfl, rfl⟩
  | remove pubkey =>
      show SameConfig s ((s.remove pubkey).getD s)
      rw [ContactStore.remove]
      split <;> exact ⟨rfl, rfl⟩
  | load fs =>
      show SameConfig s (s.load fs).2
      rcases s.load_cases fs none with hsame | ⟨loaded, hloaded, -⟩
      · rw [hsame]
        exact ⟨rfl, rfl⟩
      · rw [hloaded]
        exact ⟨rfl, rfl⟩

/-- Whatever a successful save installs, a fresh store over the same file reads
it back: the same contacts in the same order, every persisted field as it was and
names changed only where they held a separator. -/
def RoundTrips (s : ContactStore) : Prop :=
  ∀ (io : SaveIo) (fs : FileSystem) (s' : ContactStore) (fs' : FileSystem),
    s.save io fs = (true, s', fs') →
      s.fresh.load fs' = (.loaded, { s.fresh with contacts := s.contacts.map Contact.persisted })

/-- A well-formed store's file reads back exactly when every position in it is in
the loader's range. -/
theorem roundTrips_iff_allInRange (hwell : s.WellFormed) (hpath : s.path ≠ []) :
    RoundTrips s ↔ AllInRange s := by
  constructor
  · intro htrips
    by_contra hout
    rw [AllInRange] at hout
    have hsave : s.save {} (fun _ => none) =
        (true, { s with dirty := false },
          (saveContent {} (fun _ => none) s.path s.fileContent true).2) := by
      have hdone := saveContent_succeeds (fun _ => none) hpath s.fileContent true
      rw [ContactStore.save]
      generalize saveContent {} (fun _ => none) s.path s.fileContent true = result at hdone ⊢
      rcases result with ⟨ok, fs⟩
      simp only at hdone
      rw [hdone]
    have hloaded := htrips _ _ _ _ hsave
    have hfile : (saveContent {} (fun _ => none) s.path s.fileContent true).2 s.path =
        some s.fileContent := by
      have hpair := hsave
      rw [ContactStore.save] at hpair
      split at hpair
      · rename_i fs hcontent
        rw [hcontent]
        exact saveContent_installs hcontent
      · simp at hpair
    rw [ContactStore.load_fileContent hwell hpath hfile, if_neg hout] at hloaded
    exact absurd (congrArg Prod.fst hloaded) (by simp)
  · intro hall io fs s' fs' hsave
    rw [AllInRange] at hall
    rw [ContactStore.save] at hsave
    split at hsave
    · rename_i fs'' hcontent
      obtain ⟨-, hpair⟩ := Prod.mk.inj hsave
      obtain ⟨-, rfl⟩ := Prod.mk.inj hpair
      rw [ContactStore.load_fileContent hwell hpath (saveContent_installs hcontent), if_pos hall]
    · simp at hsave

/-- The store after any run from an empty one over a file. -/
theorem run_wellFormed (lib : Crypto.Library) (path : Bytes) (limit : Nat) (ops : List StoreOp) :
    (run (storeStep lib) { path, maxContacts := limit } ops).WellFormed ∧
      (run (storeStep lib) { path, maxContacts := limit } ops).path = path := by
  have hstep : ∀ (s : ContactStore) (op : StoreOp), s.WellFormed ∧ s.path = path →
      (storeStep lib s op).WellFormed ∧ (storeStep lib s op).path = path :=
    fun s op hs => ⟨wellFormed_storeStep lib hs.1 op,
      (sameConfig_storeStep lib s op).path.trans hs.2⟩
  exact run_invariant hstep ⟨⟨by simp, by simp, by simp⟩, rfl⟩ ops

/-- A save without a path never succeeds. -/
theorem roundTrips_of_no_path (hpath : s.path = []) : RoundTrips s := by
  intro io fs s' fs' hsave
  rw [ContactStore.save] at hsave
  split at hsave
  · rename_i hcontent
    rw [saveContent, if_pos hpath] at hcontent
    simp at hcontent
  · simp at hsave

/-- **Persistence locks itself out exactly through positions.** After every run
of the daemon's operations the file round-trips if and only if all stored
positions are in the loader's range, and they are whenever no advert and no app
frame of the run brought in one that is not. -/
theorem contacts_roundTrip_of_positions_inRange (lib : Crypto.Library) (path : Bytes)
    (limit : Nat) (ops : List StoreOp) :
    (path ≠ [] →
        (RoundTrips (run (storeStep lib) { path, maxContacts := limit } ops) ↔
          AllInRange (run (storeStep lib) { path, maxContacts := limit } ops))) ∧
      ((∀ op ∈ ops, op.InRange) →
        RoundTrips (run (storeStep lib) { path, maxContacts := limit } ops)) := by
  obtain ⟨hwell, hsame⟩ := run_wellFormed lib path limit ops
  have hiff : path ≠ [] → _ := fun hpath =>
    roundTrips_iff_allInRange hwell (by rw [hsame]; exact hpath)
  refine ⟨hiff, fun hops => ?_⟩
  by_cases hpath : path = []
  · exact roundTrips_of_no_path (hsame.trans hpath)
  · refine (hiff hpath).mpr ?_
    have hinit : AllInRange { path, maxContacts := limit } := fun c hc => absurd hc (by simp)
    clear hiff hwell hsame
    generalize ({ path, maxContacts := limit } : ContactStore) = start at hinit ⊢
    induction ops generalizing start with
    | nil => exact hinit
    | cons op ops ih =>
        exact ih (fun other hother => hops other (List.mem_cons_of_mem _ hother)) _
          (allInRange_storeStep lib hinit (hops op List.mem_cons_self))

/-- An app's frame for one contact, with no route and the given position. -/
def positionFrame (latE6 lonE6 : Int32) : Bytes :=
  List.replicate 32 0x11 ++ [0x01, 0x00, kNoPath] ++ List.replicate 64 0 ++
    putFixedStr (Text.ascii "Alice") 32 ++ putU32 1700000000 ++ putI32 latE6 ++ putI32 lonE6

/-- A contact in London survives a restart. -/
theorem contacts_roundTrip_london :
    RoundTrips (run (storeStep Crypto.Library.transparent)
      { path := Text.ascii "contacts", maxContacts := 100 }
      [.addUpdateContact (positionFrame 51507400 (-127758))]) :=
  (contacts_roundTrip_of_positions_inRange Crypto.Library.transparent (Text.ascii "contacts") 100
    [.addUpdateContact (positionFrame 51507400 (-127758))]).2 (by
      intro op hop
      obtain rfl := List.mem_singleton.mp hop
      intro latE6 lonE6 hposition
      have hframe : framePosition (positionFrame 51507400 (-127758)) =
          some (51507400, -127758) := by decide +kernel
      obtain ⟨rfl, rfl⟩ := Prod.mk.inj (Option.some.inj (hframe.symm.trans hposition))
      decide)

/-- One app frame a millionth of a degree past the pole makes the next file
unreadable. -/
theorem contacts_locked_out_past_the_pole :
    ¬ RoundTrips (run (storeStep Crypto.Library.transparent)
      { path := Text.ascii "contacts", maxContacts := 100 }
      [.addUpdateContact (positionFrame 90000001 0)]) := by
  obtain ⟨hwell, hsame⟩ := run_wellFormed Crypto.Library.transparent (Text.ascii "contacts") 100
    [.addUpdateContact (positionFrame 90000001 0)]
  rw [roundTrips_iff_allInRange hwell (by rw [hsame]; decide)]
  unfold AllInRange
  decide +kernel

end Coreletd.Companion
