/-
# What an app reads it can write back

The frame of a contact and the frame of a channel have the layout that the commands to
set them read, the byte that stands for no route and the zeros that stand for no key
included. So an app that changes one field and sends the rest back changes that field.
-/

import Coreletd.Daemon.App

namespace Coreletd.Daemon

open Coreletd.Companion
open Coreletd.Crypto
open Coreletd.Mesh

/-! ## The frame of a contact -/

/-- What the frame of a contact has room for. -/
structure Framed (c : Contact) : Prop where
  pubkey : c.pubkey.length = kPubKeySize
  route : c.outPath.length ≤ kContactPathField
  unknown : c.pathKnown = false → c.outPath = []
  name : c.name.length ≤ kContactNameField
  nul : 0 ∉ c.name

/-- The byte in front of the route. -/
def routeByte (c : Contact) : UInt8 :=
  if c.pathKnown then UInt8.ofNat c.outPath.length else kNoPath

theorem readAddUpdateHead_contactFrame {c : Contact} (hc : Framed c) :
    readAddUpdateHead ((contactFrame kRespContact c).drop 1) =
      ({ pubkey := c.pubkey, type := c.type, flags := c.flags, pathLen := routeByte c,
         pathBytes := putPadded c.outPath kContactPathField },
        Reader.ofBytes (putPadded c.name kContactNameField ++ (putU32 c.advTimestamp ++
          (putI32 c.latE6 ++ (putI32 c.lonE6 ++
            putU32 (if c.lastSeen ≠ 0 then c.lastSeen else c.advTimestamp)))))) := by
  have hbody : (contactFrame kRespContact c).drop 1 =
      c.pubkey ++ c.type :: c.flags :: routeByte c :: (putPadded c.outPath kContactPathField ++
        (putPadded c.name kContactNameField ++ (putU32 c.advTimestamp ++
          (putI32 c.latE6 ++ (putI32 c.lonE6 ++
            putU32 (if c.lastSeen ≠ 0 then c.lastSeen else c.advTimestamp)))))) := by
    simp [contactFrame, routeByte]
  rw [hbody, readAddUpdateHead, Reader.take_append hc.pubkey]
  dsimp only
  rw [Reader.u8_cons]
  dsimp only
  rw [Reader.u8_cons]
  dsimp only
  rw [Reader.u8_cons]
  dsimp only
  rw [Reader.take_append (length_putPadded _ _)]

theorem readTail_contactFrame {c : Contact} (hc : Framed c) (seen : UInt32) :
    readTail (Reader.ofBytes (putPadded c.name kContactNameField ++ (putU32 c.advTimestamp ++
      (putI32 c.latE6 ++ (putI32 c.lonE6 ++ putU32 seen))))) =
      (some c.name, some c.advTimestamp, some (c.latE6, c.lonE6)) := by
  have hname : (Reader.ofBytes (putPadded c.name kContactNameField ++ (putU32 c.advTimestamp ++
      (putI32 c.latE6 ++ (putI32 c.lonE6 ++ putU32 seen))))).has kContactNameField = true := by
    rw [Reader.has_ofBytes, List.length_append, length_putPadded]
    exact decide_eq_true (Nat.le_add_right _ _)
  rw [readTail, if_pos hname, fixedStr_putPadded hc.name hc.nul]
  dsimp only
  rw [if_pos (by simp [Reader.has_ofBytes, putU32]), Reader.u32_putU32]
  dsimp only
  rw [if_pos (by simp [Reader.has_ofBytes, putI32, putU32]), Reader.i32_putI32]
  dsimp only
  rw [Reader.i32_putI32]

/-! ## Its contact -/

section Store

variable (s : ContactStore) (key : Bytes)

/-- The contacts under other keys. -/
def others : List Contact := s.contacts.filter (·.pubkey ≠ key)

theorem others_modify {f : Contact → Contact} (hf : ∀ c, (f c).pubkey = c.pubkey) :
    others (s.modify key f) key = others s key := by
  refine filter_modifyFirst_of_disjoint ?_ s.contacts
  intro c hc
  have hkey : c.pubkey = key := by simpa using hc
  simp [hf, hkey]

theorem others_setPath (path : Bytes) : others (s.setPath key path).2 key = others s key := by
  rcases s.setPath_cases key path with hsame | hset
  · rw [hsame]
  · rw [hset, others_modify]
    exact fun _ => rfl

theorem others_clearPath : others (s.clearPath key).2 key = others s key := by
  rcases s.clearPath_cases key with hsame | hcleared
  · rw [hsame]
  · rw [hcleared, others_modify]
    exact fun _ => rfl

theorem find_setPath (path : Bytes) : (s.setPath key path).2.find key =
    (s.find key).map fun c => { c with outPath := path, pathKnown := true } := by
  rw [ContactStore.setPath]
  split
  next hnone => rw [hnone]; rfl
  next c hfind =>
    split
    next hsame =>
      -- The route was known, and the contact has it already.
      obtain ⟨hknown, rfl⟩ := hsame
      rw [hfind, Option.map_some, ← hknown]
    next =>
      dsimp only
      rw [s.find_modify key key, if_pos rfl]
      exact fun _ => rfl

theorem find_clearPath : (s.clearPath key).2.find key =
    (s.find key).map fun c => { c with outPath := [], pathKnown := false } := by
  rw [ContactStore.clearPath]
  split
  next hnone => rw [hnone]; rfl
  next c hfind =>
    split
    next hsame =>
      obtain ⟨hunknown, hempty⟩ := hsame
      rw [hfind, Option.map_some, ← hempty]
      simp [← show c.pathKnown = false by simpa using hunknown]
    next =>
      dsimp only
      rw [s.find_modify key key, if_pos rfl]
      exact fun _ => rfl

variable {s key}

/-- A contact that is there or has room is there afterwards, and is the only change. -/
theorem upsert_of_room
    (hroom : (s.find key).isSome = true ∨ s.contacts.length < s.maxContacts) :
    ∃ upserted, s.upsert key = some upserted ∧ (upserted.find key).isSome = true ∧
      others upserted key = others s key := by
  rw [ContactStore.upsert]
  split
  next hknown => exact ⟨s, rfl, hknown, rfl⟩
  next hnew =>
    have hfree := hroom.resolve_left hnew
    rw [if_neg (Nat.not_le.mpr hfree)]
    refine ⟨_, rfl, ?_, ?_⟩
    · simp [ContactStore.find]
    · simp [others]

end Store

/-- What of a contact a frame carries. -/
structure SameRecord (c c' : Contact) : Prop where
  pubkey : c'.pubkey = c.pubkey
  type : c'.type = c.type
  flags : c'.flags = c.flags
  pathKnown : c'.pathKnown = c.pathKnown
  outPath : c'.outPath = c.outPath
  name : c'.name = c.name
  advTimestamp : c'.advTimestamp = c.advTimestamp
  latE6 : c'.latE6 = c.latE6
  lonE6 : c'.lonE6 = c.lonE6

theorem toNat_routeByte {c : Contact} (hc : Framed c) (hknown : c.pathKnown = true) :
    (routeByte c).toNat = c.outPath.length := by
  have hroute := hc.route
  rw [routeByte, if_pos hknown, UInt8.toNat_ofNat']
  exact Nat.mod_eq_of_lt (Nat.lt_of_le_of_lt hroute (by decide))

theorem routeByte_ne_kNoPath {c : Contact} (hc : Framed c) (hknown : c.pathKnown = true) :
    routeByte c ≠ kNoPath := by
  intro hnone
  have hlength := toNat_routeByte hc hknown
  rw [hnone] at hlength
  exact absurd (hlength ▸ hc.route) (by decide)

/-- The route in the frame, or that there is none, gets into the contact. -/
theorem route_written {s routed : ContactStore} {c c₀ : Contact} (hc : Framed c)
    (hfind : s.find c.pubkey = some c₀)
    (hrouted : routed = if routeByte c = kNoPath then (s.clearPath c.pubkey).2
      else (s.setPath c.pubkey
        ((putPadded c.outPath kContactPathField).take (routeByte c).toNat)).2) :
    routed.find c.pubkey = some { c₀ with outPath := c.outPath, pathKnown := c.pathKnown } ∧
      others routed c.pubkey = others s c.pubkey := by
  cases hknown : c.pathKnown with
  | false =>
    have hbyte : routeByte c = kNoPath := by rw [routeByte, hknown]; rfl
    rw [if_pos hbyte] at hrouted
    rw [hrouted, hc.unknown hknown, find_clearPath, hfind]
    exact ⟨rfl, others_clearPath s c.pubkey⟩
  | true =>
    have hpath : (putPadded c.outPath kContactPathField).take (routeByte c).toNat = c.outPath := by
      rw [toNat_routeByte hc hknown, putPadded_of_le hc.route, List.take_left]
    rw [if_neg (routeByte_ne_kNoPath hc hknown), hpath] at hrouted
    rw [hrouted, find_setPath, hfind]
    exact ⟨rfl, others_setPath s c.pubkey c.outPath⟩

/-- The command takes the frame's body for the contact it shows. -/
theorem cmdAddUpdateContact_contactFrame {s : ContactStore} {c : Contact} (hc : Framed c)
    (hroom : (s.find c.pubkey).isSome = true ∨ s.contacts.length < s.maxContacts) :
    ∃ s', cmdAddUpdateContact s ((contactFrame kRespContact c).drop 1) = .ok s' ∧
      (∃ c', s'.find c.pubkey = some c' ∧ SameRecord c c') ∧
      others s' c.pubkey = others s c.pubkey := by
  obtain ⟨upserted, hupsert, hthere, hothers⟩ := upsert_of_room hroom
  obtain ⟨c₀, hfind⟩ := Option.isSome_iff_exists.mp hthere
  have hroute : ¬ (routeByte c ≠ kNoPath ∧ kContactPathField < (routeByte c).toNat) := by
    rintro ⟨hbyte, hlong⟩
    have hknown : c.pathKnown = true := by
      by_contra hunknown
      exact hbyte (by rw [routeByte, if_neg hunknown])
    rw [toNat_routeByte hc hknown] at hlong
    exact absurd hc.route (Nat.not_le.mpr hlong)
  have hmarked : (upserted.modify c.pubkey fun c₀ =>
      { c₀ with type := c.type, flags := c.flags }).find c.pubkey =
      some { c₀ with type := c.type, flags := c.flags } := by
    rw [upserted.find_modify c.pubkey c.pubkey, if_pos rfl, hfind]
    · rfl
    · exact fun _ => rfl
  obtain ⟨hrouted, hapart⟩ := route_written hc hmarked rfl
  have hread : (Reader.ofBytes (putPadded c.name kContactNameField ++ (putU32 c.advTimestamp ++
      (putI32 c.latE6 ++ (putI32 c.lonE6 ++
        putU32 (if c.lastSeen ≠ 0 then c.lastSeen else c.advTimestamp)))))).ok = true := rfl
  simp only [cmdAddUpdateContact, readAddUpdateHead_contactFrame hc, hread,
    readTail_contactFrame hc, if_neg hroute, hupsert, Bool.not_true, Bool.false_eq_true, if_false]
  refine ⟨_, rfl, ?_, ?_⟩
  · rw [ContactStore.find_modify, if_pos rfl, hrouted]
    · have hpubkey : c₀.pubkey = c.pubkey := by simpa using List.find?_some hfind
      exact ⟨_, rfl, hpubkey, rfl, rfl, rfl, rfl, rfl, rfl, rfl, rfl⟩
    · exact fun _ => rfl
  · rw [others_modify, hapart, others_modify, hothers]
    · exact fun _ => rfl
    · exact fun _ => rfl

/-! ## The frame of a channel -/

/-- What the frame of a channel has room for. A key of zeros would clear the slot. -/
structure FramedChannel (ch : Channel) : Prop where
  name : ch.name.length ≤ kChannelNameField
  nul : 0 ∉ ch.name
  secret : ch.secret = [] ∨ (ch.secret.length = kChannelSecretSize ∧ ∃ byte ∈ ch.secret, byte ≠ 0)

theorem readChannel_cmdGetChannel {s : ChannelStore} {index : Nat} {ch : Channel}
    (hindex : index < kMaxChannels) (hslot : s.channels[index]? = some ch)
    (hch : FramedChannel ch) :
    readChannel ((cmdGetChannel s [UInt8.ofNat index]).drop 1) = some (index, ch) := by
  have hbyte : (UInt8.ofNat index).toNat = index := by
    rw [UInt8.toNat_ofNat']
    exact Nat.mod_eq_of_lt (hindex.trans (by decide))
  have hframe : (cmdGetChannel s [UInt8.ofNat index]).drop 1 =
      UInt8.ofNat index :: (putPadded ch.name kChannelNameField ++
        (putPadded ch.secret kChannelSecretSize ++ [])) := by
    rw [cmdGetChannel, Reader.u8_cons]
    dsimp only
    rw [hbyte, hslot]
    simp [Reader.ofBytes]
  have hsecret : (if (putPadded ch.secret kChannelSecretSize).all (· = 0) then []
      else putPadded ch.secret kChannelSecretSize) = ch.secret := by
    rcases hch.secret with hnone | ⟨hlength, byte, hmem, hne⟩
    · rw [hnone]
      rfl
    · have hwhole : putPadded ch.secret kChannelSecretSize = ch.secret := by
        rw [putPadded_of_le hlength.le, hlength, Nat.sub_self, List.replicate_zero,
          List.append_nil]
      rw [hwhole, if_neg]
      intro hzeros
      exact hne (by simpa using List.all_eq_true.mp hzeros byte hmem)
  rw [hframe, readChannel, Reader.u8_cons]
  dsimp only
  rw [fixedStr_putPadded hch.name hch.nul]
  dsimp only
  rw [Reader.take_append (length_putPadded _ _)]
  dsimp only
  rw [hsecret, hbyte, if_neg (by simp [Reader.ofBytes]), if_neg (Nat.not_le.mpr hindex)]

/-! ## Both commands -/

section

variable (lib : Crypto.Library) (sign : Bytes → Bytes) (out : Surroundings) (app : App)

theorem command_addUpdateContact (args : Bytes) :
    app.command lib sign out kCmdAddUpdateContact args =
      app.editContacts (cmdAddUpdateContact app.node.contacts args) := by
  rw [App.command]
  repeat rw [if_neg (by decide)]
  rw [if_pos rfl]

theorem command_setChannel (args : Bytes) :
    app.command lib sign out kCmdSetChannel args = app.cmdSetChannel args := by
  rw [App.command]
  repeat rw [if_neg (by decide)]
  rw [if_pos rfl]

theorem command_getChannel (args : Bytes) :
    app.command lib sign out kCmdGetChannel args =
      ([cmdGetChannel app.node.channels args], app) := by
  rw [App.command]
  repeat rw [if_neg (by decide)]
  rw [if_pos rfl]

/-- What was read is written back as it was. `app` has shown it, and the command may
come in any later state. -/
structure WritesBack : Prop where
  contact : ∀ c, Framed c →
    ((app.node.contacts.find c.pubkey).isSome = true ∨
      app.node.contacts.contacts.length < app.node.contacts.maxContacts) →
    ∀ answers after, app.command lib sign out kCmdAddUpdateContact
        ((contactFrame kRespContact c).drop 1) = (answers, after) →
      (app.writer.healthy = true → answers = [respOk]) ∧
      (∃ c', after.node.contacts.find c.pubkey = some c' ∧ SameRecord c c') ∧
      others after.node.contacts c.pubkey = others app.node.contacts c.pubkey
  channel : ∀ index ch, index < kMaxChannels → app.node.channels.channels[index]? = some ch →
    FramedChannel ch → ∀ frame unchanged,
    app.command lib sign out kCmdGetChannel [UInt8.ofNat index] = ([frame], unchanged) →
    ∀ later : App, index < later.node.channels.channels.length →
    ∀ answers after, later.command lib sign out kCmdSetChannel (frame.drop 1) = (answers, after) →
      (later.writer.healthy = true → answers = [respOk]) ∧
      after.node.channels.channels = later.node.channels.channels.set index ch ∧
      after.node.channels.channels[index]? = some ch

theorem App.savedReply_healthy (hhealthy : app.writer.healthy = true) :
    app.savedReply.1 = [respOk] := by
  have hsame : app.writer.requestSave.healthy = true := hhealthy
  simp only [App.savedReply, hsame, if_true]

theorem App.contact_written_back {c : Contact} (hc : Framed c)
    (hroom : (app.node.contacts.find c.pubkey).isSome = true ∨
      app.node.contacts.contacts.length < app.node.contacts.maxContacts) :
    let edited := app.editContacts
      (cmdAddUpdateContact app.node.contacts ((contactFrame kRespContact c).drop 1))
    (app.writer.healthy = true → edited.1 = [respOk]) ∧
      (∃ c', edited.2.node.contacts.find c.pubkey = some c' ∧ SameRecord c c') ∧
      others edited.2.node.contacts c.pubkey = others app.node.contacts c.pubkey := by
  obtain ⟨contacts, hedited, hfound, hothers⟩ := cmdAddUpdateContact_contactFrame hc hroom
  rw [hedited]
  exact ⟨fun hhealthy => App.savedReply_healthy _ hhealthy, hfound, hothers⟩

theorem App.channel_written_back {index : Nat} {ch : Channel} {body : Bytes}
    (hread : readChannel body = some (index, ch))
    (hthere : index < app.node.channels.channels.length) :
    let set := app.cmdSetChannel body
    (app.writer.healthy = true → set.1 = [respOk]) ∧
      set.2.node.channels.channels = app.node.channels.channels.set index ch := by
  have hset : (app.node.channels.set index ch).channels =
      app.node.channels.channels.set index ch := by
    rw [ChannelStore.set, if_neg (Nat.not_le.mpr hthere)]
  intro set
  have hcommand : set = { app with
      node := { app.node with channels := app.node.channels.set index ch } }.savedReply := by
    simp only [set, App.cmdSetChannel, hread]
  rw [hcommand]
  exact ⟨fun hhealthy => App.savedReply_healthy _ hhealthy, hset⟩

/-- **What an app reads it can write back**, contact by contact and slot by slot. -/
theorem writes_back : WritesBack lib sign out app where
  contact c hc hroom answers after hcommand := by
    have hwritten := app.contact_written_back hc hroom
    rw [← command_addUpdateContact lib sign out, hcommand] at hwritten
    exact hwritten
  channel index ch hindex hslot hch frame unchanged hshown later hthere answers after hcommand := by
    rw [command_getChannel] at hshown
    obtain ⟨hframe, -⟩ := Prod.mk.inj hshown
    obtain rfl := List.singleton_inj.mp hframe
    have hwritten := later.channel_written_back (readChannel_cmdGetChannel hindex hslot hch) hthere
    rw [← command_setChannel lib sign out, hcommand] at hwritten
    obtain ⟨hanswer, hset⟩ := hwritten
    refine ⟨hanswer, hset, ?_⟩
    rw [hset]
    exact List.getElem?_set_self hthere

end

end Coreletd.Daemon
