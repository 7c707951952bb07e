/-
# A load is all or nothing

The three loaders build the new contents beside the old ones and put them in place at
the end. Two of them first ask the stream whether it failed; the queue's does not, so a
read error behind lines that are all in order passes for the end of the file.
-/

import Mathlib.Data.List.Forall2
import Coreletd.Mesh.ChannelReload
import Coreletd.Mesh.InboxFile

namespace Coreletd.Mesh

open Coreletd.Crypto Coreletd.Library

/-! ## Files of records -/

/-- A line that is neither blank nor a comment. -/
def IsRecord (line : Bytes) : Prop := ¬(line = [] ∨ line.head? = some 35)

instance (line : Bytes) : Decidable (IsRecord line) := inferInstanceAs (Decidable (¬ _))

/-- What the lines up to here say: whether the header is among them, and the records, one
for every line that is no comment. -/
structure Scanned {β : Type} (header : Bytes) (reads : Bytes → β → Prop) (lines : List Bytes)
    (sawHeader : Bool) (records : List β) : Prop where
  header : sawHeader = true → header ∈ lines
  records : List.Forall₂ reads (lines.filter IsRecord) records

/-- A complete file: records only, under a version header. -/
abbrev RecordFile {β : Type} (header : Bytes) (reads : Bytes → β → Prop) (lines : List Bytes)
    (records : List β) : Prop :=
  Scanned header reads lines true records

namespace Scanned

variable {β : Type} {header : Bytes} {reads : Bytes → β → Prop} {seen : List Bytes}
  {sawHeader : Bool} {records : List β}

theorem start : Scanned header reads [] false [] := ⟨nofun, .nil⟩

private theorem filter_comment {line : Bytes} (hline : ¬IsRecord line) :
    (seen ++ [line]).filter IsRecord = seen.filter IsRecord := by
  rw [List.filter_append, List.filter_cons_of_neg (by simpa using hline), List.filter_nil,
    List.append_nil]

theorem atHeader (hseen : Scanned header reads seen sawHeader records)
    (hheader : ¬IsRecord header) :
    Scanned header reads (seen ++ [header]) true records := by
  refine ⟨fun _ => List.mem_append_right _ (List.mem_singleton_self _), ?_⟩
  rw [filter_comment hheader]
  exact hseen.records

theorem atComment (hseen : Scanned header reads seen sawHeader records) {line : Bytes}
    (hline : ¬IsRecord line) : Scanned header reads (seen ++ [line]) sawHeader records := by
  refine ⟨fun hsaw => List.mem_append_left _ (hseen.header hsaw), ?_⟩
  rw [filter_comment hline]
  exact hseen.records

theorem atRecord (hseen : Scanned header reads seen sawHeader records) {line : Bytes} {record : β}
    (hline : IsRecord line) (hreads : reads line record) :
    Scanned header reads (seen ++ [line]) sawHeader (records ++ [record]) := by
  refine ⟨fun hsaw => List.mem_append_left _ (hseen.header hsaw), ?_⟩
  rw [List.filter_append, List.filter_cons_of_pos (by simpa using hline), List.filter_nil]
  exact List.rel_append hseen.records (.cons hreads .nil)

end Scanned

/-! ## The records of each store -/

/-- A line of the contact file, and the contact it stands for: a whole key, numbers in
range and a route that fits. -/
def ContactRecord (line : Bytes) (c : Contact) : Prop :=
  ∃ key type flags advTs lastSeen lat lon path,
    splitFields line 9 = some [key, type, flags, advTs, lastSeen, lat, lon, path, c.name] ∧
    unhex key = some c.pubkey ∧ c.pubkey.length = kPubKeySize ∧
    parseUnsigned type 255 = some c.type.toNat ∧ parseUnsigned flags 255 = some c.flags.toNat ∧
    parseUnsigned advTs 4294967295 = some c.advTimestamp.toNat ∧
    parseUnsigned lastSeen 4294967295 = some c.lastSeen.toNat ∧
    parseSigned lat (-90000000) 90000000 = some c.latE6.toInt ∧
    parseSigned lon (-180000000) 180000000 = some c.lonE6.toInt ∧
    ContactStore.parsePath path = some (c.pathKnown, c.outPath) ∧
    c.lastRssi = 0 ∧ c.lastSnrQ4 = 0

/-- The sender of a stored message: a whole key, or none at all on a channel. -/
def PeerField (field : Bytes) (m : StoredMessage) : Prop :=
  (field ≠ Text.ascii "-" ∧ unhex field = some m.senderPubkey ∧
      m.senderPubkey.length = kPubKeySize) ∨
    (field = Text.ascii "-" ∧ m.isChannel = true ∧ m.senderPubkey = [])

/-- The fields behind the kind, when they say `m`. -/
def MessageFields (peer channel timestamp txtType snr pathLen text : Bytes) (m : StoredMessage) :
    Prop :=
  PeerField peer m ∧ parseUnsigned channel 255 = some m.channelIndex.toNat ∧
    parseUnsigned timestamp 4294967295 = some m.timestamp.toNat ∧
    parseUnsigned txtType 255 = some m.txtType.toNat ∧
    parseSigned snr (-128) 127 = some m.snrQ4.toInt ∧
    parseUnsigned pathLen 255 = some m.pathLen.toNat ∧ unhex text = some m.text

/-- A line of the message file, and the message it stands for. -/
def MessageRecord (line : Bytes) (m : StoredMessage) : Prop :=
  ∃ peer channel timestamp txtType snr pathLen text,
    splitFields line 8 = some [Text.ascii (if m.isChannel then "channel" else "direct"), peer,
      channel, timestamp, txtType, snr, pathLen, text] ∧
    MessageFields peer channel timestamp txtType snr pathLen text m

/-! ## What each loop has read -/

theorem ContactStore.contactRecord_of_parseRecord {limit : Nat} {loaded : List Contact}
    {line : Bytes} {c : Contact} (hparse : parseRecord limit loaded line = .ok c) :
    ContactRecord line c := by
  rw [parseRecord] at hparse
  split at hparse
  next key type flags advTs lastSeen lat lon path name hsplit =>
    split at hparse
    next => cases hparse
    next pubkey hkey =>
      split at hparse
      next => cases hparse
      next hlength =>
        split at hparse
        next => cases hparse
        next =>
          split at hparse
          next htype hflags hadvTs hlastSeen hlat hlon =>
            split at hparse
            next => cases hparse
            next hpath =>
              split at hparse
              next => cases hparse
              next =>
                obtain rfl := Except.ok.inj hparse
                have hlatRange := of_parseSigned hlat
                have hlonRange := of_parseSigned hlon
                refine ⟨key, type, flags, advTs, lastSeen, lat, lon, path, hsplit, hkey,
                  not_not.mp hlength, ?_, ?_, ?_, ?_, ?_, ?_, hpath, rfl, rfl⟩
                · rw [UInt8.toNat_ofNat_of_lt' (Nat.lt_succ_of_le (of_parseUnsigned htype)), htype]
                · rw [UInt8.toNat_ofNat_of_lt' (Nat.lt_succ_of_le (of_parseUnsigned hflags)),
                  hflags]
                · rw [UInt32.toNat_ofNat_of_lt' (Nat.lt_succ_of_le (of_parseUnsigned hadvTs)),
                    hadvTs]
                · rw [UInt32.toNat_ofNat_of_lt' (Nat.lt_succ_of_le (of_parseUnsigned hlastSeen)),
                    hlastSeen]
                · rw [Int32.toInt_ofInt_of_le (by norm_num; omega) (by norm_num; omega), hlat]
                · rw [Int32.toInt_ofInt_of_le (by norm_num; omega) (by norm_num; omega), hlon]
          next => cases hparse
  next => cases hparse

theorem ContactStore.scanned_loadLine {limit : Nat} {seen : List Bytes} {line : Bytes}
    {acc next : Bool × List Contact}
    (hseen : Scanned headerLine ContactRecord seen acc.1 acc.2)
    (hline : loadLine limit acc line = .ok next) :
    Scanned headerLine ContactRecord (seen ++ [line]) next.1 next.2 := by
  rw [loadLine] at hline
  split at hline
  next hheader =>
    obtain rfl := Except.ok.inj hline
    rw [hheader]
    exact hseen.atHeader (by decide +kernel)
  next =>
    split at hline
    next hcomment =>
      obtain rfl := Except.ok.inj hline
      exact hseen.atComment (not_not.mpr hcomment)
    next hrecord =>
      split at hline
      next c hparse =>
        obtain rfl := Except.ok.inj hline
        exact hseen.atRecord hrecord (contactRecord_of_parseRecord hparse)
      next => cases hline

/-- The slots these records describe: one without a record is empty. -/
def slotsOf (records : List (Nat × Channel)) : List Channel :=
  (List.range kMaxChannels).map fun slot => (records.lookup slot).getD {}

namespace ChannelStore

/-- What the channel loop has made of the lines so far. -/
structure Filled (seen : List Bytes) (loading : Loading) (records : List (Nat × Channel)) :
    Prop where
  scanned : Scanned headerLine ChannelRecord seen loading.sawHeader records
  distinct : (records.map (·.1)).Nodup
  channels : loading.channels = slotsOf records
  occupied : loading.occupied =
    (List.range kMaxChannels).map fun slot => (records.lookup slot).isSome

/-- Looking up in one more record, at a slot that had none. -/
theorem lookup_snoc {records : List (Nat × Channel)} {slot : Nat} {ch : Channel}
    (hfree : records.lookup slot = none) (other : Nat) :
    (records ++ [(slot, ch)]).lookup other =
      if other = slot then some ch else records.lookup other := by
  rw [List.lookup_append]
  split
  next hequal =>
    rw [hequal, hfree]
    simp
  next hne =>
    rw [List.lookup_cons, beq_false_of_ne hne]
    simp

/-- Writing one slot of a table over the slots. -/
theorem map_range_set {α : Type} (table : Nat → α) (size slot : Nat) (value : α) :
    ((List.range size).map table).set slot value =
      (List.range size).map fun other => if other = slot then value else table other := by
  apply List.ext_getElem
  · simp
  · intro other _ _
    simp only [List.getElem_set, List.getElem_map, List.getElem_range, eq_comm]

theorem Filled.lookup_eq_none {seen : List Bytes} {loading : Loading}
    {records : List (Nat × Channel)} (hfilled : Filled seen loading records) {slot : Nat}
    (hindex : slot < kMaxChannels) (hvacant : loading.occupied.getD slot false = false) :
    records.lookup slot = none := by
  rw [hfilled.occupied, List.getD_eq_getElem?_getD, List.getElem?_map,
    List.getElem?_range hindex] at hvacant
  exact Option.isSome_eq_false_iff.mp hvacant |> Option.isNone_iff_eq_none.mp

/-- One more record, at a slot that had none. -/
theorem Filled.atRecord {seen : List Bytes} {loading : Loading} {records : List (Nat × Channel)}
    (hfilled : Filled seen loading records) {line : Bytes} (hline : IsRecord line) {slot : Nat}
    {ch : Channel} (hreads : ChannelRecord line (slot, ch))
    (hfree : records.lookup slot = none) :
    Filled (seen ++ [line])
      { loading with
        channels := loading.channels.set slot ch
        occupied := loading.occupied.set slot true }
      (records ++ [(slot, ch)]) where
  scanned := hfilled.scanned.atRecord hline hreads
  distinct := by
    rw [List.map_append, List.map_singleton]
    refine List.nodup_append.mpr ⟨hfilled.distinct, by simp, ?_⟩
    intro taken htaken other hother hequal
    obtain ⟨record, hmem, rfl⟩ := List.mem_map.mp htaken
    have hdiffers := List.lookup_eq_none_iff.mp hfree record hmem
    rw [hequal, List.mem_singleton.mp hother] at hdiffers
    exact absurd hdiffers (by simp)
  channels := by
    simp only [hfilled.channels, slotsOf, map_range_set, lookup_snoc hfree]
    refine List.map_congr_left fun other _ => ?_
    split <;> rfl
  occupied := by
    simp only [hfilled.occupied, map_range_set, lookup_snoc hfree]
    refine List.map_congr_left fun other _ => ?_
    split <;> rfl

theorem filled_loadLine {seen : List Bytes} {line : Bytes} {loading next : Loading}
    (hfilled : ∃ records, Filled seen loading records) (hline : loadLine loading line = .ok next) :
    ∃ records, Filled (seen ++ [line]) next records := by
  obtain ⟨records, hfilled⟩ := hfilled
  rw [loadLine] at hline
  split at hline
  next hheader =>
    obtain rfl := Except.ok.inj hline
    rw [hheader]
    exact ⟨records, hfilled.scanned.atHeader (by decide +kernel), hfilled.distinct,
      hfilled.channels, hfilled.occupied⟩
  next =>
    split at hline
    next hcomment =>
      obtain rfl := Except.ok.inj hline
      exact ⟨records, hfilled.scanned.atComment (not_not.mpr hcomment), hfilled.distinct,
        hfilled.channels, hfilled.occupied⟩
    next hrecord =>
      obtain ⟨slot, ch, hreads, hvacant, rfl⟩ := loadRecord_fills hline
      have hfree := hfilled.lookup_eq_none hreads.slot_lt hvacant
      exact ⟨records ++ [(slot, ch)], hfilled.atRecord hrecord hreads hfree⟩

end ChannelStore

namespace MessageInbox

theorem parsePeer_eq_ok {isChannel : Bool} {field : Bytes} {m : StoredMessage}
    (hkind : m.isChannel = isChannel) :
    parsePeer isChannel field = .ok m.senderPubkey ↔ PeerField field m := by
  rw [parsePeer, PeerField, hkind]
  by_cases hdash : field = Text.ascii "-"
  · cases isChannel <;> simp [hdash, eq_comm]
  · simp only [hdash, ne_eq, not_false_eq_true, if_true, true_and, false_and, or_false]
    cases hkey : unhex field with
    | none => simp
    | some pubkey =>
      by_cases hlength : pubkey.length = kPubKeySize
      · simp only [hlength, not_true_eq_false, if_false, Except.ok.injEq, Option.some.injEq]
        exact ⟨fun hequal => ⟨hequal, hequal ▸ hlength⟩, And.left⟩
      · simp only [hlength, not_false_eq_true, if_true, reduceCtorEq, Option.some.injEq, false_iff]
        rintro ⟨rfl, hwhole⟩
        exact hlength hwhole

theorem parseFields_eq_ok {isChannel : Bool}
    {peer channel timestamp txtType snr pathLen text : Bytes} {m : StoredMessage} :
    parseFields isChannel peer channel timestamp txtType snr pathLen text = .ok m ↔
      m.isChannel = isChannel ∧
        MessageFields peer channel timestamp txtType snr pathLen text m := by
  constructor
  · intro hparse
    rw [parseFields] at hparse
    split at hparse
    next => cases hparse
    next senderPubkey hpeer =>
      split at hparse
      next hchannel htimestamp htxtType hsnr hpathLen =>
        split at hparse
        next => cases hparse
        next htext =>
          obtain rfl := Except.ok.inj hparse
          have hsnrRange := ContactStore.of_parseSigned hsnr
          refine ⟨rfl, (parsePeer_eq_ok rfl).mp hpeer, ?_, ?_, ?_, ?_, ?_, htext⟩
          · rw [UInt8.toNat_ofNat_of_lt' (Nat.lt_succ_of_le (of_parseUnsigned hchannel)), hchannel]
          · rw [UInt32.toNat_ofNat_of_lt' (Nat.lt_succ_of_le (of_parseUnsigned htimestamp)),
              htimestamp]
          · rw [UInt8.toNat_ofNat_of_lt' (Nat.lt_succ_of_le (of_parseUnsigned htxtType)), htxtType]
          · rw [Int8.toInt_ofInt_of_le (by norm_num; omega) (by norm_num; omega), hsnr]
          · rw [UInt8.toNat_ofNat_of_lt' (Nat.lt_succ_of_le (of_parseUnsigned hpathLen)), hpathLen]
      next => cases hparse
  · rintro ⟨rfl, hpeer, hchannel, htimestamp, htxtType, hsnr, hpathLen, htext⟩
    simp only [parseFields, (parsePeer_eq_ok rfl).mpr hpeer, hchannel, htimestamp, htxtType, hsnr,
      hpathLen, htext, UInt8.ofNat_toNat, UInt32.ofNat_toNat, Int8.ofInt_toInt]

/-- The loader takes a line for a message exactly when it is the record of one. -/
theorem parseRecord_eq_ok {line : Bytes} {m : StoredMessage} :
    parseRecord line = .ok m ↔ MessageRecord line m := by
  constructor
  · intro hparse
    rw [parseRecord] at hparse
    split at hparse
    next kind peer channel timestamp txtType snr pathLen text hsplit =>
      split at hparse
      next hkind =>
        obtain ⟨hchannel, hfields⟩ := parseFields_eq_ok.mp hparse
        exact ⟨peer, channel, timestamp, txtType, snr, pathLen, text,
          by rw [hsplit, hkind, hchannel, if_pos rfl], hfields⟩
      next =>
        split at hparse
        next hkind =>
          obtain ⟨hdirect, hfields⟩ := parseFields_eq_ok.mp hparse
          exact ⟨peer, channel, timestamp, txtType, snr, pathLen, text,
            by rw [hsplit, hkind, hdirect, if_neg (by decide)], hfields⟩
        next => cases hparse
    next => cases hparse
  · rintro ⟨peer, channel, timestamp, txtType, snr, pathLen, text, hsplit, hfields⟩
    rw [parseRecord, hsplit]
    cases hkind : m.isChannel with
    | true => exact (if_pos (by decide)).trans (parseFields_eq_ok.mpr ⟨hkind, hfields⟩)
    | false =>
      exact (if_neg (by decide)).trans
        ((if_pos (by decide)).trans (parseFields_eq_ok.mpr ⟨hkind, hfields⟩))

theorem scanned_loadLine {seen : List Bytes} {line : Bytes} {acc next : Bool × List StoredMessage}
    (hseen : Scanned kHeader MessageRecord seen acc.1 acc.2)
    (hline : loadLine acc line = .ok next) :
    Scanned kHeader MessageRecord (seen ++ [line]) next.1 next.2 := by
  rw [loadLine] at hline
  split at hline
  next hheader =>
    obtain rfl := Except.ok.inj hline
    rw [hheader]
    exact hseen.atHeader (by decide +kernel)
  next =>
    split at hline
    next hcomment =>
      obtain rfl := Except.ok.inj hline
      exact hseen.atComment (not_not.mpr hcomment)
    next hrecord =>
      split at hline
      next m hparse =>
        obtain rfl := Except.ok.inj hline
        exact hseen.atRecord hrecord (parseRecord_eq_ok.mp hparse)
      next => cases hline

/-- Lines that are all in order are all read. -/
theorem foldlM_of_forall₂ {lines : List Bytes} {records : List StoredMessage}
    (hrecords : List.Forall₂ MessageRecord (lines.filter IsRecord) records) (sawHeader : Bool)
    (done : List StoredMessage) :
    lines.foldlM loadLine (sawHeader, done) =
      .ok (sawHeader || decide (kHeader ∈ lines), done ++ records) := by
  induction lines generalizing sawHeader done records with
  | nil =>
    obtain rfl := List.forall₂_nil_left_iff.mp hrecords
    simp; rfl
  | cons line lines ih =>
    rw [List.foldlM_cons]
    by_cases hrecord : IsRecord line
    · rw [List.filter_cons_of_pos (by simpa using hrecord)] at hrecords
      obtain ⟨m, rest, hm, hrest, rfl⟩ := List.forall₂_cons_left_iff.mp hrecords
      have hheader : line ≠ kHeader := by
        rintro rfl
        exact absurd hrecord (by decide +kernel)
      have hturn : loadLine (sawHeader, done) line = .ok (sawHeader, done ++ [m]) := by
        rw [loadLine, if_neg hheader, if_neg hrecord, parseRecord_eq_ok.mpr hm]
      rw [hturn]
      simp only [bind, Except.bind, ih hrest, List.append_assoc, List.singleton_append,
        List.mem_cons, hheader.symm, false_or]
    · rw [List.filter_cons_of_neg (by simpa using hrecord)] at hrecords
      by_cases hheader : line = kHeader
      · have hturn : loadLine (sawHeader, done) line = .ok (true, done) := if_pos hheader
        rw [hturn]
        simp [bind, Except.bind, ih hrecords, hheader]
      · have hturn : loadLine (sawHeader, done) line = .ok (sawHeader, done) := by
          rw [loadLine, if_neg hheader, if_pos (not_not.mp hrecord)]
        rw [hturn]
        simp only [bind, Except.bind, ih hrecords, List.mem_cons, Ne.symm hheader, false_or]

end MessageInbox

/-! ## All or nothing -/

/-- What a load may come back with: the file's contents in place of the old ones, or
nothing changed. -/
structure AllOrNothing {σ : Type} (before : σ) (replaced : σ → Prop) (outcome : LoadResult × σ) :
    Prop where
  loaded : outcome.1 = .loaded → replaced outcome.2
  kept : outcome.1 ≠ .loaded → outcome.2 = before

theorem AllOrNothing.missing {σ : Type} {before : σ} {replaced : σ → Prop} :
    AllOrNothing before replaced (.missing, before) :=
  ⟨nofun, fun _ => rfl⟩

theorem AllOrNothing.corrupt {σ : Type} {before : σ} {replaced : σ → Prop} :
    AllOrNothing before replaced (.corrupt, before) :=
  ⟨nofun, fun _ => rfl⟩

theorem AllOrNothing.of_loaded {σ : Type} {before after : σ} {replaced : σ → Prop}
    (hreplaced : replaced after) : AllOrNothing before replaced (.loaded, after) :=
  ⟨fun _ => hreplaced, fun hnot => absurd rfl hnot⟩

/-- The contacts a load puts in place are the records of the whole file. -/
def ContactStore.LoadsWhole (s : ContactStore) (fs : FileSystem) (badAfter : Option Nat) : Prop :=
  AllOrNothing s (fun after => badAfter = none ∧ ∃ content, fs s.path = some content ∧
    RecordFile headerLine ContactRecord (Text.lines lf content) after.contacts)
    (s.load fs badAfter)

/-- The slots a load puts in place are those of the whole file's records. -/
def ChannelStore.LoadsWhole (s : ChannelStore) (fs : FileSystem) (badAfter : Option Nat) : Prop :=
  AllOrNothing s (fun after => badAfter = none ∧ ∃ content records, fs s.path = some content ∧
    RecordFile headerLine ChannelRecord (Text.lines lf content) records ∧
    (records.map (·.1)).Nodup ∧ after.channels = slotsOf records) (s.load fs badAfter)

/-- The messages a load puts in place are the newest of the whole file's records. -/
def MessageInbox.LoadsWhole (q : MessageInbox) (fs : FileSystem) (badAfter : Option Nat) : Prop :=
  AllOrNothing q (fun after => badAfter = none ∧ ∃ content records, fs q.path = some content ∧
    RecordFile kHeader MessageRecord (Text.lines lf content) records ∧
    after.messages = records.drop (records.length - q.limit)) (q.load fs badAfter)

theorem ContactStore.loadsWhole (s : ContactStore) (fs : FileSystem) (badAfter : Option Nat) :
    s.LoadsWhole fs badAfter := by
  rw [LoadsWhole, load]
  split
  next => exact .missing
  next =>
    split
    next => exact .missing
    next content hcontent =>
      dsimp only
      split
      next => exact .corrupt
      next sawHeader loaded hfold =>
        cases badAfter with
        | some n => exact .corrupt
        | none =>
          have hscanned := foldlM_readSoFar
            (fun seen acc => Scanned headerLine ContactRecord seen acc.1 acc.2)
            (fun _ _ _ _ hseen hline => scanned_loadLine hseen hline) Scanned.start hfold
          cases sawHeader with
          | false => exact .corrupt
          | true => exact .of_loaded ⟨rfl, content, hcontent, hscanned⟩

theorem ChannelStore.loadsWhole (s : ChannelStore) (fs : FileSystem) (badAfter : Option Nat) :
    s.LoadsWhole fs badAfter := by
  rw [LoadsWhole, load]
  split
  next => exact .missing
  next =>
    split
    next => exact .missing
    next content hcontent =>
      dsimp only
      split
      next => exact .corrupt
      next loading hfold =>
        cases badAfter with
        | some n => exact .corrupt
        | none =>
          have hstart : ∃ records, Filled [] {} records :=
            ⟨[], .start, List.nodup_nil, rfl, rfl⟩
          obtain ⟨records, hfilled⟩ := foldlM_readSoFar
            (fun seen loading => ∃ records, Filled seen loading records)
            (fun _ _ _ _ hseen hline => filled_loadLine hseen hline) hstart hfold
          have hscanned := hfilled.scanned
          cases hheader : loading.sawHeader with
          | false => exact .corrupt
          | true =>
            rw [hheader] at hscanned
            exact .of_loaded ⟨rfl, content, records, hcontent, hscanned, hfilled.distinct,
              hfilled.channels⟩

namespace MessageInbox

/-- The queue's loop ends with these messages, and with the header, exactly on their file. -/
theorem foldlM_eq_ok {lines : List Bytes} {records : List StoredMessage} :
    lines.foldlM loadLine (false, []) = .ok (true, records) ↔
      RecordFile kHeader MessageRecord lines records := by
  constructor
  · intro hfold
    have hstart : Scanned kHeader MessageRecord [] false [] := .start
    exact foldlM_readSoFar (fun seen acc => Scanned kHeader MessageRecord seen acc.1 acc.2)
      (fun _ _ _ _ hseen hline => scanned_loadLine hseen hline) hstart hfold
  · intro hfile
    rw [foldlM_of_forall₂ hfile.records, decide_eq_true (hfile.header rfl)]
    rfl

/-- The read fails behind lines that could be a whole file. -/
def CutShort (q : MessageInbox) (fs : FileSystem) (badAfter : Option Nat) : Prop :=
  q.path ≠ [] ∧ ∃ content n records, fs q.path = some content ∧ badAfter = some n ∧
    RecordFile kHeader MessageRecord ((Text.lines lf content).take n) records

/-- The queue's load is all or nothing unless the read fails where the file could have
ended: then it takes what was read for the whole. -/
theorem loadsWhole_iff (q : MessageInbox) (fs : FileSystem) (badAfter : Option Nat) :
    q.LoadsWhole fs badAfter ↔ ¬q.CutShort fs badAfter := by
  rw [LoadsWhole, load]
  by_cases hpath : q.path = []
  · rw [if_pos hpath]
    exact iff_of_true .missing fun hcut => hcut.1 hpath
  rw [if_neg hpath]
  cases hcontent : fs q.path with
  | none =>
    refine iff_of_true .missing ?_
    rintro ⟨-, content, n, records, hsome, -⟩
    rw [hcontent] at hsome
    cases hsome
  | some content =>
    have hcut : q.CutShort fs badAfter ↔ ∃ n records, badAfter = some n ∧
        ((Text.lines lf content).take n).foldlM loadLine (false, []) = .ok (true, records) := by
      simp [CutShort, hpath, hcontent, foldlM_eq_ok]
    rw [hcut]
    dsimp only
    cases badAfter with
    | none =>
      refine iff_of_true ?_ (by simp)
      split
      next => exact .corrupt
      next sawHeader loaded hfold =>
        cases sawHeader with
        | false => exact .corrupt
        | true =>
          exact .of_loaded ⟨rfl, content, loaded, rfl, foldlM_eq_ok.mp hfold, rfl⟩
    | some n =>
      -- The loop's end is the only thing that is looked at.
      split
      next why hfold => exact iff_of_true .corrupt (by simp [hfold])
      next sawHeader loaded hfold =>
        cases sawHeader with
        | false => exact iff_of_true .corrupt (by simp [hfold])
        | true =>
          refine iff_of_false ?_ (not_not.mpr ⟨n, loaded, rfl, hfold⟩)
          intro hwhole
          exact absurd (hwhole.loaded rfl).1 (by simp)

end MessageInbox

/-- Each of the three loads is all or nothing, the queue's as long as its read does not
fail where the file could have ended. -/
theorem loads_whole (contacts : ContactStore) (channels : ChannelStore) (inbox : MessageInbox)
    (fs : FileSystem) (badAfter : Option Nat) :
    contacts.LoadsWhole fs badAfter ∧ channels.LoadsWhole fs badAfter ∧
      (inbox.LoadsWhole fs badAfter ↔ ¬inbox.CutShort fs badAfter) :=
  ⟨contacts.loadsWhole fs badAfter, channels.loadsWhole fs badAfter,
    inbox.loadsWhole_iff fs badAfter⟩

/-- A queue of two messages, written to its file. -/
def heldQueue : MessageInbox where
  path := Text.ascii "messages"
  messages :=
    [{ isChannel := true, text := Text.ascii "first" },
      { isChannel := true, text := Text.ascii "second" }]

def heldDisk : FileSystem := fun path =>
  if path = heldQueue.path then some heldQueue.fileContent else none

/-- The read fails behind the two comment lines and the first message: the load says that
it has them all, and the second message is gone with the next save. -/
theorem tail_lost :
    MessageInbox.load { path := heldQueue.path } heldDisk (some 3) =
        (.loaded, { heldQueue with messages := heldQueue.messages.take 1 }) ∧
      ¬MessageInbox.LoadsWhole { path := heldQueue.path } heldDisk (some 3) := by
  have hload : MessageInbox.load { path := heldQueue.path } heldDisk (some 3) =
      (.loaded, { heldQueue with messages := heldQueue.messages.take 1 }) := by decide +kernel
  refine ⟨hload, ?_⟩
  rw [MessageInbox.LoadsWhole, hload]
  intro hwhole
  exact absurd (hwhole.loaded rfl).1 (by decide)

end Coreletd.Mesh
