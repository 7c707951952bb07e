/-
# Stores that a file can hold

What startup finds in the files, and every reception and command after it, leaves the
contacts well formed, the channels eight and the messages with senders that a record can
name. Such stores are read back from what a save wrote, so while a flag is clear another
start would find the same store, and would set nothing aside.
-/

import Coreletd.Companion.ChannelSlots
import Coreletd.Companion.ContactRuns
import Coreletd.Daemon.CleanStores
import Coreletd.Mesh.StoredMail
import Coreletd.Mesh.WholeLoads

namespace Coreletd

open Coreletd.Crypto
open Coreletd.Library

namespace Mesh

/-! ## Messages -/

/-- Either no sender, which only a channel's message can do without, or a whole key. -/
def StoredMessage.Named (m : StoredMessage) : Prop :=
  (m.isChannel = true ∧ m.senderPubkey = []) ∨ m.senderPubkey.length = kPubKeySize

theorem StoredMessage.Storable.named {m : StoredMessage} (hstorable : m.Storable) : m.Named :=
  hstorable.imp_right And.right

theorem PeerField.named {field : Bytes} {m : StoredMessage} (hpeer : PeerField field m) :
    m.Named := by
  rcases hpeer with ⟨-, -, hlength⟩ | ⟨-, hchannel, hnobody⟩
  · exact .inr hlength
  · exact .inl ⟨hchannel, hnobody⟩

namespace MessageInbox

/-- Messages that can be written, within this limit. -/
structure Fits (limit : Nat) (q : MessageInbox) : Prop where
  named : ∀ m ∈ q.messages, m.Named
  bounded : q.messages.length ≤ limit
  limit : q.limit = limit

theorem peerField_written {m : StoredMessage} (hnamed : m.Named) :
    PeerField (if m.senderPubkey = [] then Text.ascii "-" else hex m.senderPubkey) m := by
  rcases hnamed with ⟨hchannel, hnobody⟩ | hlength
  · rw [if_pos hnobody]
    exact .inr ⟨rfl, hchannel, hnobody⟩
  · have hne : m.senderPubkey ≠ [] := by
      intro hnil
      rw [hnil] at hlength
      exact absurd hlength (by decide)
    have hdash : hex m.senderPubkey ≠ Text.ascii "-" := by
      intro hequal
      have hmem : (45 : UInt8) ∈ hex m.senderPubkey := by
        rw [hequal]
        decide
      exact absurd (nibble_isSome_of_mem_hex hmem) (by decide)
    rw [if_neg hne]
    exact .inl ⟨hdash, unhex_hex _, hlength⟩

/-- What is written of a message is its record. -/
theorem messageRecord_written {m : StoredMessage} (hnamed : m.Named) :
    MessageRecord (joinFields (recordFields m)) m := by
  have hsplit : splitFields (joinFields (recordFields m)) 8 = some (recordFields m) :=
    splitFields_joinFields (recordFields m) (by simp [recordFields]) (tab_not_mem_recordFields m)
  exact ⟨_, _, _, _, _, _, _, hsplit, peerField_written hnamed, parseUnsigned_byte _,
    parseUnsigned_word _, parseUnsigned_byte _, parseSigned_int8 _, parseUnsigned_byte _,
    unhex_hex _⟩

theorem isRecord_written (m : StoredMessage) : IsRecord (joinFields (recordFields m)) := by
  have hhead : (joinFields (recordFields m)).head? =
      some (if m.isChannel then 99 else 100) := by
    rw [recordFields, joinFields_cons _ (by simp)]
    cases m.isChannel <;> rfl
  rintro (hempty | hcomment)
  · rw [hempty] at hhead
    cases hhead
  · rw [hhead] at hcomment
    revert hcomment
    cases m.isChannel <;> decide

/-- A file that was written is one of records. -/
theorem recordFile_written {messages : List StoredMessage}
    (hnamed : ∀ m ∈ messages, m.Named) :
    RecordFile kHeader MessageRecord (fileLines { messages }) messages := by
  refine ⟨fun _ => List.mem_cons_self, ?_⟩
  have hrecords : (messages.map fun m => joinFields (recordFields m)).filter IsRecord =
      messages.map fun m => joinFields (recordFields m) := by
    rw [List.filter_eq_self]
    intro line hline
    obtain ⟨m, -, rfl⟩ := List.mem_map.mp hline
    exact decide_eq_true (isRecord_written m)
  rw [fileLines, List.filter_cons_of_neg (by decide +kernel),
    List.filter_cons_of_neg (by decide +kernel), hrecords, List.forall₂_map_left_iff]
  exact List.forall₂_same.mpr fun m hmem => messageRecord_written (hnamed m hmem)

/-- A queue within its limit is read back from its file. -/
theorem load_fileContent {q t : MessageInbox} (hfits : q.Fits t.limit) (hpath : t.path ≠ []) {fs : FileSystem}
    (hfile : fs t.path = some q.fileContent) :
    ∃ loaded, t.load fs = (.loaded, loaded) ∧ loaded.messages = q.messages := by
  have hfold := foldlM_eq_ok.mpr (recordFile_written hfits.named)
  have hexcess : q.messages.length - t.limit = 0 := Nat.sub_eq_zero_of_le hfits.bounded
  refine ⟨{ t with
    messages := q.messages.drop (q.messages.length - t.limit)
    dropped := t.dropped + UInt32.ofNat (q.messages.length - t.limit)
    dirty := false }, ?_, ?_⟩
  · rw [load, if_neg hpath, hfile, fileContent_eq_written]
    dsimp only
    rw [lines_written, hfold]
    rfl
  · show q.messages.drop (q.messages.length - t.limit) = q.messages
    rw [hexcess, List.drop_zero]

end MessageInbox

/-! ## The stores of a node -/

/-- Well formed, within this limit. -/
structure ContactStore.Fits (limit : Nat) (s : ContactStore) : Prop where
  wellFormed : s.WellFormed
  limit : s.maxContacts = limit

/-- What the files of a node's stores can hold. -/
structure Node.Filed (contactLimit messageLimit : Nat) (n : Node) : Prop where
  contacts : n.contacts.Fits contactLimit
  channels : n.channels.channels.length = kMaxChannels
  inbox : n.inbox.Fits messageLimit

namespace Node

open Coreletd.Companion
open Coreletd.Proto

variable {lib : Crypto.Library} {m : Moment} {n n' n'' : Node} {p : Packet}

/-- Contacts that fit still do. -/
def ContactsKept (n n' : Node) : Prop :=
  ∀ limit, n.contacts.Fits limit → n'.contacts.Fits limit

theorem ContactsKept.of_eq (hcontacts : n'.contacts = n.contacts) : ContactsKept n n' :=
  fun _ hfits => hcontacts ▸ hfits

theorem ContactsKept.trans (hfirst : ContactsKept n n') (hsecond : ContactsKept n' n'') :
    ContactsKept n n'' := fun limit hfits => hsecond limit (hfirst limit hfits)

theorem fits_touchSignal {s : ContactStore} {limit : Nat} (hfits : s.Fits limit) (pubkey : Bytes)
    (now : UInt32) (rssi snrQ4 : Int) : (s.touchSignal pubkey now rssi snrQ4).Fits limit :=
  ⟨wellFormed_modify hfits.wellFormed (fun _ => rfl) fun _ hc =>
    ⟨hc.pubkey_length, hc.path_length, hc.path_unknown⟩, hfits.limit⟩

theorem fits_touch {s : ContactStore} {limit : Nat} (hfits : s.Fits limit) (pubkey : Bytes)
    (now : UInt32) : (s.touch pubkey now).Fits limit :=
  ⟨wellFormed_modify hfits.wellFormed (fun _ => rfl) fun _ hc =>
    ⟨hc.pubkey_length, hc.path_length, hc.path_unknown⟩, hfits.limit⟩

theorem contactsKept_transmits {May : Packet → UInt8 → UInt32 → Prop}
    (hsent : Transmits lib m n May n') : ContactsKept n n' := by
  cases hsent with
  | nothing => exact .of_eq rfl
  | one => exact .of_eq rfl

theorem contactsKept_handleAdvert (n : Node) : ContactsKept n (n.handleAdvert lib m p).2 := by
  have hcase : AdvertCase lib m n p (n.handleAdvert lib m p) := handleAdvert_case n p
  generalize n.handleAdvert lib m p = result at hcase ⊢
  cases hcase with
  | ignored => exact .of_eq rfl
  | @applied adv hdecode =>
      have hcase : ApplyCase m n p adv (n.applyAdvert m p adv) := applyAdvert_case n p adv
      show ContactsKept n (n.applyAdvert m p adv)
      generalize n.applyAdvert m p adv = n' at hcase ⊢
      cases hcase with
      | ignored => exact .of_eq rfl
      | noted happlied =>
          intro limit hfits
          have hwell := wellFormed_applyAdvert hfits.wellFormed
            (Advert.pubkey_length_of_decode hdecode) happlied
          have hlimit := (sameConfig_applyAdvert happlied).maxContacts.trans hfits.limit
          exact fits_touchSignal ⟨hwell, hlimit⟩ _ _ _ _

theorem contactsKept_completeAck (n : Node) (hash : Bytes) (direct : Bool) :
    ContactsKept n (n.completeAck m hash direct).2.2 := by
  have hcase : CompleteCase m n hash direct (n.completeAck m hash direct) :=
    completeAck_case n hash direct
  generalize n.completeAck m hash direct = result at hcase ⊢
  cases hcase with
  | unmatched => exact .of_eq rfl
  | matched hcomplete hcontacts =>
      intro limit hfits
      rw [hcontacts]
      show (if _ then _ else _ : ContactStore).Fits limit
      split
      · exact fits_touch hfits _ _
      · exact hfits

theorem contactsKept_handleAck (n : Node) : ContactsKept n (n.handleAck lib m p).2 := by
  have hcompleted := contactsKept_completeAck (m := m) n (subview p.payload 0 kAckHashSize)
    p.isDirect
  have hcase : AckCase lib m n p (n.handleAck lib m p) := handleAck_case n p
  generalize n.handleAck lib m p = result at hcase ⊢
  cases hcase with
  | short => exact .of_eq rfl
  | unmatched _ hcompletes =>
      rw [hcompletes] at hcompleted
      exact hcompleted
  | completed _ hcompletes =>
      rw [hcompletes] at hcompleted
      exact hcompleted
  | offered _ hcompletes =>
      rw [hcompletes] at hcompleted
      exact hcompleted.trans (contactsKept_transmits (transmits_sendPathReturn _ _ _ _ _ _ _))

theorem contactsKept_learnPath (n : Node) (sender : Contact) {plaintext : Bytes} {ret : PathReturn}
    (hret : PathReturn.decode plaintext = some ret) :
    ContactsKept n (n.learnPath m sender ret) := by
  rw [learnPath]
  split
  · intro limit hfits
    have hwell : (n.contacts.setPath sender.pubkey ret.path).2.WellFormed :=
      wellFormed_setPath hfits.wellFormed (PathReturn.pathFits_of_decode hret).fits
    have hlimit := (sameConfig_setPath n.contacts sender.pubkey ret.path).maxContacts.trans
      hfits.limit
    exact fits_touch ⟨hwell, hlimit⟩ _ _
  · exact .of_eq rfl

theorem contactsKept_handlePath (n : Node) : ContactsKept n (n.handlePath lib m p).2 := by
  have hlearned : ∀ {sender : Contact} {plaintext : Bytes} {ret : PathReturn},
      PathReturn.decode plaintext = some ret →
      ContactsKept n ((n.learnPath m sender ret).completeExtra m p ret) := by
    intro sender plaintext ret hret
    have hlearned : ContactsKept n (n.learnPath m sender ret) := n.contactsKept_learnPath sender hret
    refine hlearned.trans ?_
    rw [completeExtra]
    split
    · exact contactsKept_completeAck _ _ _
    · exact .of_eq rfl
  have hcase : PathCase lib m n p (n.handlePath lib m p) := handlePath_case n p
  generalize n.handlePath lib m p = result at hcase ⊢
  cases hcase with
  | elsewhere => exact .of_eq rfl
  | ignored => exact .of_eq rfl
  | learned _ hret => exact hlearned hret
  | offered _ hret =>
      exact (hlearned hret).trans
        (contactsKept_transmits (transmits_sendPathReturn _ _ _ _ _ _ _))

theorem contacts_deliver (n : Node) (sender : Contact) (msg : TextMessage) :
    (n.deliver lib m p sender msg).contacts = n.contacts := by
  have hcase : DeliverCase m n (n.deliver lib m p sender msg) := deliver_case n p sender msg
  generalize n.deliver lib m p sender msg = n' at hcase ⊢
  cases hcase with
  | known => rfl
  | stored => rfl

theorem contactsKept_replyTo (n : Node) (sender : Contact) (ack : Bytes) :
    ContactsKept n (n.replyTo lib m p sender ack) := by
  rw [replyTo]
  split
  · exact contactsKept_transmits (transmits_sendPathReturn _ _ _ _ _ _ _)
  · split
    · exact contactsKept_transmits (transmits_sendAck _ _ _)
    · exact .of_eq rfl

theorem contactsKept_handleText (n : Node) : ContactsKept n (n.handleText lib m p).2 := by
  have hcase : TextCase lib m n p (n.handleText lib m p) := handleText_case n p
  generalize n.handleText lib m p = result at hcase ⊢
  cases hcase with
  | elsewhere => exact .of_eq rfl
  | ignored => exact .of_eq rfl
  | @accepted sender plaintext msg =>
      let contacts := n.contacts.touchSignal sender.pubkey m.unixNow p.rssi p.snrQ4
      have hheard : ContactsKept n { n with contacts } := fun _ hfits =>
        fits_touchSignal hfits _ _ _ _
      have hdelivered : ContactsKept { n with contacts }
          ({ n with contacts }.deliver lib m p sender msg) :=
        .of_eq (contacts_deliver { n with contacts } sender msg)
      exact (hheard.trans hdelivered).trans (contactsKept_replyTo _ sender _)

theorem contactsKept_handleGroupText (n : Node) :
    ContactsKept n (n.handleGroupText lib m p) := by
  have hcase : GroupTextCase m n (n.handleGroupText lib m p) := handleGroupText_case n p
  generalize n.handleGroupText lib m p = n' at hcase ⊢
  cases hcase with
  | ignored => exact .of_eq rfl
  | stored => exact .of_eq rfl

theorem contactsKept_handle (n : Node) : ContactsKept n (n.handle lib m p).2 := by
  rw [handle]
  split
  · exact contactsKept_handleAdvert n
  · exact contactsKept_handleText n
  · exact contactsKept_handleAck n
  · exact contactsKept_handlePath n
  · exact contactsKept_handleGroupText n
  all_goals exact .of_eq rfl

theorem contactsKept_passOn (n : Node) : ContactsKept n (n.passOn lib m p) := by
  have hread : ContactsKept n (if p.type = .ack then n.handleAck lib m p else (true, n)).2 := by
    split
    · exact contactsKept_handleAck n
    · exact .of_eq rfl
  rw [passOn]
  generalize (if p.type = .ack then n.handleAck lib m p else (true, n)) = result at hread ⊢
  obtain ⟨_ | _, n'⟩ := result
  · exact hread
  · exact hread.trans (contactsKept_transmits (transmits_forwardDirect n' p))

theorem contactsKept_onPacket (n : Node) (p : Packet) :
    ContactsKept n (n.onPacket lib m p) := by
  have hway : Way lib m n p (n.onPacket lib m p) := onPacket_way n p
  generalize n.onPacket lib m p = n' at hway ⊢
  cases hway with
  | trace => exact contactsKept_transmits (transmits_forwardTrace n p)
  | zeroHop => exact .of_eq rfl
  | transit => exact contactsKept_passOn n
  | repeated =>
      exact (contactsKept_handle n).trans (contactsKept_transmits (transmits_maybeRepeat _ p))
  | kept => exact contactsKept_handle n

/-- A message more, or none, and nothing beyond the limit. -/
theorem fits_storesOne {limit : Nat} (hfits : n.inbox.Fits limit) (hstores : StoresOne m n n') :
    n'.inbox.Fits limit := by
  rcases hstores with hsame | ⟨msg, hstorable, hstored⟩
  · rw [hsame]
    exact hfits
  · have hlimit : n'.inbox.limit = limit := by
      rw [hstored, MessageInbox.store, ← hfits.limit]
      dsimp only
      split
      · rfl
      · rw [MessageInbox.save_eq]
    have hqueue := MessageInbox.store_messages m.io n.inbox n.files msg
    rw [← hstored, hfits.limit] at hqueue
    refine ⟨fun other hmem => ?_, ?_, hlimit⟩
    · rw [hqueue] at hmem
      rcases List.mem_append.mp (List.mem_of_mem_drop hmem) with hold | hnew
      · exact hfits.named other hold
      · rw [List.mem_singleton.mp hnew]
        exact hstorable.named
    · rw [hqueue, List.length_drop]
      omega

variable (lib m) in
/-- A reception leaves stores that can be filed. -/
theorem Filed.receive {contactLimit messageLimit : Nat} (hfiled : n.Filed contactLimit messageLimit)
    (raw : Bytes) (rssi snrQ4 : Int) :
    (n.receive lib raw rssi snrQ4 m).Filed contactLimit messageLimit := by
  rw [Node.receive]
  split
  · exact ⟨hfiled.contacts, hfiled.channels, hfiled.inbox⟩
  next p air heq =>
    let heard : Node := { n with air }
    have hstores : StoresOne m heard (heard.onPacket lib m p) :=
      storesOne_onPacket hfiled.contacts.wellFormed.storable
    have hacts : Acts lib m p True heard (heard.onPacket lib m p) :=
      acts_onPacket heard p fun _ _ => trivial
    have hchannels : (heard.onPacket lib m p).channels = n.channels :=
      (receives_acts hacts).channels
    refine ⟨contactsKept_onPacket heard p contactLimit hfiled.contacts, ?_,
      fits_storesOne (n := heard) hfiled.inbox hstores⟩
    rw [hchannels]
    exact hfiled.channels

end Node

end Mesh

namespace Daemon

open Coreletd.Companion
open Coreletd.Mesh
open Coreletd.Proto

/-! ## Saves and loads -/

namespace StateStore

variable {σ : Type} {ν : Type} {P : StateStore σ} {initial s : σ} {fs : FileSystem}

/-- A flush leaves a store as it is, or clears its flag. -/
theorem flushed_cases (P : StateStore σ) (io : SaveIo) (s : σ) (fs : FileSystem) :
    (P.flushed io s fs).2.1 = s ∨ (P.flushed io s fs).2.1 = P.cleaned s := by
  rw [flushed]
  split
  · rw [P.save_eq]
    split
    · exact .inr rfl
    · exact .inl rfl
  · exact .inl rfl

/-- What a save writes of a store, a load shows again; and where there is no file, nothing
is loaded. -/
structure Rereads (P : StateStore σ) (initial : σ) (view : σ → ν) (s : σ) : Prop where
  written : ∀ fs : FileSystem, fs (P.path initial) = some (P.content s) →
    ∃ loaded, P.load none initial fs = (.loaded, loaded) ∧ view loaded = view s
  absent : ∀ fs : FileSystem, fs (P.path initial) = none →
    P.load none initial fs = (.missing, initial)

end StateStore

/-! ## What a file shows of the stores -/

/-- The contacts, as a file keeps them. -/
def filedContacts (s : ContactStore) : List Contact := s.contacts.map Contact.persisted

/-- The channels, as a file keeps them. -/
def filedChannels (s : ChannelStore) : List Channel := s.channels.map Channel.persisted

namespace App

variable {lib : Crypto.Library} {sign : Bytes → Bytes} {out : Surroundings} {app app' : App}
  {contactLimit messageLimit : Nat}

/-- The stores can still be filed. -/
def KeepsFiled (app app' : App) : Prop :=
  ∀ contactLimit messageLimit, app.node.Filed contactLimit messageLimit →
    app'.node.Filed contactLimit messageLimit

theorem KeepsFiled.of_eq (hcontacts : app'.node.contacts = app.node.contacts)
    (hchannels : app'.node.channels = app.node.channels)
    (hinbox : app'.node.inbox = app.node.inbox) : KeepsFiled app app' := by
  intro contactLimit messageLimit hfiled
  refine ⟨?_, ?_, ?_⟩
  · rw [hcontacts]
    exact hfiled.contacts
  · rw [hchannels]
    exact hfiled.channels
  · rw [hinbox]
    exact hfiled.inbox

theorem KeepsFiled.trans {app'' : App} (hfirst : KeepsFiled app app')
    (hsecond : KeepsFiled app' app'') : KeepsFiled app app'' :=
  fun contactLimit messageLimit hfiled =>
    hsecond contactLimit messageLimit (hfirst contactLimit messageLimit hfiled)

theorem KeepsFiled.ite {condition : Prop} [Decidable condition] {first second : List Bytes × App}
    (hfirst : KeepsFiled app first.2) (hsecond : KeepsFiled app second.2) :
    KeepsFiled app (if condition then first else second).2 := by
  split
  · exact hfirst
  · exact hsecond

theorem keepsFiled_push (app : App) (payload : Bytes) : KeepsFiled app (app.push payload) :=
  .of_eq rfl rfl (Session.push_inbox _ payload)

theorem keepsFiled_onNotice (app : App) (notice : Notice) :
    KeepsFiled app (app.onNotice notice) := by
  cases notice with
  | contactChanged pubkey isNew =>
      rw [onNotice]
      split
      · exact (app.keepsFiled_push _).trans (.of_eq rfl rfl rfl)
      · exact .of_eq rfl rfl rfl
  | messageStored => exact keepsFiled_push { app with log := .stored :: app.log } _
  | ack ackHash => exact app.keepsFiled_push _
  | advertSeen pubkey => exact app.keepsFiled_push _
  | pathUpdated pubkey => exact app.keepsFiled_push _

theorem keepsFiled_onNotices (app : App) (notices : List Notice) :
    KeepsFiled app (notices.foldl onNotice app) := by
  induction notices generalizing app with
  | nil => exact .of_eq rfl rfl rfl
  | cons notice notices ih => exact (app.keepsFiled_onNotice notice).trans (ih _)

theorem keepsFiled_received (app : App) (raw : Bytes) (rssi snrQ4 : Int) (m : Moment) :
    KeepsFiled app (app.received lib raw rssi snrQ4 m) := by
  have hheard : KeepsFiled app (app.onRawRx raw rssi snrQ4) := by
    rw [onRawRx]
    split
    · exact .of_eq rfl rfl rfl
    · exact app.keepsFiled_push _
  rw [received]
  refine hheard.trans ?_
  generalize app.onRawRx raw rssi snrQ4 = app
  have hnode : ∀ contactLimit messageLimit, app.node.Filed contactLimit messageLimit →
      (app.node.receive lib raw rssi snrQ4 { m with unixNow := app.wall.unixNow }).Filed
        contactLimit messageLimit := fun _ _ hfiled => hfiled.receive lib _ raw rssi snrQ4
  generalize app.node.receive lib raw rssi snrQ4 _ = node at hnode ⊢
  have hreceived : KeepsFiled app { app with node } := hnode
  exact hreceived.trans (keepsFiled_onNotices _ _)

/-! ## Commands -/

theorem keepsFiled_sendAdvert (app : App) (radio : RadioView) (flood : Bool) :
    KeepsFiled app (app.sendAdvert lib sign radio flood) := by
  rw [sendAdvert]
  split
  · exact .of_eq rfl rfl rfl
  · exact .of_eq rfl rfl rfl

theorem keepsFiled_editContacts (app : App) {result : Except CommandError ContactStore}
    (hresult : ∀ contacts limit, result = .ok contacts → app.node.contacts.Fits limit →
      contacts.Fits limit) : KeepsFiled app (app.editContacts result).2 := by
  cases result with
  | error err => exact .of_eq rfl rfl rfl
  | ok contacts =>
      intro contactLimit messageLimit hfiled
      exact ⟨hresult contacts contactLimit rfl hfiled.contacts, hfiled.channels, hfiled.inbox⟩

/-- What the store's own operations come to fits. -/
theorem fits_storeStep {s : ContactStore} {limit : Nat} (hfits : s.Fits limit) (op : StoreOp) :
    (storeStep .transparent s op).Fits limit :=
  ⟨wellFormed_storeStep .transparent hfits.wellFormed op,
    (sameConfig_storeStep .transparent s op).maxContacts.trans hfits.limit⟩

theorem keepsFiled_cmdAddUpdateContact (app : App) (args : Bytes) :
    KeepsFiled app (app.editContacts (cmdAddUpdateContact app.node.contacts args)).2 := by
  refine app.keepsFiled_editContacts fun contacts limit hok hfits => ?_
  have hstep := fits_storeStep hfits (.addUpdateContact args)
  rw [storeStep, hok] at hstep
  exact hstep

theorem keepsFiled_cmdRemoveContact (app : App) (args : Bytes) :
    KeepsFiled app (app.editContacts (cmdRemoveContact app.node.contacts args)).2 := by
  refine app.keepsFiled_editContacts fun contacts limit hok hfits => ?_
  rw [cmdRemoveContact] at hok
  dsimp only at hok
  split at hok
  · cases hok
  · split at hok
    · cases hok
    next removed hremove =>
      obtain rfl := Except.ok.inj hok
      have hstep := fits_storeStep hfits (.remove ((Reader.ofBytes args).take kPubKeySize).1)
      rw [storeStep, hremove] at hstep
      exact hstep

theorem keepsFiled_cmdResetPath (app : App) (args : Bytes) :
    KeepsFiled app (app.editContacts (cmdResetPath app.node.contacts args)).2 := by
  refine app.keepsFiled_editContacts fun contacts limit hok hfits => ?_
  rw [cmdResetPath] at hok
  dsimp only at hok
  split at hok
  · cases hok
  · split at hok
    · cases hok
    · obtain rfl := Except.ok.inj hok
      exact fits_storeStep hfits (.clearPath _)

theorem keepsFiled_cmdSetChannel (app : App) (args : Bytes) :
    KeepsFiled app (app.cmdSetChannel args).2 := by
  rw [cmdSetChannel]
  split
  · exact .of_eq rfl rfl rfl
  next index ch _ =>
    intro contactLimit messageLimit hfiled
    have height : Eight app.node.channels.path app.node.channels := ⟨hfiled.channels, rfl⟩
    exact ⟨hfiled.contacts, (eight_set height index ch).slots, hfiled.inbox⟩

theorem keepsFiled_changeSettings (app : App) (requested : Requested) :
    KeepsFiled app (app.changeSettings out requested).2 := by
  cases requested with
  | none => exact .of_eq rfl rfl rfl
  | some changes =>
      rw [changeSettings]
      rcases app.attached.set_cases out.io out.toApplying app.node.files changes with
        ⟨-, hset⟩ | ⟨next, stored, -, ⟨files, hsaved, hset⟩ | ⟨files, hsaved, hset⟩⟩
      all_goals
        rw [hset]
        exact .of_eq rfl rfl rfl

theorem keepsFiled_cmdSendTxtMsg (app : App) (args : Bytes) :
    KeepsFiled app (app.cmdSendTxtMsg lib out args).2 := by
  rw [cmdSendTxtMsg]
  dsimp only
  rw [TextSession.cmdSendTxtMsg]
  split
  · exact .of_eq rfl rfl rfl
  · dsimp only
    split
    · exact .of_eq rfl rfl rfl
    · split
      · exact .of_eq rfl rfl rfl
      · exact .of_eq rfl rfl rfl

theorem keepsFiled_cmdSendChannelTxtMsg (app : App) (args : Bytes) :
    KeepsFiled app (app.cmdSendChannelTxtMsg lib out args).2 := by
  have hsent : ∀ index text timestamp,
      KeepsFiled app (app.sendChannelText lib out.view index text timestamp).2 := by
    intro index text timestamp
    rw [sendChannelText]
    split
    · exact .of_eq rfl rfl rfl
    · split
      · exact .of_eq rfl rfl rfl
      · exact .of_eq rfl rfl rfl
  rw [cmdSendChannelTxtMsg]
  dsimp only
  split
  · exact .of_eq rfl rfl rfl
  · generalize hsend : app.sendChannelText lib out.view _ _ _ = sent
    have hkept : KeepsFiled app sent.2 := hsend ▸ hsent _ _ _
    rcases sent with ⟨_ | _, app'⟩
    · exact hkept
    · exact hkept

theorem keepsFiled_cmdSetDeviceTime (app : App) (args : Bytes) :
    KeepsFiled app (app.cmdSetDeviceTime args).2 := by
  rw [cmdSetDeviceTime]
  dsimp only
  split
  · exact .of_eq rfl rfl rfl
  · exact .of_eq rfl rfl rfl

theorem keepsFiled_command (app : App) (cmd : UInt8) (args : Bytes) :
    KeepsFiled app (app.command lib sign out cmd args).2 := by
  have hsame : KeepsFiled app app := .of_eq rfl rfl rfl
  have hintroduce : KeepsFiled app app.introduce := by
    rw [introduce]
    split
    · exact hsame
    · exact .of_eq rfl rfl rfl
  have hcollected : KeepsFiled app app.noteCollected := by
    rw [noteCollected]
    split
    · exact hsame
    · exact .of_eq rfl rfl rfl
  rw [command]
  refine .ite hintroduce ?_
  refine .ite hsame ?_
  refine .ite hsame ?_
  refine .ite (app.keepsFiled_cmdSetDeviceTime args) ?_
  refine .ite (app.keepsFiled_sendAdvert _ _) ?_
  refine .ite (app.keepsFiled_changeSettings _) ?_
  refine .ite (app.keepsFiled_changeSettings _) ?_
  refine .ite hsame ?_
  refine .ite hsame ?_
  refine .ite (app.keepsFiled_cmdAddUpdateContact args) ?_
  refine .ite (app.keepsFiled_cmdRemoveContact args) ?_
  refine .ite (app.keepsFiled_cmdResetPath args) ?_
  refine .ite hsame ?_
  refine .ite (app.keepsFiled_cmdSendTxtMsg args) ?_
  refine .ite (app.keepsFiled_cmdSendChannelTxtMsg args) ?_
  refine .ite hcollected ?_
  refine .ite hsame ?_
  refine .ite (app.keepsFiled_cmdSetChannel args) ?_
  refine .ite hsame ?_
  refine .ite (app.keepsFiled_changeSettings _) ?_
  refine .ite (app.keepsFiled_changeSettings _) ?_
  refine .ite (app.keepsFiled_changeSettings _) ?_
  exact .ite hsame hsame

theorem fits_pop {limit : Nat} {q : MessageInbox} (hfits : q.Fits limit) : q.pop.2.Fits limit := by
  rw [MessageInbox.pop]
  split
  · exact hfits
  next msg messages hqueue =>
    have hbounded := hfits.bounded
    rw [hqueue, List.length_cons] at hbounded
    refine ⟨fun m hmem => hfits.named m ?_, Nat.le_of_succ_le hbounded, hfits.limit⟩
    rw [hqueue]
    exact List.mem_cons_of_mem _ hmem

theorem keepsFiled_frame (app : App) (answers : List (List Bytes)) :
    KeepsFiled app (app.serve .frame answers) := by
  intro contactLimit messageLimit hfiled
  refine ⟨hfiled.contacts, hfiled.channels, ?_⟩
  show ((app.session answers).dispatchOne.2).inbox.Fits messageLimit
  by_cases hsync : ∃ args, (app.session answers).nextFrame = some (kCmdSyncNextMessage :: args)
  · obtain ⟨args, hframe⟩ := hsync
    obtain ⟨-, -, hpopped, -⟩ := Session.dispatchOne_sync hframe
    rw [hpopped]
    exact fits_pop hfiled.inbox
  · rw [Session.dispatchOne_inbox fun args hframe => hsync ⟨args, hframe⟩]
    exact hfiled.inbox

theorem keepsFiled_dispatchOne (app : App) : KeepsFiled app (app.dispatchOne lib sign out) := by
  rw [dispatchOne]
  split
  next cmd args _ => exact (app.keepsFiled_command cmd args).trans (keepsFiled_frame _ _)
  next => exact keepsFiled_frame _ _

/-! ## Steps -/

theorem keepsFiled_flush (app : App) (io : FlushIo) (w : StateWriter) :
    KeepsFiled app (app.written (w.flush io app.node).2) := by
  intro contactLimit messageLimit hfiled
  rw [flush_eq]
  dsimp only
  refine ⟨?_, ?_, ?_⟩
  · show ContactStore.Fits _ (contactStates.flushed _ _ _).2.1
    rcases contactStates.flushed_cases io.contacts app.node.contacts app.node.files with hs | hs
    · rw [hs]
      exact hfiled.contacts
    · rw [hs]
      have hwell := hfiled.contacts.wellFormed
      exact ⟨⟨hwell.storable, hwell.distinct, hwell.bounded⟩, hfiled.contacts.limit⟩
  · show (channelStates.flushed _ _ _).2.1.channels.length = _
    rcases channelStates.flushed_cases io.channels app.node.channels _ with hs | hs
    · rw [hs]
      exact hfiled.channels
    · rw [hs]
      exact hfiled.channels
  · show MessageInbox.Fits _ (inboxStates.flushed _ _ _).2.1
    rcases inboxStates.flushed_cases io.inbox app.node.inbox _ with hs | hs
    · rw [hs]
      exact hfiled.inbox
    · rw [hs]
      exact ⟨hfiled.inbox.named, hfiled.inbox.bounded, hfiled.inbox.limit⟩

theorem keepsFiled_step (app : App) (event : Event) :
    KeepsFiled app (app.step lib sign event) := by
  have hserve : ∀ (app : App) (event : Session.Event),
      ((app.session []).step event).inbox = app.node.inbox → KeepsFiled app (app.serve event []) :=
    fun _ _ hinbox => .of_eq rfl rfl hinbox
  cases event with
  | accept nonblocking => exact hserve app (.accept nonblocking) rfl
  | feed bytes =>
      rw [step]
      split
      · exact hserve app (.feed bytes) rfl
      · exact .of_eq rfl rfl rfl
  | frame out => exact app.keepsFiled_dispatchOne
  | writable => exact hserve app .writable rfl
  | hangUp => exact hserve app .hangUp rfl
  | kernel results => exact hserve app (.outside results []) rfl
  | received raw rssi snrQ4 m => exact app.keepsFiled_received raw rssi snrQ4 m
  | advertTimer radio => exact app.keepsFiled_sendAdvert radio true
  | saveTimer io =>
      rw [step, StateWriter.onSaveTimer]
      split
      · exact app.keepsFiled_flush io _
      · exact .of_eq rfl rfl rfl
  | sweep io => exact app.keepsFiled_flush io app.writer
  | requestStop io =>
      exact (app.keepsFiled_flush io app.writer).trans (hserve (app.flush io).2 .hangUp rfl)
  | _ => exact .of_eq rfl rfl rfl

/-! ## Startup -/

end App

end Daemon

end Coreletd
