/-
# Acknowledged mail

A run of the queue with its file: stores, pops, flushes of the state writer, and
restarts, with or without a loss of power, between calls or in the middle of a
save. Any call of a save may fail.

Entries of the queue are numbered by the store that brought them, and a file's
content carries the entries it was written from; no decision reads either. The
mailbox owes an entry from the store that returned true until it is popped or
evicted. The invariant is that every version of the file that a restart may meet
has all that is owed.
-/

import Coreletd.Mesh.InboxFile
import Coreletd.Util.Durability

namespace Coreletd.Mesh

open Coreletd.Library

/-- A queued message, and the number of the store that brought it. -/
structure Entry where
  id : Nat
  msg : StoredMessage
  deriving DecidableEq

/-- A file's content, and the entries it was written from. -/
structure Page where
  bytes : Bytes
  entries : List Entry := []

def Page.ofEntries (entries : List Entry) : Page :=
  { bytes := MessageInbox.written (entries.map Entry.msg), entries }

/-- The calls of `MessageInbox.save` for a queue of these entries. -/
def saveCalls (io : SaveIo) (path : Bytes) (entries : List Entry) : List (DiskOp Bytes Page) :=
  saveOps io path (Page.ofEntries entries)
    { bytes := (Page.ofEntries entries).bytes.take io.written } true

structure Mailbox where
  inbox : MessageInbox
  disk : Disk Bytes Page
  /-- The entries of the queue. -/
  queue : List Entry := []
  nextId : Nat := 0
  /-- What was stored with success and has since been neither popped nor evicted. -/
  owed : List Entry := []

namespace Mailbox

/-- What the daemon finds on the disk. -/
def files (m : Mailbox) : FileSystem := fileSystemOf Page.bytes m.disk

/-- What is still owed once these are gone. -/
def spare (gone owed : List Entry) : List Entry := owed.filter (· ∉ gone)

/-- The entry of the next message. -/
def arriving (m : Mailbox) (msg : StoredMessage) : Entry := { id := m.nextId, msg }

/-- The queue with one more message, before the limit is looked at. -/
def extended (m : Mailbox) (msg : StoredMessage) : List Entry := m.queue ++ [m.arriving msg]

/-- How many of some entries are over the limit. -/
def excess (m : Mailbox) (entries : List Entry) : Nat := entries.length - m.inbox.limit

def store (m : Mailbox) (msg : StoredMessage) (io : SaveIo) : Mailbox :=
  let all := m.extended msg
  let (ok, inbox, _) := m.inbox.store io m.files msg
  let queue := all.drop (m.excess all)
  { inbox
    disk := run Disk.apply m.disk (saveCalls io m.inbox.path queue)
    queue
    nextId := m.nextId + 1
    owed := spare (all.take (m.excess all)) (if ok then m.owed ++ [m.arriving msg] else m.owed) }

def pop (m : Mailbox) : Mailbox :=
  { m with
    inbox := m.inbox.pop.2
    queue := m.queue.drop 1
    owed := spare (m.queue.take 1) m.owed }

/-- `StateWriter::flush`, of which only the queue matters here. -/
def flush (m : Mailbox) (io : SaveIo) : Mailbox :=
  if m.inbox.dirty then
    { m with
      inbox := (m.inbox.save io m.files).2.1
      disk := run Disk.apply m.disk (saveCalls io m.inbox.path m.queue) }
  else m

/-- What the daemon was at when it ended, and how many calls of it were made. -/
inductive Interrupted where
  | idle
  | storing (msg : StoredMessage) (io : SaveIo) (calls : Nat)
  | flushing (io : SaveIo) (calls : Nat)

/-- The disk it leaves, and what it owed. -/
def interrupted (m : Mailbox) : Interrupted → Mailbox
  | .idle => m
  | .storing msg io calls =>
      let all := m.extended msg
      let queue := all.drop (m.excess all)
      { m with
        disk := run Disk.apply m.disk ((saveCalls io m.inbox.path queue).take calls)
        nextId := m.nextId + 1
        owed := spare (all.take (m.excess all)) m.owed }
  | .flushing io calls =>
      if m.inbox.dirty then
        { m with
          disk := run Disk.apply m.disk ((saveCalls io m.inbox.path m.queue).take calls) }
      else m

/-- The entries of the file that the daemon finds. -/
def found (m : Mailbox) : List Entry := ((m.disk.live m.inbox.path).map Page.entries).getD []

/-- The queue before it is loaded. -/
def unloaded (m : Mailbox) (limit : Nat) : MessageInbox := { path := m.inbox.path, limit }

/-- A new daemon loads the queue. -/
def boot (m : Mailbox) (limit : Nat) : Mailbox :=
  { m with
    inbox := ((m.unloaded limit).load m.files).2
    queue := m.found.drop (m.found.length - limit)
    owed := spare (m.found.take (m.found.length - limit)) m.owed }

inductive Event where
  | store (msg : StoredMessage) (io : SaveIo)
  | pop
  | flush (io : SaveIo)
  /-- The daemon ends and is started again, perhaps with another limit. -/
  | restart (during : Interrupted) (limit : Nat)
  /-- The same, with what the loss of power left on the disk. -/
  | powerLoss (during : Interrupted) (left : Bytes → Option Page) (limit : Nat)

def step (m : Mailbox) : Event → Mailbox
  | .store msg io => m.store msg io
  | .pop => m.pop
  | .flush io => m.flush io
  | .restart during limit => (m.interrupted during).boot limit
  | .powerLoss during left limit =>
      { m.interrupted during with disk := .ofFound left }.boot limit

/-! ## The invariant -/

/-- The entries are in the order they were stored in, by stores before `next`. -/
def InOrder (next : Nat) (entries : List Entry) : Prop :=
  entries.Pairwise (·.id < ·.id) ∧ ∀ entry ∈ entries, entry.id < next

/-- Entries a queue may have. -/
structure Genuine (next : Nat) (entries : List Entry) : Prop where
  storable : ∀ entry ∈ entries, entry.msg.Storable
  inOrder : InOrder next entries

/-- A version of the file from which all that is owed comes back. -/
def Version (next : Nat) (owed : List Entry) : Option Page → Prop
  | none => owed = []
  | some page =>
      page = .ofEntries page.entries ∧ Genuine next page.entries ∧ owed.Sublist page.entries

/-- Whatever a restart meets has all that is owed. -/
structure Recoverable (m : Mailbox) : Prop where
  path : m.inbox.path ≠ []
  disk : m.disk.Keeps m.inbox.path (Version m.nextId m.owed)

structure Sound (m : Mailbox) : Prop extends Recoverable m where
  messages : m.inbox.messages = m.queue.map Entry.msg
  genuine : Genuine m.nextId m.queue
  bounded : m.queue.length ≤ m.inbox.limit
  owed : m.owed.Sublist m.queue

theorem spare_sublist (gone owed : List Entry) : (spare gone owed).Sublist owed :=
  List.filter_sublist

/-- What is owed and not gone is in what is left. -/
theorem spare_take_sublist {owed all : List Entry} (howed : owed.Sublist all) (count : Nat) :
    (spare (all.take count) owed).Sublist (all.drop count) := by
  have hgone : (all.take count).filter (· ∉ all.take count) = [] := by
    simp
  have hall : all.filter (· ∉ all.take count) = (all.drop count).filter (· ∉ all.take count) := by
    conv_lhs => rw [← List.take_append_drop count all]
    rw [List.filter_append, List.take_append_drop, hgone, List.nil_append]
  have hspared : (spare (all.take count) owed).Sublist (all.filter (· ∉ all.take count)) :=
    howed.filter _
  rw [hall] at hspared
  exact hspared.trans List.filter_sublist

theorem InOrder.sublist {next : Nat} {entries fewer : List Entry} (hinOrder : InOrder next entries)
    (hfewer : fewer.Sublist entries) : InOrder next fewer :=
  ⟨hinOrder.1.sublist hfewer, fun entry hentry => hinOrder.2 entry (hfewer.subset hentry)⟩

theorem Genuine.sublist {next : Nat} {entries fewer : List Entry} (hgenuine : Genuine next entries)
    (hfewer : fewer.Sublist entries) : Genuine next fewer where
  storable entry hentry := hgenuine.storable entry (hfewer.subset hentry)
  inOrder := hgenuine.inOrder.sublist hfewer

theorem Genuine.mono {next later : Nat} {entries : List Entry} (hgenuine : Genuine next entries)
    (hlater : next ≤ later) : Genuine later entries where
  storable := hgenuine.storable
  inOrder := ⟨hgenuine.inOrder.1, fun entry hentry =>
    Nat.lt_of_lt_of_le (hgenuine.inOrder.2 entry hentry) hlater⟩

theorem Genuine.append {next : Nat} {entries : List Entry} {msg : StoredMessage}
    (hgenuine : Genuine next entries) (hmsg : msg.Storable) :
    Genuine (next + 1) (entries ++ [⟨next, msg⟩]) where
  storable entry hentry := by
    rcases List.mem_append.mp hentry with hentry | hentry
    · exact hgenuine.storable entry hentry
    · obtain rfl := List.mem_singleton.mp hentry
      exact hmsg
  inOrder := by
    refine ⟨List.pairwise_append.mpr ⟨hgenuine.inOrder.1, List.pairwise_singleton _ _, ?_⟩, ?_⟩
    · intro entry hentry other hother
      obtain rfl := List.mem_singleton.mp hother
      exact hgenuine.inOrder.2 entry hentry
    · intro entry hentry
      rcases List.mem_append.mp hentry with hentry | hentry
      · exact Nat.lt_succ_of_lt (hgenuine.inOrder.2 entry hentry)
      · obtain rfl := List.mem_singleton.mp hentry
        exact Nat.lt_succ_self _

theorem Version.mono {next later : Nat} {owed fewer : List Entry} (hfewer : fewer.Sublist owed)
    (hlater : next ≤ later) {content : Option Page} (hversion : Version next owed content) :
    Version later fewer content := by
  cases content with
  | none =>
      obtain rfl : owed = [] := hversion
      exact List.sublist_nil.mp hfewer
  | some page =>
      obtain ⟨hpage, hgenuine, howed⟩ := hversion
      exact ⟨hpage, hgenuine.mono hlater, hfewer.trans howed⟩

theorem version_ofEntries {next : Nat} {owed entries : List Entry}
    (hgenuine : Genuine next entries) (howed : owed.Sublist entries) :
    Version next owed (some (.ofEntries entries)) :=
  ⟨rfl, hgenuine, howed⟩

/-! ## Saves -/

/-- A save that is cut off anywhere leaves a version that will do, if the new one
does. -/
theorem keeps_saveCalls {disk : Disk Bytes Page} {path : Bytes} {next : Nat}
    {owed entries : List Entry} (hkeeps : disk.Keeps path (Version next owed))
    (hgenuine : Genuine next entries) (howed : owed.Sublist entries) (io : SaveIo) (calls : Nat) :
    (run Disk.apply disk ((saveCalls io path entries).take calls)).Keeps path
      (Version next owed) :=
  hkeeps.run (version_ofEntries hgenuine howed) ((saveOps_replaces _ _ _ _ _ _).take calls)

/-- So does a save that returns, whatever it returns; and when it reports success,
more may be owed. -/
theorem keeps_saveCalls_result {disk : Disk Bytes Page} {path bytes : Bytes} {next : Nat}
    {fs : FileSystem} {owed more entries : List Entry} {io : SaveIo} {ok : Bool}
    (hkeeps : disk.Keeps path (Version next owed)) (hgenuine : Genuine next entries)
    (howed : owed.Sublist entries) (hmore : more.Sublist entries)
    (hok : ok = true → (saveContent io fs path bytes true).1 = true) :
    (run Disk.apply disk (saveCalls io path entries)).Keeps path
      (Version next (if ok then more else owed)) := by
  cases ok with
  | false =>
      have hcut := keeps_saveCalls hkeeps hgenuine howed io (saveCalls io path entries).length
      rwa [List.take_length] at hcut
  | true =>
      refine (saveOps_installs disk (hok rfl)).mono fun content hcontent => ?_
      rw [hcontent]
      exact version_ofEntries hgenuine hmore

/-- The calls leave for a reader what `MessageInbox.save` does. -/
theorem files_saveCalls (m : Mailbox) (io : SaveIo) {q : MessageInbox} {entries : List Entry}
    (hmessages : q.messages = entries.map Entry.msg) :
    fileSystemOf Page.bytes (run Disk.apply m.disk (saveCalls io q.path entries)) =
      (q.save io m.files).2.2 := by
  have hcontent : q.fileContent = (Page.ofEntries entries).bytes := by
    rw [MessageInbox.fileContent_eq_written, hmessages]
    rfl
  rw [MessageInbox.save_eq, hcontent]
  exact fileSystemOf_saveOps Page.bytes m.disk io q.path true rfl

theorem extended_map {m : Mailbox} (hsound : m.Sound) (msg : StoredMessage) :
    (m.extended msg).map Entry.msg = m.inbox.messages ++ [msg] := by
  simp [extended, arriving, hsound.messages]

/-- The queue of the inbox after a store. -/
theorem store_queue_map {m : Mailbox} (hsound : m.Sound) (msg : StoredMessage) (io : SaveIo) :
    (m.store msg io).queue.map Entry.msg = (m.inbox.store io m.files msg).2.1.messages := by
  rw [MessageInbox.store_messages, ← extended_map hsound msg, ← List.map_drop, List.length_map]
  rfl

/-- Before a store makes its first call: what it evicts is no longer owed, and what is
still owed is in the queue that it saves. -/
theorem before_store {m : Mailbox} (hsound : m.Sound) {msg : StoredMessage}
    (hmsg : msg.Storable) :
    let all := m.extended msg
    let owed := spare (all.take (m.excess all)) m.owed
    Genuine (m.nextId + 1) (all.drop (m.excess all)) ∧ owed.Sublist (all.drop (m.excess all)) ∧
      m.disk.Keeps m.inbox.path (Version (m.nextId + 1) owed) := by
  have hgenuine : Genuine (m.nextId + 1) (m.extended msg) := hsound.genuine.append hmsg
  have howed : m.owed.Sublist (m.extended msg) := hsound.owed.trans (List.sublist_append_left _ _)
  exact ⟨hgenuine.sublist (List.drop_sublist _ _), spare_take_sublist howed _,
    hsound.disk.mono fun _ => Version.mono (spare_sublist _ _) (Nat.le_succ m.nextId)⟩

/-- The disk after a store is the one the inbox's own store leaves. -/
theorem files_store {m : Mailbox} (hsound : m.Sound) (msg : StoredMessage) (io : SaveIo) :
    (m.store msg io).files = (m.inbox.store io m.files msg).2.2 := by
  obtain ⟨q, hstore, hqpath, -, hqmessages⟩ :=
    MessageInbox.store_eq_save hsound.path io m.files msg
  have hqueue : q.messages = (m.store msg io).queue.map Entry.msg := by
    rw [store_queue_map hsound, MessageInbox.store_messages, hqmessages]
  rw [hstore, ← files_saveCalls m io hqueue, hqpath]
  rfl

theorem sound_store {m : Mailbox} (hsound : m.Sound) {msg : StoredMessage} (hmsg : msg.Storable)
    (io : SaveIo) : (m.store msg io).Sound := by
  obtain ⟨q, hstore, hqpath, hqlimit, -⟩ :=
    MessageInbox.store_eq_save hsound.path io m.files msg
  have hinbox : (m.store msg io).inbox = (q.save io m.files).2.1 :=
    congrArg (fun result => result.2.1) hstore
  have hpath : (m.store msg io).inbox.path = m.inbox.path := by
    rw [hinbox, MessageInbox.save_eq, hqpath]
  obtain ⟨hgenuine, howed, hbefore⟩ := before_store hsound hmsg
  have hmore : (m.owed ++ [m.arriving msg]).Sublist (m.extended msg) :=
    hsound.owed.append (List.Sublist.refl _)
  have hok : (m.inbox.store io m.files msg).1 = true →
      (saveContent io m.files m.inbox.path q.fileContent true).1 = true := by
    rw [hstore, MessageInbox.save_eq, hqpath]
    exact id
  have hafter := keeps_saveCalls_result hbefore hgenuine howed (spare_take_sublist hmore _) hok
  exact {
    path := by rw [hpath]; exact hsound.path
    disk := by
      rw [hpath]
      simp only [store, apply_ite (spare _)]
      exact hafter
    messages := (store_queue_map hsound msg io).symm
    genuine := hgenuine
    bounded := by
      rw [hinbox, MessageInbox.save_eq]
      simp only [store, hqlimit, List.length_drop, excess]
      omega
    owed := by
      simp only [store]
      split
      · exact spare_take_sublist hmore _
      · exact howed }

theorem sound_pop {m : Mailbox} (hsound : m.Sound) : m.pop.Sound := by
  have hinbox : m.pop.inbox.path = m.inbox.path ∧ m.pop.inbox.limit = m.inbox.limit ∧
      m.pop.inbox.messages = m.inbox.messages.drop 1 := by
    simp only [pop, MessageInbox.pop]
    split
    next hempty => exact ⟨rfl, rfl, by rw [hempty]; rfl⟩
    next hcons => exact ⟨rfl, rfl, by rw [hcons]; rfl⟩
  obtain ⟨hpath, hlimit, hmessages⟩ := hinbox
  exact {
    path := by rw [hpath]; exact hsound.path
    disk := by
      rw [hpath]
      exact hsound.disk.mono fun _ => Version.mono (spare_sublist _ _) (Nat.le_refl _)
    messages := by
      rw [hmessages, hsound.messages, ← List.map_drop]
      rfl
    genuine := hsound.genuine.sublist (List.drop_sublist _ _)
    bounded := by
      rw [hlimit]
      exact (List.drop_sublist _ _).length_le.trans hsound.bounded
    owed := spare_take_sublist hsound.owed 1 }

theorem sound_flush {m : Mailbox} (hsound : m.Sound) (io : SaveIo) : (m.flush io).Sound := by
  rw [flush]
  split
  · have hcalls := keeps_saveCalls hsound.disk hsound.genuine hsound.owed io
      (saveCalls io m.inbox.path m.queue).length
    rw [List.take_length] at hcalls
    simp only [MessageInbox.save_eq]
    exact {
      path := hsound.path
      disk := hcalls
      messages := hsound.messages
      genuine := hsound.genuine
      bounded := hsound.bounded
      owed := hsound.owed }
  · exact hsound

/-- The same for the state writer's. -/
theorem files_flush {m : Mailbox} (hsound : m.Sound) (hdirty : m.inbox.dirty = true)
    (io : SaveIo) : (m.flush io).files = (m.inbox.save io m.files).2.2 := by
  rw [flush, if_pos hdirty]
  exact files_saveCalls m io hsound.messages

/-! ## Restarts -/

theorem recoverable_interrupted {m : Mailbox} (hsound : m.Sound) (during : Interrupted)
    (hmsg : ∀ msg io calls, during = .storing msg io calls → msg.Storable) :
    (m.interrupted during).Recoverable := by
  cases during with
  | idle => exact hsound.toRecoverable
  | storing msg io calls =>
      obtain ⟨hgenuine, howed, hbefore⟩ := before_store hsound (hmsg msg io calls rfl)
      exact {
        path := hsound.path
        disk := keeps_saveCalls hbefore hgenuine howed io calls }
  | flushing io calls =>
      rw [interrupted]
      split
      · exact {
          path := hsound.path
          disk := keeps_saveCalls hsound.disk hsound.genuine hsound.owed io calls }
      · exact hsound.toRecoverable

/-- The loader takes a version that will do. -/
theorem load_version {next : Nat} {owed : List Entry} {q : MessageInbox} {fs : FileSystem}
    {page : Page} (hpath : q.path ≠ []) (hfile : fs q.path = some page.bytes)
    (hversion : Version next owed (some page)) :
    q.load fs = (.loaded, { q with
      messages := (page.entries.drop (page.entries.length - q.limit)).map Entry.msg
      dropped := q.dropped + UInt32.ofNat (page.entries.length - q.limit)
      dirty := false }) := by
  obtain ⟨hpage, hgenuine, -⟩ := hversion
  have hbytes : page.bytes = MessageInbox.written (page.entries.map Entry.msg) := by
    conv_lhs => rw [hpage]
    rfl
  have hstorable : ∀ msg ∈ page.entries.map Entry.msg, msg.Storable :=
    List.forall_mem_map.mpr hgenuine.storable
  rw [MessageInbox.load_written hpath (hfile.trans (congrArg some hbytes)) hstorable,
    List.length_map, List.map_drop]

/-- What a new daemon makes of a version that will do. -/
theorem sound_boot {m : Mailbox} (hrecoverable : m.Recoverable) (limit : Nat) :
    (m.boot limit).Sound := by
  have hversion := hrecoverable.disk.live
  have hpath : (m.unloaded limit).path ≠ [] := hrecoverable.path
  have howed : m.owed.Sublist m.found ∧ Genuine m.nextId m.found := by
    rw [found]
    cases hlive : m.disk.live m.inbox.path with
    | none =>
        rw [hlive] at hversion
        have hnone : m.owed = [] := hversion
        rw [hnone]
        exact ⟨List.Sublist.refl _, ⟨by simp, ⟨List.Pairwise.nil, by simp⟩⟩⟩
    | some page =>
        rw [hlive] at hversion
        exact ⟨hversion.2.2, hversion.2.1⟩
  have hinbox : (m.boot limit).inbox.path = m.inbox.path ∧ (m.boot limit).inbox.limit = limit ∧
      (m.boot limit).inbox.messages =
        (m.found.drop (m.found.length - limit)).map Entry.msg := by
    cases hlive : m.disk.live m.inbox.path with
    | none =>
        have hfile : m.files (m.unloaded limit).path = none := by
          simp [files, fileSystemOf, unloaded, hlive]
        have hinbox : (m.boot limit).inbox = m.unloaded limit :=
          congrArg Prod.snd (MessageInbox.load_missing hfile)
        rw [hinbox, found, hlive]
        exact ⟨rfl, rfl, by simp [unloaded]⟩
    | some page =>
        have hfile : m.files (m.unloaded limit).path = some page.bytes := by
          simp [files, fileSystemOf, unloaded, hlive]
        rw [hlive] at hversion
        have hinbox := congrArg Prod.snd (load_version hpath hfile hversion)
        simp only [boot]
        rw [hinbox, found, hlive]
        exact ⟨rfl, rfl, rfl⟩
  obtain ⟨hbootPath, hbootLimit, hbootMessages⟩ := hinbox
  exact {
    path := by rw [hbootPath]; exact hrecoverable.path
    disk := by
      rw [hbootPath]
      exact hrecoverable.disk.mono fun _ => Version.mono (spare_sublist _ _) (Nat.le_refl _)
    messages := hbootMessages
    genuine := howed.2.sublist (List.drop_sublist _ _)
    bounded := by
      rw [hbootLimit]
      simp only [boot, List.length_drop]
      omega
    owed := spare_take_sublist howed.1 _ }

/-! ## Runs -/

/-- The node stores storable messages, and a loss of power leaves what it may. -/
def Admissible (m : Mailbox) : Event → Prop
  | .store msg _ => msg.Storable
  | .pop => True
  | .flush _ => True
  | .restart during _ => ∀ msg io calls, during = .storing msg io calls → msg.Storable
  | .powerLoss during left _ =>
      (∀ msg io calls, during = .storing msg io calls → msg.Storable) ∧
        (m.interrupted during).disk.Leaves left

theorem sound_step {m : Mailbox} {event : Event} (hsound : m.Sound)
    (hadmissible : Admissible m event) : (m.step event).Sound := by
  cases event with
  | store msg io => exact sound_store hsound hadmissible io
  | pop => exact sound_pop hsound
  | flush io => exact sound_flush hsound io
  | restart during limit =>
      exact sound_boot (recoverable_interrupted hsound during hadmissible) limit
  | powerLoss during left limit =>
      have hbefore := recoverable_interrupted hsound during hadmissible.1
      have hafter : ({ m.interrupted during with disk := .ofFound left } : Mailbox).Recoverable := {
        path := hbefore.path
        disk := .ofFound (hbefore.disk.found hadmissible.2) }
      exact sound_boot hafter limit

def messagesPath (stateDir : Bytes) : Bytes := stateDir ++ Text.ascii "/messages"

/-- A daemon that has never saved a queue; the other files are whatever they are. -/
def start (stateDir : Bytes) (limit : Nat) (others : Bytes → Option Page) : Mailbox where
  inbox := { path := messagesPath stateDir, limit }
  disk := .ofFound fun name => if name = messagesPath stateDir then none else others name

theorem sound_start (stateDir : Bytes) (limit : Nat) (others : Bytes → Option Page) :
    (start stateDir limit others).Sound where
  path := by simp [start, messagesPath, Text.ascii]
  disk := .ofFound (by simp [start, Version])
  messages := rfl
  genuine := ⟨by simp [start], ⟨List.Pairwise.nil, by simp [start]⟩⟩
  bounded := Nat.zero_le _
  owed := List.Sublist.refl _

/-- What is promised of every state. -/
structure KeepsMail (m : Mailbox) : Prop where
  /-- The queue has its entries' messages as they were stored, -/
  messages : m.inbox.messages = m.queue.map Entry.msg
  /-- in the order they were stored in, -/
  inOrder : m.queue.Pairwise (·.id < ·.id)
  /-- with all that is owed among them, -/
  owed : m.owed.Sublist m.queue
  bounded : m.inbox.messages.length ≤ m.inbox.limit
  /-- and the file loads, as it is and as a loss of power may leave it. -/
  loads : ∀ left page limit, m.disk.Leaves left → left m.inbox.path = some page →
    ((m.unloaded limit).load fun name => (left name).map Page.bytes).1 = .loaded

theorem Sound.keepsMail {m : Mailbox} (hsound : m.Sound) : m.KeepsMail where
  messages := hsound.messages
  inOrder := hsound.genuine.inOrder.1
  owed := hsound.owed
  bounded := by
    rw [hsound.messages, List.length_map]
    exact hsound.bounded
  loads left page limit hleaves hpage := by
    have hversion := hsound.disk.found hleaves
    rw [hpage] at hversion
    have hpath : (m.unloaded limit).path ≠ [] := hsound.path
    have hfile : (left (m.unloaded limit).path).map Page.bytes = some page.bytes := by
      rw [unloaded, hpage]
      rfl
    exact congrArg Prod.fst (load_version hpath hfile hversion)

/-- Through any stores, pops, flushes, restarts and losses of power, with any failures
and cut off anywhere, acknowledged mail stays in the queue until it is popped or
evicted. -/
theorem acknowledged_mail_survives (stateDir : Bytes) (limit : Nat)
    (others : Bytes → Option Page) (events : List Event)
    (hrun : Along step Admissible (start stateDir limit others) events) :
    (run step (start stateDir limit others) events).KeepsMail := by
  have hsound : (run step (start stateDir limit others) events).Sound :=
    Along.invariant (fun _ _ hbefore hadmissible => sound_step hbefore hadmissible)
      (sound_start stateDir limit others) hrun
  exact hsound.keepsMail

/-- A message that is acknowledged, -/
def first : StoredMessage := { senderPubkey := List.replicate 32 7, text := [9, 10, 35] }

/-- and one whose save the power fails in, -/
def second : StoredMessage := { isChannel := true, channelIndex := 3, text := [0] }

def acknowledged : Mailbox := (start [] 256 fun _ => none).step (.store first {})

/-- behind the rename: it is there and was never acknowledged. -/
def cutOff : Interrupted := .storing second {} 5

def powerFails : Event := .powerLoss cutOff (acknowledged.interrupted cutOff).disk.live 256

theorem acknowledged_mail_survives_power_failure :
    (acknowledged.step powerFails).KeepsMail ∧
      (acknowledged.step powerFails).owed = [{ id := 0, msg := first }] ∧
      (acknowledged.step powerFails).inbox.messages = [first, second] := by
  refine ⟨?_, by decide +kernel, by decide +kernel⟩
  refine acknowledged_mail_survives [] 256 (fun _ => none) [.store first {}, powerFails] ?_
  refine ⟨?_, ⟨?_, Disk.leaves_live _⟩, trivial⟩
  · exact .inr ⟨rfl, by decide⟩
  · rintro msg io calls ⟨⟩
    exact .inl ⟨rfl, rfl⟩

end Mailbox

end Coreletd.Mesh
