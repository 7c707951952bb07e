/-
# The message queue

What was received is held for the app, in memory and in a file. A store commits
before it returns, because the ack that follows it is a promise; a pop is
persisted later, with the other stores.
-/

import Coreletd.Mesh.Record
import Coreletd.Proto.Payloads
import Coreletd.Util.Persist

namespace Coreletd.Mesh

open Coreletd.Crypto
open Coreletd.Library
open Coreletd.Proto

/-- A message held for the app to collect. -/
structure StoredMessage where
  isChannel : Bool := false
  /-- Of direct messages. -/
  senderPubkey : Bytes := []
  /-- Of channel messages. -/
  channelIndex : UInt8 := 0
  timestamp : UInt32 := 0
  txtType : UInt8 := kTxtPlain
  text : Bytes := []
  snrQ4 : Int8 := 0
  /-- The packed path length of a flood, 0xFF for what arrived direct. -/
  pathLen : UInt8 := 0xFF
  deriving DecidableEq

structure MessageInbox where
  /-- Empty for an in-memory queue. -/
  path : Bytes := []
  messages : List StoredMessage := []
  limit : Nat := 256
  dropped : UInt32 := 0
  dirty : Bool := false
  deriving DecidableEq

namespace MessageInbox

def kHeader : Bytes := Text.ascii "# coreletd messages v1"

def columnsLine : Bytes :=
  Text.ascii "# kind\tpeer\tchannel\ttimestamp\ttxt_type\tsnr_q4\tpath_len\ttext_hex"

/-- The text is written as hex: it is arbitrary bytes off the air. -/
def recordFields (m : StoredMessage) : List Bytes :=
  [Text.ascii (if m.isChannel then "channel" else "direct"),
    if m.senderPubkey = [] then Text.ascii "-" else hex m.senderPubkey,
    Text.decimal m.channelIndex.toNat, Text.decimal m.timestamp.toNat,
    Text.decimal m.txtType.toNat, Text.decimalInt m.snrQ4.toInt, Text.decimal m.pathLen.toNat,
    hex m.text]

def fileLines (q : MessageInbox) : List Bytes :=
  kHeader :: columnsLine :: q.messages.map fun m => joinFields (recordFields m)

def fileContent (q : MessageInbox) : Bytes := q.fileLines.flatMap fun line => line ++ [lf]

def save (io : SaveIo) (q : MessageInbox) (fs : FileSystem) : Bool × MessageInbox × FileSystem :=
  match saveContent io fs q.path q.fileContent true with
  | (true, fs) => (true, { q with dirty := false }, fs)
  | (false, fs) => (false, q, fs)

/-- Queue a message, give up the oldest ones beyond the limit, and commit. -/
def store (io : SaveIo) (q : MessageInbox) (fs : FileSystem) (msg : StoredMessage) :
    Bool × MessageInbox × FileSystem :=
  let messages := q.messages ++ [msg]
  let excess := messages.length - q.limit
  let q := { q with
    messages := messages.drop excess
    dropped := q.dropped + UInt32.ofNat excess
    dirty := true }
  if q.path = [] then (true, q, fs) else q.save io fs

def pop (q : MessageInbox) : Option StoredMessage × MessageInbox :=
  match q.messages with
  | [] => (none, q)
  | msg :: messages => (some msg, { q with messages, dirty := true })

/-- A save changes no more of the queue than the flag. -/
theorem save_eq (io : SaveIo) (q : MessageInbox) (fs : FileSystem) :
    q.save io fs =
      ((saveContent io fs q.path q.fileContent true).1,
        { q with dirty := q.dirty && !(saveContent io fs q.path q.fileContent true).1 },
        (saveContent io fs q.path q.fileContent true).2) := by
  rw [save]
  split
  next hsaved => simp [hsaved]
  next hsaved => simp [hsaved]

theorem store_messages (io : SaveIo) (q : MessageInbox) (fs : FileSystem) (msg : StoredMessage) :
    (q.store io fs msg).2.1.messages =
      (q.messages ++ [msg]).drop ((q.messages ++ [msg]).length - q.limit) := by
  simp only [store]
  split
  · rfl
  · rw [save_eq]

/-- With a path, a store is a save of the longer queue. -/
theorem store_eq_save {q : MessageInbox} (hpath : q.path ≠ []) (io : SaveIo) (fs : FileSystem)
    (msg : StoredMessage) :
    ∃ q' : MessageInbox, q.store io fs msg = q'.save io fs ∧ q'.path = q.path ∧
      q'.limit = q.limit ∧
      q'.messages = (q.messages ++ [msg]).drop ((q.messages ++ [msg]).length - q.limit) := by
  refine ⟨_, if_neg hpath, rfl, rfl, rfl⟩

/-! ## Loading -/

/-- The sender's key: a channel message may do without one. -/
def parsePeer (isChannel : Bool) (field : Bytes) : Except String Bytes :=
  if field ≠ Text.ascii "-" then
    match unhex field with
    | some pubkey =>
        if pubkey.length ≠ kPubKeySize then .error "invalid sender key" else .ok pubkey
    | none => .error "invalid sender key"
  else if !isChannel then .error "direct message with no sender"
  else .ok []

/-- The fields of a record behind its kind. -/
def parseFields (isChannel : Bool) (peer channel timestamp txtType snr pathLen text : Bytes) :
    Except String StoredMessage :=
  match parsePeer isChannel peer with
  | .error why => .error why
  | .ok senderPubkey =>
      match parseUnsigned channel 255, parseUnsigned timestamp 4294967295,
        parseUnsigned txtType 255, parseSigned snr (-128) 127, parseUnsigned pathLen 255 with
      | some channel, some timestamp, some txtType, some snr, some pathLen =>
          match unhex text with
          | none => .error "invalid message text"
          | some text => .ok
              { isChannel, senderPubkey, channelIndex := UInt8.ofNat channel,
                timestamp := UInt32.ofNat timestamp, txtType := UInt8.ofNat txtType, text,
                snrQ4 := Int8.ofInt snr, pathLen := UInt8.ofNat pathLen }
      | _, _, _, _, _ => .error "invalid numeric field"

def parseRecord (line : Bytes) : Except String StoredMessage :=
  match splitFields line 8 with
  | some [kind, peer, channel, timestamp, txtType, snr, pathLen, text] =>
      if kind = Text.ascii "channel" then
        parseFields true peer channel timestamp txtType snr pathLen text
      else if kind = Text.ascii "direct" then
        parseFields false peer channel timestamp txtType snr pathLen text
      else .error "unknown record kind"
  | _ => .error "malformed record"

/-- One turn of the loading loop: whether the header was seen, and the messages
so far. -/
def loadLine (acc : Bool × List StoredMessage) (line : Bytes) :
    Except String (Bool × List StoredMessage) :=
  if line = kHeader then .ok (true, acc.2)
  else if line = [] ∨ line.head? = some 35 then .ok acc
  else
    match parseRecord line with
    | .ok msg => .ok (acc.1, acc.2 ++ [msg])
    | .error why => .error why

/-- Read the queue's file and keep the newest messages. A read error behind `badAfter`
lines only ends the loop. -/
def load (q : MessageInbox) (fs : FileSystem) (badAfter : Option Nat := none) :
    LoadResult × MessageInbox :=
  if q.path = [] then (.missing, q)
  else
    match fs q.path with
    | none => (.missing, q)
    | some content =>
        let all := Text.lines lf content
        let seen := match badAfter with
          | some n => all.take n
          | none => all
        match seen.foldlM loadLine (false, []) with
        | .error _ => (.corrupt, q)
        | .ok (sawHeader, loaded) =>
            if !sawHeader then (.corrupt, q)
            else
              let excess := loaded.length - q.limit
              (.loaded, { q with
                messages := loaded.drop excess
                dropped := q.dropped + UInt32.ofNat excess
                dirty := false })

end MessageInbox

end Coreletd.Mesh
