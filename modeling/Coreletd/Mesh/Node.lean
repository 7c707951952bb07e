/-
# The node

What a received packet means: adverts become contacts, texts are stored and
acknowledged, acks complete sends, returned paths become routes, and with
relaying on the rest goes back on the air. Everything a callback takes from
outside (the radio's answers, the wall clock, random bytes, how a write to disk
goes, which entry a hash table lists first) is one `Moment`. The notices are
what the delegate was told, newest first.
-/

import Coreletd.Mesh.Channels
import Coreletd.Mesh.Inbox
import Coreletd.Mesh.NodeStart
import Coreletd.Mesh.Sender

namespace Coreletd.Mesh

open Coreletd.Crypto
open Coreletd.Library
open Coreletd.Library.SerialClock
open Coreletd.Proto

def kMaxDelivered : Nat := 512
def kReturnPathRetryMs : UInt32 := 3000

/-- The fields of `Node::Config` that decide what happens to received packets. -/
structure NodeConfig where
  /-- `repeat`: relay for other nodes. -/
  relay : Bool := false
  maxHops : UInt8 := 32
  deriving DecidableEq

inductive Notice where
  | contactChanged (pubkey : Bytes) (isNew : Bool)
  | messageStored
  | ack (ackHash : Bytes)
  | advertSeen (pubkey : Bytes)
  | pathUpdated (pubkey : Bytes)
  deriving DecidableEq

/-- What one callback meets outside the node. -/
structure Moment where
  radio : RadioView
  unixNow : UInt32 := 0
  /-- The random byte of an ack. -/
  ackByte : UInt8 := 0
  /-- The four random bytes of a path return that carries nothing. -/
  filler : UInt32 := 0
  /-- The random byte a relayed packet is delayed by. -/
  stagger : UInt8 := 0
  /-- Which entry of a full delivered table comes first. -/
  first : Nat := 0
  io : SaveIo := {}

/-- A node over its sender and contacts. -/
structure Node extends Outgoing where
  cfg : NodeConfig := {}
  channels : ChannelStore := {}
  inbox : MessageInbox := {}
  files : FileSystem := fun _ => none
  /-- Logical message identity to expiry. -/
  delivered : List (UInt64 × UInt32) := []
  notices : List Notice := []

/-- A direct route for a path return to travel. -/
structure Via where
  path : Bytes
  hashSize : Nat := 1

namespace Node

def identity (n : Node) : LocalIdentity := n.air.client.self

def notify (n : Node) (notice : Notice) : Node := { n with notices := notice :: n.notices }

/-- MeshCore's path length: the packed byte of a flood, 0xFF for direct. -/
def companionPathLen (p : Packet) : UInt8 := if p.isFlood then p.packedPathLen else 0xFF

/-- The signal-to-noise ratio in quarter dB, clamped to a byte. -/
def clampSnr (p : Packet) : Int8 := Int8.ofInt (max (-128) (min 127 p.snrQ4))

/-! ## Delivered once -/

/-- Everything a sender would have to change for a different message, so not the
attempt number: eight digest bytes, first byte highest. -/
def deliveryKey (lib : Crypto.Library) (sender : Contact) (msg : TextMessage) : UInt64 :=
  ((lib.sha256 (sender.pubkey ++ putU32 msg.timestamp ++ [msg.txtType] ++ msg.text)).take 8).foldl
    (fun key byte => (key <<< 8) ||| byte.toUInt64) 0

def expireDelivered (n : Node) : Node :=
  { n with delivered := n.delivered.filter fun entry => 0 < signed (entry.2 - n.air.nowMs) }

/-- `delivered_[key] = expiry`. -/
def setDelivered (key : UInt64) (expiry : UInt32) (table : List (UInt64 × UInt32)) :
    List (UInt64 × UInt32) :=
  if table.any (·.1 = key) then modifyFirst (·.1 = key) (fun _ => (key, expiry)) table
  else table ++ [(key, expiry)]

/-- Room for one more: sweep a full table, and drop one if all of it is live. -/
def makeRoom (first : Nat) (n : Node) : Node :=
  if kMaxDelivered ≤ n.delivered.length then
    let n := n.expireDelivered
    if kMaxDelivered ≤ n.delivered.length then
      { n with delivered := n.delivered.eraseIdx (first % n.delivered.length) }
    else n
  else n

/-- The table holds the key and the entry has not expired. -/
def isDelivered (n : Node) (key : UInt64) : Bool :=
  match n.delivered.find? (·.1 = key) with
  | some entry => 0 < signed (entry.2 - n.air.nowMs)
  | none => false

/-- Put a key's expiry one lifetime ahead. -/
def refresh (n : Node) (key : UInt64) : Node :=
  { n with delivered := setDelivered key (n.air.nowMs + kDeliveredTtlMs) n.delivered }

/-- Whether this is the first copy of a message. A live entry is refreshed, so a
sender that is still retrying stays suppressed. -/
def firstDelivery (lib : Crypto.Library) (m : Moment) (n : Node) (sender : Contact)
    (msg : TextMessage) : Bool × Node :=
  let key := deliveryKey lib sender msg
  if n.isDelivered key then (false, n.refresh key)
  else (true, (n.makeRoom m.first).refresh key)

/-- A failed commit is only logged: the message is queued and acked all the same. -/
def storeMessage (m : Moment) (n : Node) (msg : StoredMessage) : Node :=
  let (_, inbox, files) := n.inbox.store m.io n.files msg
  { n with inbox, files }.notify .messageStored

section

variable (lib : Crypto.Library) (m : Moment)

/-! ## Sending -/

/-- Hand a packet without a result handler to the dispatcher. -/
def transmit (n : Node) (p : Packet) (priority : UInt8) (delayMs : UInt32) : Node :=
  { n with air :=
      (Dispatcher.send ReliableSender.onTxResult lib m.radio n.air p priority delayMs none).2 }

def sendAck (n : Node) (dest : Contact) (ack : Bytes) : Node :=
  { n with air := (routeTo ReliableSender.onTxResult lib m.radio n.air
      { type := .ack, payload := ack } dest kPriorityAck false none).2 }

/-- The path a packet arrived by, unreversed. Without an extra it is filled up
with random bytes, so that no two are the same packet. -/
def pathReturn (inbound : Packet) (extraType : UInt8) (extra : Bytes) : PathReturn :=
  { path := inbound.path
    pathHashSize := inbound.pathHashSize
    hasExtra := true
    extraType := if extra = [] then 0x0F else extraType
    extra := if extra = [] then putU32 m.filler else extra }

/-- A sealed path return on its way: along `via`, or flooded. -/
def pathPacket (self : LocalIdentity) (dest : Contact) (shared : Bytes) (ret : PathReturn)
    (via : Option Via) : Packet :=
  let payload := (DirectEnvelope.sealWith lib dest.id self.id shared ret.encode).encode
  match via with
  | some via =>
      { type := .path, payload, route := .direct, path := via.path, pathHashSize := via.hashSize }
  | none => { type := .path, payload, route := .flood }

/-- Tell `dest` how to reach us. An unusable key leaves nothing to encrypt with. -/
def sendPathReturn (n : Node) (dest : Contact) (inbound : Packet) (extraType : UInt8)
    (extra : Bytes) (via : Option Via) (delayMs : UInt32) : Node :=
  let shared := dest.sharedSecret lib n.identity
  if shared = [] then n
  else
    n.transmit lib m
      (pathPacket lib n.identity dest shared (pathReturn m inbound extraType extra) via)
      kPriorityAck delayMs

/-! ## Relaying -/

/-- Put a flooded packet back on the air with our hash appended. -/
def maybeRepeat (n : Node) (p : Packet) : Node :=
  if !n.cfg.relay then n
  else if !p.isFlood then n
  else if n.cfg.maxHops.toNat ≤ p.hopCount then n
  else
    match p.pushHop n.identity.pub with
    | none => n
    | some out => n.transmit lib m out kPriorityRepeat (100 + m.stagger.toUInt32 * 4)

/-- Up to one packet's airtime. -/
def directRetransmitDelay (out : Packet) : UInt32 :=
  (m.stagger.toUInt32 * m.radio.airtimeMs out.encode.length) / 255

/-- Send a direct packet on, if the next of its hops is us. -/
def forwardDirect (n : Node) (p : Packet) : Node :=
  if !n.cfg.relay then n
  else if p.firstHop = [] ∨ p.firstHop ≠ subview n.identity.pub 0 p.firstHop.length then n
  else if p.type = .multipart then n
  else
    let out := p.popHop
    n.transmit lib m out kPriorityAck (if p.type = .ack then 0 else directRetransmitDelay m out)

/-- The tag, the auth code and the flags of a trace. -/
def kTraceHeader : Nat := 9

/-- Send a trace on, if its route names us next. Its path is not a route but the
signal each hop heard it at. -/
def forwardTrace (n : Node) (p : Packet) : Node :=
  if !n.cfg.relay then n
  else if p.payload.length ≤ kTraceHeader then n
  else if p.pathHashSize ≠ 1 ∨ kMaxPathSize ≤ p.path.length then n
  else
    let width := 1 <<< (p.payload.getD 8 0 &&& 0x03).toNat
    let pos := kTraceHeader + p.path.length * width
    if p.payload.length < pos + width then n
    else if subview p.payload pos width ≠ subview n.identity.pub 0 width then n
    else
      let out := { p with path := p.path ++ [(clampSnr p).toUInt8] }
      n.transmit lib m out kPriorityAdvert (directRetransmitDelay m out)

/-! ## Receiving

Each handler says whether the packet would be flooded onward afterwards. -/

/-- The first contact under whose key the MAC verifies. -/
def decryptFrom (n : Node) (srcHash : UInt8) (mac ciphertext : Bytes) : Option (Contact × Bytes) :=
  (n.contacts.byId srcHash).findSome? fun c =>
    let shared := c.sharedSecret lib n.identity
    if shared = [] then none
    else (macAndDecrypt lib shared mac ciphertext).map fun plaintext => (c, plaintext)

/-- Apply an advert with a good signature that is not our own. -/
def applyAdvert (n : Node) (p : Packet) (adv : Advert) : Node :=
  match AdvertAppData.decode adv.appdata with
  | none => n
  | some app =>
      if !app.hasName || app.name = [] || app.name.head? = some 0 then n
      else
        match n.contacts.applyAdvert adv app m.unixNow with
        | none => n
        | some (contacts, created) =>
            (({ n with contacts := contacts.touchSignal adv.pubkey m.unixNow p.rssi p.snrQ4 }.notify
              (.advertSeen adv.pubkey)).notify (.contactChanged adv.pubkey created))

def handleAdvert (n : Node) (p : Packet) : Bool × Node :=
  match Advert.decode p.payload with
  | none => (false, n)
  | some adv =>
      if !adv.verify lib then (false, n)
      else if adv.pubkey = n.identity.pub then (false, n)
      else (true, n.applyAdvert m p adv)

/-- Whether a request belongs to somebody else. -/
def handleRequest (n : Node) (p : Packet) : Bool :=
  if p.type = .anonReq then
    match AnonReqEnvelope.decode p.payload with
    | none => false
    | some env =>
        if env.destHash ≠ n.identity.id then true
        else
          match lib.sharedSecret n.identity.priv env.pubkey with
          | none => true
          | some shared => (macAndDecrypt lib shared env.mac env.ciphertext).isNone
  else
    match DirectEnvelope.decode p.payload with
    | none => false
    | some env =>
        if env.destHash ≠ n.identity.id then true
        else (n.decryptFrom lib env.srcHash env.mac env.ciphertext).isNone

/-- The ack of a text; CLI responses have none. -/
def ackOf (self : LocalIdentity) (sender : Contact) (plaintext : Bytes) (msg : TextMessage) :
    Bytes :=
  if msg.txtType = kTxtCliData then []
  else
    ackPayload
      (messageAckHash lib plaintext
        (if msg.txtType = kTxtSignedPlain then self.pub else sender.pubkey))
      (ackExtendedAttempt plaintext) m.ackByte

/-- Hand a text to the app unless it was handed over before. -/
def deliver (n : Node) (p : Packet) (sender : Contact) (msg : TextMessage) : Node :=
  match n.firstDelivery lib m sender msg with
  | (false, n) => n
  | (true, n) =>
      n.storeMessage m
        { senderPubkey := sender.pubkey
          timestamp := msg.timestamp
          txtType := msg.txtType
          text := msg.body
          snrQ4 := clampSnr p
          pathLen := companionPathLen p }

/-- A flood is answered with the route it took and the ack inside it, a direct
text with the ack alone. -/
def replyTo (n : Node) (p : Packet) (sender : Contact) (ack : Bytes) : Node :=
  if p.isFlood then
    n.sendPathReturn lib m sender p (if ack = [] then 0 else PayloadType.ack.toByte) ack none 0
  else if ack ≠ [] then n.sendAck lib m sender ack
  else n

/-- A text that opened and is of a kind we know: note the contact, deliver, and
answer. -/
def acceptText (n : Node) (p : Packet) (sender : Contact) (plaintext : Bytes) (msg : TextMessage) :
    Node :=
  let n := { n with contacts :=
    n.contacts.touchSignal sender.pubkey m.unixNow p.rssi p.snrQ4 }
  let n := n.deliver lib m p sender msg
  n.replyTo lib m p sender (ackOf lib m n.identity sender plaintext msg)

def handleText (n : Node) (p : Packet) : Bool × Node :=
  match DirectEnvelope.decode p.payload with
  | none => (false, n)
  | some env =>
      if env.destHash ≠ n.identity.id then (true, n)
      else
        match n.decryptFrom lib env.srcHash env.mac env.ciphertext with
        | none => (true, n)
        | some (sender, plaintext) =>
            match TextMessage.decode plaintext with
            | none => (false, n)
            | some msg =>
                if msg.txtType ≠ kTxtPlain ∧ msg.txtType ≠ kTxtCliData ∧
                    msg.txtType ≠ kTxtSignedPlain then (false, n)
                else (false, n.acceptText lib m p sender plaintext msg)

/-- Complete the send an ack answers: whether there was one, and its contact,
which can have been removed since. -/
def completeAck (n : Node) (ackHash : Bytes) (direct : Bool) : Bool × Option Contact × Node :=
  match n.air.client.complete ackHash with
  | (none, client) => (false, none, { n with air := { n.air with client } })
  | (some done, client) =>
      let n := { n with air := { n.air with client } }
      let c := n.contacts.find done.destPubkey
      let n :=
        if c.isSome && direct then
          { n with contacts := n.contacts.touch done.destPubkey m.unixNow }
        else n
      (true, c, n.notify (.ack done.ackHash))

def handleAck (n : Node) (p : Packet) : Bool × Node :=
  if p.payload.length < kAckHashSize then (false, n)
  else
    match n.completeAck m (subview p.payload 0 kAckHashSize) p.isDirect with
    | (false, _, n) => (true, n)
    | (true, none, n) => (false, n)
    | (true, some c, n) =>
        -- The peer flooded although we hold a route for it: offer ours again.
        if p.isFlood && c.pathKnown then
          (false, n.sendPathReturn lib m c p 0 [] (some { path := c.outPath }) kReturnPathRetryMs)
        else (false, n)

/-- Routes of wider hashes cannot be addressed and are not stored. -/
def learnPath (n : Node) (sender : Contact) (ret : PathReturn) : Node :=
  if ret.pathHashSize = 1 then
    let contacts := (n.contacts.setPath sender.pubkey ret.path).2
    { n with contacts := contacts.touch sender.pubkey m.unixNow }.notify
      (.pathUpdated sender.pubkey)
  else n

/-- The ack inside a returned path. -/
def completeExtra (n : Node) (p : Packet) (ret : PathReturn) : Node :=
  if ret.hasExtra ∧ ret.extraType = PayloadType.ack.toByte ∧ kAckHashSize ≤ ret.extra.length then
    (n.completeAck m (subview ret.extra 0 kAckHashSize) p.isDirect).2.2
  else n

def handlePath (n : Node) (p : Packet) : Bool × Node :=
  match DirectEnvelope.decode p.payload with
  | none => (false, n)
  | some env =>
      if env.destHash ≠ n.identity.id then (true, n)
      else
        match n.decryptFrom lib env.srcHash env.mac env.ciphertext with
        | none => (true, n)
        | some (sender, plaintext) =>
            match PathReturn.decode plaintext with
            | none => (true, n)
            | some ret =>
                let n := (n.learnPath m sender ret).completeExtra m p ret
                if p.isFlood then
                  (false, n.sendPathReturn lib m sender p 0 []
                    (some { path := ret.path, hashSize := ret.pathHashSize }) 0)
                else (false, n)

/-- The first channel under whose key a group text opens and parses. -/
def openGroup (n : Node) (env : GroupEnvelope) : Option (Nat × TextMessage) :=
  (n.channels.byHash lib env.channelHash).findSome? fun (index, ch) =>
    match macAndDecrypt lib ch.secret env.mac env.ciphertext with
    | none => none
    | some plaintext => (TextMessage.decode plaintext).map fun msg => (index, msg)

def handleGroupText (n : Node) (p : Packet) : Node :=
  match GroupEnvelope.decode p.payload with
  | none => n
  | some env =>
      match n.openGroup lib env with
      | none => n
      | some (index, msg) =>
          if msg.txtType ≠ kTxtPlain then n
          else
            n.storeMessage m
              { isChannel := true
                channelIndex := UInt8.ofNat index
                timestamp := msg.timestamp
                txtType := msg.txtType
                text := msg.body
                snrQ4 := clampSnr p
                pathLen := companionPathLen p }

/-- What a packet that is not in transit is for. -/
def handle (n : Node) (p : Packet) : Bool × Node :=
  match p.type with
  | .advert => n.handleAdvert lib m p
  | .txtMsg => n.handleText lib m p
  | .ack => n.handleAck lib m p
  | .path => n.handlePath lib m p
  | .grpTxt => (true, n.handleGroupText lib m p)
  | .req | .response | .anonReq => (n.handleRequest lib p, n)
  | .grpData => (true, n)
  | _ => (false, n)

/-- A direct packet with hops left. Of those only an ack is read. -/
def passOn (n : Node) (p : Packet) : Node :=
  match if p.type = .ack then n.handleAck lib m p else (true, n) with
  | (true, n) => n.forwardDirect lib m p
  | (false, n) => n

def onPacket (n : Node) (p : Packet) : Node :=
  if p.isDirect && decide (p.type = .trace) then n.forwardTrace lib m p
  -- Zero-hop only, whatever its path says.
  else if p.isDirect && decide (p.type = .control) && decide (p.payload.headD 0 &&& 0x80 ≠ 0) then n
  else if p.isDirect && decide (0 < p.hopCount) then n.passOn lib m p
  else
    match n.handle lib m p with
    | (true, n) => n.maybeRepeat lib m p
    | (false, n) => n

end

/-! ## Runs -/

/-- What can happen to a node. The app's commands reach the contacts and the
channels; what else the node sends (adverts, channel texts) and the dispatcher's
own callbacks are events of the dispatcher that carry no result handler. -/
inductive Event where
  | received (raw : Bytes) (rssi snrQ4 : Int) (m : Moment)
  | sendText (dest : Contact) (text : Bytes) (txtType : UInt8) (timestamp : UInt32)
      (radio : RadioView)
  | retry (id : Nat) (radio : RadioView)
  | contacts (store : ContactStore)
  | channel (index : Nat) (ch : Channel)
  | setRelay (relay : Bool)
  | popMessage
  | sweepDelivered
  | dispatcher (event : Dispatcher.Event Nat)

/-- A reception goes through the dispatcher's decoding and deduplication. -/
def receive (lib : Crypto.Library) (n : Node) (raw : Bytes) (rssi snrQ4 : Int) (m : Moment) :
    Node :=
  match Dispatcher.onRadioRx lib n.air raw rssi snrQ4 with
  | (none, air) => { n with air }
  | (some p, air) => { n with air }.onPacket lib m p

def step (lib : Crypto.Library) (n : Node) : Event → Node
  | .received raw rssi snrQ4 m => n.receive lib raw rssi snrQ4 m
  | .sendText dest text txtType timestamp radio =>
      { n with air := (n.air.send lib radio dest text txtType timestamp).2 }
  | .retry id radio => { n with air := n.air.onTimer lib radio n.contacts id }
  | .contacts store => { n with contacts := store }
  | .channel index ch => { n with channels := n.channels.set index ch }
  | .setRelay relay => { n with cfg := { n.cfg with relay } }
  | .popMessage => { n with inbox := n.inbox.pop.2 }
  | .sweepDelivered => n.expireDelivered
  | .dispatcher event =>
      { n with air :=
          Dispatcher.step lib ReliableSender.onTxResult n.air (Outgoing.unanswered event) }

end Node

end Coreletd.Mesh
