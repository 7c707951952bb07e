/-
# What handling a packet does

Each function that a packet gets to either leaves the node alone or does what it has
checked for. Here each is taken apart once: what it can come to, and what is known
then. A whole reception is some acts in a row, and what every act keeps, it keeps.
-/

import Coreletd.Mesh.Node
import Mathlib.Logic.Relation

namespace Coreletd.Mesh.Node

open Coreletd.Crypto
open Coreletd.Proto

variable {lib : Crypto.Library} {m : Moment} {n : Node} {p : Packet}

/-! ## Handing over -/

/-- Nothing is handed to the dispatcher, or one packet, and that is as `May` says. -/
inductive Transmits (lib : Crypto.Library) (m : Moment) (n : Node)
    (May : Packet → UInt8 → UInt32 → Prop) : Node → Prop
  | nothing : Transmits lib m n May n
  | one {out : Packet} {priority : UInt8} {delayMs : UInt32} (hmay : May out priority delayMs) :
      Transmits lib m n May (n.transmit lib m out priority delayMs)

/-- A path is returned to whoever we share a secret with. -/
theorem transmits_sendPathReturn (n : Node) (dest : Contact) (inbound : Packet)
    (extraType : UInt8) (extra : Bytes) (via : Option Via) (delayMs : UInt32) :
    Transmits lib m n
      (fun out priority delay =>
        out = pathPacket lib n.identity dest (dest.sharedSecret lib n.identity)
          (pathReturn m inbound extraType extra) via ∧
        priority = kPriorityAck ∧ delay = delayMs)
      (n.sendPathReturn lib m dest inbound extraType extra via delayMs) := by
  rw [sendPathReturn]
  split
  · exact .nothing
  · exact .one ⟨rfl, rfl, rfl⟩

theorem transmits_sendAck (n : Node) (dest : Contact) (ack : Bytes) :
    Transmits lib m n
      (fun out priority delay => out = routed dest false { type := .ack, payload := ack } ∧
        priority = kPriorityAck ∧ delay = 0)
      (n.sendAck lib m dest ack) :=
  .one ⟨rfl, rfl, rfl⟩

/-- A packet that `maybeRepeat` floods on. -/
structure Repeats (m : Moment) (n : Node) (p out : Packet) (priority : UInt8) (delayMs : UInt32) :
    Prop where
  relay : n.cfg.relay = true
  flood : p.isFlood = true
  hops : p.hopCount < n.cfg.maxHops.toNat
  pushed : p.pushHop n.identity.pub = some out
  priority : priority = kPriorityRepeat
  delay : delayMs = 100 + m.stagger.toUInt32 * 4

theorem transmits_maybeRepeat (n : Node) (p : Packet) :
    Transmits lib m n (Repeats m n p) (n.maybeRepeat lib m p) := by
  rw [maybeRepeat]
  split
  · exact .nothing
  · next hrelay =>
    split
    · exact .nothing
    · next hflood =>
      split
      · exact .nothing
      · next hhops =>
        split
        · exact .nothing
        · next out hpushed =>
          exact .one ⟨by simpa using hrelay, by simpa using hflood, Nat.lt_of_not_le hhops, hpushed,
            rfl, rfl⟩

/-- A packet that `forwardDirect` passes on. -/
structure Forwards (m : Moment) (n : Node) (p out : Packet) (priority : UInt8) (delayMs : UInt32) :
    Prop where
  relay : n.cfg.relay = true
  named : p.firstHop ≠ [] ∧ p.firstHop = subview n.identity.pub 0 p.firstHop.length
  notMultipart : p.type ≠ .multipart
  popped : out = p.popHop
  priority : priority = kPriorityAck
  delay : delayMs = if p.type = .ack then 0 else directRetransmitDelay m out

theorem transmits_forwardDirect (n : Node) (p : Packet) :
    Transmits lib m n (Forwards m n p) (n.forwardDirect lib m p) := by
  rw [forwardDirect]
  split
  · exact .nothing
  · next hrelay =>
    split
    · exact .nothing
    · next hnamed =>
      split
      · exact .nothing
      · next hmultipart =>
        exact .one ⟨by simpa using hrelay, by simpa using hnamed, hmultipart, rfl, rfl, rfl⟩

/-- How wide one hop of a trace's route is. -/
def traceWidth (p : Packet) : Nat := 1 <<< (p.payload.getD 8 0 &&& 0x03).toNat

/-- Where in its payload a trace names its next hop. -/
def tracePosition (p : Packet) : Nat := kTraceHeader + p.path.length * traceWidth p

/-- A packet that `forwardTrace` sends on. -/
structure ForwardsTrace (m : Moment) (n : Node) (p out : Packet) (priority : UInt8)
    (delayMs : UInt32) : Prop where
  relay : n.cfg.relay = true
  hasRoute : kTraceHeader < p.payload.length
  readings : p.pathHashSize = 1 ∧ p.path.length < kMaxPathSize
  onRoute : tracePosition p + traceWidth p ≤ p.payload.length
  named : subview p.payload (tracePosition p) (traceWidth p) =
    subview n.identity.pub 0 (traceWidth p)
  heard : out = { p with path := p.path ++ [(clampSnr p).toUInt8] }
  priority : priority = kPriorityAdvert
  delay : delayMs = directRetransmitDelay m out

theorem transmits_forwardTrace (n : Node) (p : Packet) :
    Transmits lib m n (ForwardsTrace m n p) (n.forwardTrace lib m p) := by
  rw [forwardTrace]
  split
  · exact .nothing
  · next hrelay =>
    split
    · exact .nothing
    · next hroute =>
      split
      · exact .nothing
      · next hreadings =>
        dsimp only
        split
        · exact .nothing
        · next hend =>
          split
          · exact .nothing
          · next hnamed =>
            exact .one ⟨by simpa using hrelay, Nat.lt_of_not_le hroute, by simpa using hreadings,
              Nat.le_of_not_lt hend, not_not.mp hnamed, rfl, rfl, rfl⟩

/-! ## The handlers -/

/-- A direct envelope for us opened under a contact's key. -/
def OpenedTo (lib : Crypto.Library) (n : Node) (p : Packet) (sender : Contact)
    (plaintext : Bytes) : Prop :=
  ∃ env, DirectEnvelope.decode p.payload = some env ∧ env.destHash = n.identity.id ∧
    n.decryptFrom lib env.srcHash env.mac env.ciphertext = some (sender, plaintext)

/-- What is for somebody else, or opens under no key, was opened to nobody. -/
theorem not_openedTo {env : DirectEnvelope} (hdecode : DirectEnvelope.decode p.payload = some env)
    (hclosed : env.destHash = n.identity.id →
      n.decryptFrom lib env.srcHash env.mac env.ciphertext = none)
    (sender : Contact) (plaintext : Bytes) : ¬ OpenedTo lib n p sender plaintext := by
  rintro ⟨env', hdecode', hdest, hopened⟩
  obtain rfl : env = env' := Option.some.inj (hdecode.symm.trans hdecode')
  rw [hclosed hdest] at hopened
  simp at hopened

/-- An envelope is opened in one way. -/
theorem OpenedTo.unique {sender sender' : Contact} {plaintext plaintext' : Bytes}
    (hopened : OpenedTo lib n p sender plaintext) (hopened' : OpenedTo lib n p sender' plaintext') :
    sender = sender' ∧ plaintext = plaintext' := by
  obtain ⟨env, hdecode, -, hfound⟩ := hopened
  obtain ⟨env', hdecode', -, hfound'⟩ := hopened'
  obtain rfl : env = env' := Option.some.inj (hdecode.symm.trans hdecode')
  exact Prod.mk.inj (Option.some.inj (hfound.symm.trans hfound'))

/-- What applying an advert comes to. -/
inductive ApplyCase (m : Moment) (n : Node) (p : Packet) (adv : Advert) : Node → Prop
  | ignored : ApplyCase m n p adv n
  | noted {app : AdvertAppData} {contacts : ContactStore} {created : Bool}
      (happlied : n.contacts.applyAdvert adv app m.unixNow = some (contacts, created)) :
      ApplyCase m n p adv
        (({ n with contacts := contacts.touchSignal adv.pubkey m.unixNow p.rssi p.snrQ4 }.notify
          (.advertSeen adv.pubkey)).notify (.contactChanged adv.pubkey created))

theorem applyAdvert_case (n : Node) (p : Packet) (adv : Advert) :
    ApplyCase m n p adv (n.applyAdvert m p adv) := by
  rw [applyAdvert]
  split
  · exact .ignored
  · split
    · exact .ignored
    · split
      · exact .ignored
      · next happlied => exact .noted happlied

/-- What `handleAdvert` comes to. -/
inductive AdvertCase (lib : Crypto.Library) (m : Moment) (n : Node) (p : Packet) :
    Bool × Node → Prop
  | ignored : AdvertCase lib m n p (false, n)
  | applied {adv : Advert} (hdecode : Advert.decode p.payload = some adv)
      (hverify : adv.verify lib = true) (hforeign : adv.pubkey ≠ n.identity.pub) :
      AdvertCase lib m n p (true, n.applyAdvert m p adv)

theorem handleAdvert_case (n : Node) (p : Packet) :
    AdvertCase lib m n p (n.handleAdvert lib m p) := by
  rw [handleAdvert]
  split
  · exact .ignored
  · next adv hdecode =>
    split
    · exact .ignored
    · next hverify =>
      split
      · exact .ignored
      · next hforeign => exact .applied hdecode (by simpa using hverify) hforeign

/-- Only the table is touched to make room. -/
theorem makeRoom_eq (first : Nat) (n : Node) :
    n.makeRoom first = { n with delivered := (n.makeRoom first).delivered } := by
  rw [makeRoom]
  dsimp only
  split
  · split <;> rfl
  · rfl

/-- What delivering a text comes to: its entry in the table, and the text in the queue
if it had none. -/
inductive DeliverCase (m : Moment) (n : Node) : Node → Prop
  | known {delivered : List (UInt64 × UInt32)} : DeliverCase m n { n with delivered }
  | stored {delivered : List (UInt64 × UInt32)} {msg : StoredMessage} :
      DeliverCase m n ({ n with delivered }.storeMessage m msg)

theorem deliver_case (n : Node) (p : Packet) (sender : Contact) (msg : TextMessage) :
    DeliverCase m n (n.deliver lib m p sender msg) := by
  rw [deliver, firstDelivery]
  split
  · next heq =>
    split at heq
    · obtain ⟨-, rfl⟩ := Prod.mk.inj heq
      exact .known
    · simp at heq
  · next heq =>
    split at heq
    · simp at heq
    · obtain ⟨-, rfl⟩ := Prod.mk.inj heq
      rw [makeRoom_eq]
      exact .stored

/-- The three types a receiver knows. -/
def KnownText (txtType : UInt8) : Prop :=
  txtType = kTxtPlain ∨ txtType = kTxtCliData ∨ txtType = kTxtSignedPlain

instance (txtType : UInt8) : Decidable (KnownText txtType) := inferInstanceAs (Decidable (_ ∨ _))

/-- What `handleText` comes to. -/
inductive TextCase (lib : Crypto.Library) (m : Moment) (n : Node) (p : Packet) :
    Bool × Node → Prop
  | elsewhere (henvelope : (DirectEnvelope.decode p.payload).isSome = true)
      (hclosed : ∀ sender plaintext, ¬ OpenedTo lib n p sender plaintext) :
      TextCase lib m n p (true, n)
  | ignored : TextCase lib m n p (false, n)
  | accepted {sender : Contact} {plaintext : Bytes} {msg : TextMessage}
      (hopened : OpenedTo lib n p sender plaintext)
      (hmsg : TextMessage.decode plaintext = some msg) (hknown : KnownText msg.txtType) :
      TextCase lib m n p (false, n.acceptText lib m p sender plaintext msg)

theorem handleText_case (n : Node) (p : Packet) : TextCase lib m n p (n.handleText lib m p) := by
  rw [handleText]
  split
  · exact .ignored
  · next env hdecode =>
    split
    · next hother =>
      exact .elsewhere (by rw [hdecode]; rfl)
        (not_openedTo hdecode fun hours => absurd hours hother)
    · next hours =>
      split
      · next hnone => exact .elsewhere (by rw [hdecode]; rfl) (not_openedTo hdecode fun _ => hnone)
      · next sender plaintext hfound =>
        have hopened : OpenedTo lib n p sender plaintext :=
          ⟨env, hdecode, not_not.mp hours, hfound⟩
        split
        · exact .ignored
        · next msg hmsg =>
          split
          · exact .ignored
          · next hkind => exact .accepted hopened hmsg (by rw [KnownText]; tauto)

/-- A text that opened is accepted if its type is known. -/
theorem handleText_opened {sender : Contact} {plaintext : Bytes} {msg : TextMessage}
    (hopened : OpenedTo lib n p sender plaintext) (hmsg : TextMessage.decode plaintext = some msg) :
    n.handleText lib m p = (false,
      if KnownText msg.txtType then n.acceptText lib m p sender plaintext msg else n) := by
  obtain ⟨env, hdecode, hdest, hfound⟩ := hopened
  rw [handleText, hdecode]
  dsimp only
  rw [if_neg (not_not.mpr hdest), hfound]
  dsimp only
  rw [hmsg]
  dsimp only
  by_cases hknown : KnownText msg.txtType
  · rw [if_pos hknown, if_neg fun h => hknown.elim h.1 fun hrest => hrest.elim h.2.1 h.2.2]
  · rw [if_neg hknown, if_pos ⟨fun h => hknown (.inl h), fun h => hknown (.inr (.inl h)),
      fun h => hknown (.inr (.inr h))⟩]

/-- What completing the send of an ack comes to. -/
inductive CompleteCase (m : Moment) (n : Node) (hash : Bytes) (direct : Bool) :
    Bool × Option Contact × Node → Prop
  | unmatched {client : ReliableSender} (hcomplete : n.air.client.complete hash = (none, client)) :
      CompleteCase m n hash direct (false, none, { n with air := { n.air with client } })
  | matched {done : Completion} {client : ReliableSender} {contacts : ContactStore}
      (hcomplete : n.air.client.complete hash = (some done, client))
      (hcontacts : contacts = if (n.contacts.find done.destPubkey).isSome && direct then
        n.contacts.touch done.destPubkey m.unixNow else n.contacts) :
      CompleteCase m n hash direct (true, n.contacts.find done.destPubkey,
        { n with air := { n.air with client }, contacts }.notify (.ack done.ackHash))

theorem completeAck_case (n : Node) (hash : Bytes) (direct : Bool) :
    CompleteCase m n hash direct (n.completeAck m hash direct) := by
  rw [completeAck]
  split
  · next client hcomplete => exact .unmatched hcomplete
  · next done client hcomplete =>
    have hmatched (contacts : ContactStore) :=
      @CompleteCase.matched m n hash direct done client contacts hcomplete
    dsimp only
    split
    · next hknown => exact hmatched _ (if_pos hknown).symm
    · next hunknown => exact hmatched _ (if_neg hunknown).symm

/-- What `handleAck` comes to. -/
inductive AckCase (lib : Crypto.Library) (m : Moment) (n : Node) (p : Packet) :
    Bool × Node → Prop
  | short (hshort : p.payload.length < kAckHashSize) : AckCase lib m n p (false, n)
  | unmatched {c : Option Contact} {n' : Node} (hlong : kAckHashSize ≤ p.payload.length)
      (hcompletes : n.completeAck m (subview p.payload 0 kAckHashSize) p.isDirect =
        (false, c, n')) : AckCase lib m n p (true, n')
  | completed {c : Option Contact} {n' : Node} (hlong : kAckHashSize ≤ p.payload.length)
      (hcompletes : n.completeAck m (subview p.payload 0 kAckHashSize) p.isDirect =
        (true, c, n')) : AckCase lib m n p (false, n')
  | offered {c : Contact} {n' : Node} (hlong : kAckHashSize ≤ p.payload.length)
      (hcompletes : n.completeAck m (subview p.payload 0 kAckHashSize) p.isDirect =
        (true, some c, n')) (hflood : p.isFlood = true) (hknown : c.pathKnown = true) :
      AckCase lib m n p
        (false, n'.sendPathReturn lib m c p 0 [] (some { path := c.outPath }) kReturnPathRetryMs)

theorem handleAck_case (n : Node) (p : Packet) : AckCase lib m n p (n.handleAck lib m p) := by
  rw [handleAck]
  split
  · next hshort => exact .short hshort
  · next hlong =>
    have hlong := Nat.le_of_not_lt hlong
    split
    · next hcompletes => exact .unmatched hlong hcompletes
    · next hcompletes => exact .completed hlong hcompletes
    · next hcompletes =>
      split
      · next hagain =>
        obtain ⟨hflood, hknown⟩ := Bool.and_eq_true _ _ ▸ hagain
        exact .offered hlong hcompletes hflood hknown
      · exact .completed hlong hcompletes

/-- What `handlePath` comes to. -/
inductive PathCase (lib : Crypto.Library) (m : Moment) (n : Node) (p : Packet) :
    Bool × Node → Prop
  | elsewhere (henvelope : (DirectEnvelope.decode p.payload).isSome = true)
      (hclosed : ∀ sender plaintext, OpenedTo lib n p sender plaintext →
        PathReturn.decode plaintext = none) : PathCase lib m n p (true, n)
  | ignored : PathCase lib m n p (false, n)
  | learned {sender : Contact} {plaintext : Bytes} {ret : PathReturn}
      (hopened : OpenedTo lib n p sender plaintext)
      (hret : PathReturn.decode plaintext = some ret) :
      PathCase lib m n p (false, (n.learnPath m sender ret).completeExtra m p ret)
  | offered {sender : Contact} {plaintext : Bytes} {ret : PathReturn}
      (hopened : OpenedTo lib n p sender plaintext)
      (hret : PathReturn.decode plaintext = some ret) (hflood : p.isFlood = true) :
      PathCase lib m n p
        (false, ((n.learnPath m sender ret).completeExtra m p ret).sendPathReturn lib m sender p 0
          [] (some { path := ret.path, hashSize := ret.pathHashSize }) 0)

theorem handlePath_case (n : Node) (p : Packet) : PathCase lib m n p (n.handlePath lib m p) := by
  rw [handlePath]
  split
  · exact .ignored
  · next env hdecode =>
    split
    · next hother =>
      exact .elsewhere (by rw [hdecode]; rfl) fun sender plaintext hopened =>
        absurd hopened (not_openedTo hdecode (fun hours => absurd hours hother) sender plaintext)
    · next hours =>
      split
      · next hnone =>
        exact .elsewhere (by rw [hdecode]; rfl) fun sender plaintext hopened =>
          absurd hopened (not_openedTo hdecode (fun _ => hnone) sender plaintext)
      · next sender plaintext hfound =>
        have hopened : OpenedTo lib n p sender plaintext :=
          ⟨env, hdecode, not_not.mp hours, hfound⟩
        split
        · next hnone =>
          refine .elsewhere (by rw [hdecode]; rfl) fun sender' plaintext' hopened' => ?_
          rwa [← (hopened.unique hopened').2]
        · next ret hret =>
          dsimp only
          split
          · next hflood => exact .offered hopened hret hflood
          · exact .learned hopened hret

/-- A path that opened is learned, and a flooded one is answered along it. -/
theorem handlePath_opened {sender : Contact} {plaintext : Bytes} {ret : PathReturn}
    (hopened : OpenedTo lib n p sender plaintext) (hret : PathReturn.decode plaintext = some ret) :
    n.handlePath lib m p = (false,
      if p.isFlood then
        ((n.learnPath m sender ret).completeExtra m p ret).sendPathReturn lib m sender p 0 []
          (some { path := ret.path, hashSize := ret.pathHashSize }) 0
      else (n.learnPath m sender ret).completeExtra m p ret) := by
  obtain ⟨env, hdecode, hdest, hfound⟩ := hopened
  rw [handlePath, hdecode]
  dsimp only
  rw [if_neg (not_not.mpr hdest), hfound]
  dsimp only
  rw [hret]
  dsimp only
  split <;> rfl

/-- What `handleGroupText` comes to. -/
inductive GroupTextCase (m : Moment) (n : Node) : Node → Prop
  | ignored : GroupTextCase m n n
  | stored {msg : StoredMessage} (hchannel : msg.isChannel = true) (hnobody : msg.senderPubkey = []) :
      GroupTextCase m n (n.storeMessage m msg)

theorem handleGroupText_case (n : Node) (p : Packet) :
    GroupTextCase m n (n.handleGroupText lib m p) := by
  rw [handleGroupText]
  split
  · exact .ignored
  · split
    · exact .ignored
    · split
      · exact .ignored
      · exact .stored rfl rfl

/-- The four ways through `onPacket`. -/
inductive Way (lib : Crypto.Library) (m : Moment) (n : Node) (p : Packet) : Node → Prop
  | trace (hdirect : p.isDirect = true) (htype : p.type = .trace) :
      Way lib m n p (n.forwardTrace lib m p)
  | zeroHop : Way lib m n p n
  | transit (hdirect : p.isDirect = true) (htrace : p.type ≠ .trace)
      (hcontrol : ¬ (p.type = .control ∧ p.payload.headD 0 &&& 0x80 ≠ 0))
      (hhops : 0 < p.hopCount) : Way lib m n p (n.passOn lib m p)
  | repeated (hhere : p.isFlood = true ∨ p.hopCount = 0) (hasked : (n.handle lib m p).1 = true) :
      Way lib m n p ((n.handle lib m p).2.maybeRepeat lib m p)
  | kept (hhere : p.isFlood = true ∨ p.hopCount = 0) (hasked : (n.handle lib m p).1 = false) :
      Way lib m n p (n.handle lib m p).2

theorem onPacket_way (n : Node) (p : Packet) : Way lib m n p (n.onPacket lib m p) := by
  rw [onPacket]
  split
  · next htrace =>
    simp only [Bool.and_eq_true, decide_eq_true_eq] at htrace
    exact .trace htrace.1 htrace.2
  · next htrace =>
    split
    · exact .zeroHop
    · next hcontrol =>
      split
      · next htransit =>
        simp only [Bool.and_eq_true, decide_eq_true_eq] at htransit
        simp only [htransit.1, Bool.true_and, decide_eq_true_eq] at htrace
        simp only [htransit.1, Bool.true_and, Bool.and_eq_true, decide_eq_true_eq] at hcontrol
        exact .transit htransit.1 htrace hcontrol htransit.2
      · next htransit =>
        have hhere : p.isFlood = true ∨ p.hopCount = 0 := by
          rw [Packet.isDirect_eq_not_isFlood] at htransit
          cases hflood : p.isFlood with
          | true => exact .inl rfl
          | false =>
              right
              simpa [hflood] using htransit
        have hrepeated : (n.handle lib m p).1 = true → _ := fun hasked =>
          Way.repeated (m := m) (n := n) hhere hasked
        have hkept : (n.handle lib m p).1 = false → _ := fun hasked =>
          Way.kept (m := m) (n := n) hhere hasked
        generalize n.handle lib m p = result at hrepeated hkept ⊢
        rcases result with ⟨asked, n'⟩
        cases asked with
        | true => exact hrepeated rfl
        | false => exact hkept rfl

/-- A flood, or a direct packet that has used up its path, is for the handlers. -/
theorem onPacket_local (htrace : p.type ≠ .trace)
    (hcontrol : p.type ≠ .control) (hroute : p.isFlood = true ∨ p.hopCount = 0) :
    n.onPacket lib m p = match n.handle lib m p with
      | (true, n) => n.maybeRepeat lib m p
      | (false, n) => n := by
  have hstill : (p.isDirect && decide (0 < p.hopCount)) = false := by
    rcases hroute with hflood | hempty
    · rw [Packet.isDirect_eq_not_isFlood, hflood]
      rfl
    · simp [hempty]
  rw [onPacket, if_neg (by simp [htrace]), if_neg (by simp [hcontrol])]
  exact if_neg (by rw [hstill]; exact Bool.false_ne_true)

/-- A text is accepted where it arrived, if it opens and its type is known. -/
theorem onPacket_openedText {sender : Contact} {plaintext : Bytes} {msg : TextMessage}
    (htype : p.type = .txtMsg) (hhere : p.isFlood = true ∨ p.hopCount = 0)
    (hopened : OpenedTo lib n p sender plaintext) (hmsg : TextMessage.decode plaintext = some msg) :
    n.onPacket lib m p =
      if KnownText msg.txtType then n.acceptText lib m p sender plaintext msg else n := by
  rw [onPacket_local (by simp [htype]) (by simp [htype]) hhere, handle, htype]
  dsimp only
  rw [handleText_opened hopened hmsg]

/-- A returned path is learned where it arrived. -/
theorem onPacket_openedPath {sender : Contact} {plaintext : Bytes} {ret : PathReturn}
    (htype : p.type = .path) (hhere : p.isFlood = true ∨ p.hopCount = 0)
    (hopened : OpenedTo lib n p sender plaintext) (hret : PathReturn.decode plaintext = some ret) :
    n.onPacket lib m p =
      if p.isFlood then
        ((n.learnPath m sender ret).completeExtra m p ret).sendPathReturn lib m sender p 0 []
          (some { path := ret.path, hashSize := ret.pathHashSize }) 0
      else (n.learnPath m sender ret).completeExtra m p ret := by
  rw [onPacket_local (by simp [htype]) (by simp [htype]) hhere, handle, htype]
  dsimp only
  rw [handlePath_opened hopened hret]

/-! ## Acts -/

/-- One thing that is done to a node for a packet. With `mail` a message can be
delivered and stored. -/
inductive Act (lib : Crypto.Library) (m : Moment) (p : Packet) (mail : Prop) (n : Node) :
    Node → Prop
  | transmit (out : Packet) (priority : UInt8) (delayMs : UInt32) :
      Act lib m p mail n (n.transmit lib m out priority delayMs)
  | applyAdvert (adv : Advert) : Act lib m p mail n (n.applyAdvert m p adv)
  | completeAck (hash : Bytes) (direct : Bool) :
      Act lib m p mail n (n.completeAck m hash direct).2.2
  | learnPath (sender : Contact) (ret : PathReturn) : Act lib m p mail n (n.learnPath m sender ret)
  | hear (sender : Contact) (hmail : mail) :
      Act lib m p mail n
        { n with contacts := n.contacts.touchSignal sender.pubkey m.unixNow p.rssi p.snrQ4 }
  | deliver (sender : Contact) (msg : TextMessage) (hmail : mail) :
      Act lib m p mail n (n.deliver lib m p sender msg)
  | storeMessage (msg : StoredMessage) (hmail : mail) : Act lib m p mail n (n.storeMessage m msg)

/-- Some acts, one after the other. -/
abbrev Acts (lib : Crypto.Library) (m : Moment) (p : Packet) (mail : Prop) : Node → Node → Prop :=
  Relation.ReflTransGen (Act lib m p mail)

variable {mail : Prop} {n' : Node}

theorem Acts.refl (n : Node) : Acts lib m p mail n n := Relation.ReflTransGen.refl

theorem Act.acts (hact : Act lib m p mail n n') : Acts lib m p mail n n' :=
  Relation.ReflTransGen.single hact

theorem Transmits.acts {May : Packet → UInt8 → UInt32 → Prop} (hsent : Transmits lib m n May n') :
    Acts lib m p mail n n' := by
  cases hsent with
  | nothing => exact .refl n
  | one => exact (Act.transmit _ _ _).acts

theorem acts_handleAdvert (n : Node) : Acts lib m p mail n (n.handleAdvert lib m p).2 := by
  have hcase : AdvertCase lib m n p (n.handleAdvert lib m p) := handleAdvert_case n p
  generalize n.handleAdvert lib m p = result at hcase ⊢
  cases hcase with
  | ignored => exact .refl n
  | applied => exact (Act.applyAdvert _).acts

theorem acts_replyTo (n : Node) (sender : Contact) (ack : Bytes) :
    Acts lib m p mail n (n.replyTo lib m p sender ack) := by
  rw [replyTo]
  split
  · exact (transmits_sendPathReturn _ _ _ _ _ _ _).acts
  · split
    · exact (transmits_sendAck _ _ _).acts
    · exact .refl n

theorem acts_handleText (n : Node) (hmail : mail) :
    Acts lib m p mail n (n.handleText lib m p).2 := by
  have hcase : TextCase lib m n p (n.handleText lib m p) := handleText_case n p
  generalize n.handleText lib m p = result at hcase ⊢
  cases hcase with
  | elsewhere => exact .refl n
  | ignored => exact .refl n
  | @accepted sender plaintext msg =>
      exact ((Act.hear sender hmail).acts.tail (.deliver sender msg hmail)).trans
        (acts_replyTo _ sender _)

theorem acts_handleAck (n : Node) : Acts lib m p mail n (n.handleAck lib m p).2 := by
  have hcompleted : Acts lib m p mail n
      (n.completeAck m (subview p.payload 0 kAckHashSize) p.isDirect).2.2 :=
    (Act.completeAck _ _).acts
  have hcase : AckCase lib m n p (n.handleAck lib m p) := handleAck_case n p
  generalize n.handleAck lib m p = result at hcase ⊢
  cases hcase with
  | short => exact .refl n
  | unmatched _ hcompletes =>
      rw [hcompletes] at hcompleted
      exact hcompleted
  | completed _ hcompletes =>
      rw [hcompletes] at hcompleted
      exact hcompleted
  | offered _ hcompletes =>
      rw [hcompletes] at hcompleted
      exact hcompleted.trans (transmits_sendPathReturn _ _ _ _ _ _ _).acts

theorem acts_completeExtra (n : Node) (ret : PathReturn) :
    Acts lib m p mail n (n.completeExtra m p ret) := by
  rw [completeExtra]
  split
  · exact (Act.completeAck _ _).acts
  · exact .refl n

theorem acts_handlePath (n : Node) : Acts lib m p mail n (n.handlePath lib m p).2 := by
  have hlearned (sender : Contact) (ret : PathReturn) :
      Acts lib m p mail n ((n.learnPath m sender ret).completeExtra m p ret) :=
    (Act.learnPath sender ret).acts.trans (acts_completeExtra _ ret)
  have hcase : PathCase lib m n p (n.handlePath lib m p) := handlePath_case n p
  generalize n.handlePath lib m p = result at hcase ⊢
  cases hcase with
  | elsewhere => exact .refl n
  | ignored => exact .refl n
  | learned => exact hlearned _ _
  | offered => exact (hlearned _ _).trans (transmits_sendPathReturn _ _ _ _ _ _ _).acts

theorem acts_handleGroupText (n : Node) (hmail : mail) :
    Acts lib m p mail n (n.handleGroupText lib m p) := by
  have hcase : GroupTextCase m n (n.handleGroupText lib m p) := handleGroupText_case n p
  generalize n.handleGroupText lib m p = n' at hcase ⊢
  cases hcase with
  | ignored => exact .refl n
  | stored => exact (Act.storeMessage _ hmail).acts

/-- Only a text for us and a group text are mail. -/
theorem acts_handle (n : Node) (hmail : p.type = .txtMsg ∨ p.type = .grpTxt → mail) :
    Acts lib m p mail n (n.handle lib m p).2 := by
  rw [handle]
  split
  · exact acts_handleAdvert n
  · next htype => exact acts_handleText n (hmail (.inl htype))
  · exact acts_handleAck n
  · exact acts_handlePath n
  · next htype => exact acts_handleGroupText n (hmail (.inr htype))
  all_goals exact .refl n

theorem acts_passOn (n : Node) : Acts lib m p mail n (n.passOn lib m p) := by
  have hread : Acts lib m p mail n (if p.type = .ack then n.handleAck lib m p else (true, n)).2 := by
    split
    · exact acts_handleAck n
    · exact .refl n
  rw [passOn]
  generalize (if p.type = .ack then n.handleAck lib m p else (true, n)) = result at hread ⊢
  obtain ⟨_ | _, n'⟩ := result
  · exact hread
  · exact hread.trans (transmits_forwardDirect n' p).acts

/-- A packet that is read where it arrived can be mail. -/
theorem acts_onPacket (n : Node) (p : Packet)
    (hmail : p.type = .txtMsg ∨ p.type = .grpTxt → p.isFlood = true ∨ p.hopCount = 0 → mail) :
    Acts lib m p mail n (n.onPacket lib m p) := by
  have hway : Way lib m n p (n.onPacket lib m p) := onPacket_way n p
  generalize n.onPacket lib m p = n' at hway ⊢
  cases hway with
  | trace => exact (transmits_forwardTrace n p).acts
  | zeroHop => exact .refl n
  | transit => exact acts_passOn n
  | repeated hhere =>
      exact (acts_handle n fun htype => hmail htype hhere).trans (transmits_maybeRepeat _ p).acts
  | kept hhere => exact acts_handle n fun htype => hmail htype hhere

/-! ## What is not mail -/

/-- Nothing was delivered, and nothing stored. -/
structure MailKept (n n' : Node) : Prop where
  inbox : n'.inbox = n.inbox
  delivered : n'.delivered = n.delivered

theorem MailKept.refl (n : Node) : MailKept n n := ⟨rfl, rfl⟩

theorem MailKept.trans {n'' : Node} (hfirst : MailKept n n') (hsecond : MailKept n' n'') :
    MailKept n n'' :=
  ⟨hsecond.inbox.trans hfirst.inbox, hsecond.delivered.trans hfirst.delivered⟩

theorem mailKept_act (hact : Act lib m p False n n') : MailKept n n' := by
  cases hact with
  | transmit => exact ⟨rfl, rfl⟩
  | applyAdvert adv =>
      have hcase : ApplyCase m n p adv (n.applyAdvert m p adv) := applyAdvert_case n p adv
      generalize n.applyAdvert m p adv = n' at hcase ⊢
      cases hcase with
      | ignored => exact .refl n
      | noted => exact ⟨rfl, rfl⟩
  | completeAck hash direct =>
      have hcase : CompleteCase m n hash direct (n.completeAck m hash direct) :=
        completeAck_case n hash direct
      generalize n.completeAck m hash direct = result at hcase ⊢
      cases hcase with
      | unmatched => exact ⟨rfl, rfl⟩
      | matched => exact ⟨rfl, rfl⟩
  | learnPath =>
      rw [learnPath]
      split
      · exact ⟨rfl, rfl⟩
      · exact .refl n
  | hear _ hmail => exact hmail.elim
  | deliver _ _ hmail => exact hmail.elim
  | storeMessage _ hmail => exact hmail.elim

theorem mailKept_acts (hacts : Acts lib m p False n n') : MailKept n n' := by
  induction hacts with
  | refl => exact .refl n
  | tail _ hact ih => exact ih.trans (mailKept_act hact)

end Coreletd.Mesh.Node
