/-
# Only authenticated traffic changes a node

A packet that proves nothing (an advert whose signature fails or that is our
own, an envelope no key of ours opens, an ack nobody waits for) may be sent on
and does nothing else to the node. Sending it on is not free of side effects:
`send` pumps, and what the pump reports about packets queued earlier arms the
timers of their operations. That is all that can happen to the pending sends.
-/

import Coreletd.Mesh.AckAgreement
import Coreletd.Mesh.Reception

namespace Coreletd.Mesh

open Coreletd.Crypto
open Coreletd.Library
open Coreletd.Proto
open ReliableSender

/-! ## The results a pump reports -/

namespace Air

/-- Since `d`, the sender was changed only by reports: its entries are the same,
and a timer that differs belongs to an operation that was told a result. -/
def Reported (d d' : Air) : Prop :=
  ∃ (fresh : List (TxEvent Nat)) (timer : Pending → Option UInt32),
    d'.trace = fresh ++ d.trace ∧
    d'.client =
      { d.client with pending := d.client.pending.map fun p => { p with timer := timer p } } ∧
    ∀ p ∈ d.client.pending, timer p ≠ p.timer → ∃ seq transmitted,
      .called seq p.id transmitted ∈ fresh

variable {d d' d'' : Air}

theorem Reported.refl (d : Air) : Reported d d := by
  refine ⟨[], (·.timer), rfl, ?_, fun p _ hne => absurd rfl hne⟩
  rw [show (fun p : Pending => { p with timer := p.timer }) = id from rfl, List.map_id]

theorem Reported.retimed (hreported : Reported d d') : Retimed d.client d'.client := by
  obtain ⟨-, timer, -, hclient, -⟩ := hreported
  exact ⟨timer, hclient⟩

/-- More on record, and the sender untouched. -/
theorem Reported.record (hreported : Reported d d') {e : List (TxEvent Nat)}
    (hclient : d''.client = d'.client) (htrace : d''.trace = e ++ d'.trace) :
    Reported d d'' := by
  obtain ⟨fresh, timer, hfresh, htimer, hreason⟩ := hreported
  refine ⟨e ++ fresh, timer, ?_, hclient.trans htimer, fun p hp hne => ?_⟩
  · rw [htrace, hfresh, List.append_assoc]
  · obtain ⟨seq, transmitted, hcalled⟩ := hreason p hp hne
    exact ⟨seq, transmitted, List.mem_append_right _ hcalled⟩

/-- One report. -/
theorem Reported.notify (hreported : Reported d d') (hdistinct : d.client.Distinct)
    (q : Queued Nat) (transmitted : Bool) :
    Reported d (Dispatcher.notify onTxResult d' q transmitted) := by
  rw [Dispatcher.notify]
  split
  · exact hreported
  · next id _ =>
    have hdistinct' := hreported.retimed.distinct hdistinct
    obtain ⟨fresh, timer, hfresh, hclient, hreason⟩ := hreported
    refine ⟨.called q.seq id transmitted :: fresh,
      fun p => timerAfter d'.time id transmitted { p with timer := timer p }, ?_, ?_, ?_⟩
    · rw [hfresh]
      rfl
    · show onTxResult d'.time d'.client id transmitted = _
      rw [onTxResult_eq hdistinct', hclient]
      simp [Function.comp_def]
    · intro p hp hne
      by_cases hid : p.id = id
      · rw [hid]
        exact ⟨q.seq, transmitted, List.mem_cons_self⟩
      · simp only [timerAfter, if_neg hid] at hne
        obtain ⟨seq, told, hcalled⟩ := hreason p hp hne
        exact ⟨seq, told, List.mem_cons_of_mem _ hcalled⟩

theorem Reported.discard (hreported : Reported d d') (hdistinct : d.client.Distinct)
    (q : Queued Nat) (reason : DropReason) (queue : List (Queued Nat)) :
    Reported d (Dispatcher.discard onTxResult { d' with queue } q reason) := by
  rw [Dispatcher.discard]
  apply Reported.notify _ hdistinct
  exact hreported.record (e := [.dropped q d'.time reason]) rfl rfl

theorem Reported.transmit (hreported : Reported d d') (hdistinct : d.client.Distinct)
    (radio : RadioView) (q : Queued Nat) :
    Reported d (Dispatcher.transmit onTxResult radio d' q) := by
  cases hok : radio.sendOk with
  | true =>
      rw [Dispatcher.transmit_accepted _ _ _ hok]
      apply Reported.notify _ hdistinct
      exact hreported.record (e := [.handed q d'.time d'.queue true]) rfl rfl
  | false =>
      rw [Dispatcher.transmit_refused _ _ _ hok]
      refine hreported.record (e := [.handed q d'.time d'.queue false]) ?_ ?_
      · rw [Dispatcher.schedulePump_client]
      · rw [Dispatcher.schedulePump_trace]
        rfl

theorem Reported.pump (hreported : Reported d d') (hdistinct : d.client.Distinct)
    (radio : RadioView) : Reported d (Dispatcher.pump onTxResult radio d') := by
  refine Dispatcher.pump_rule (P := Reported d) (fun _ h => h) ?_ ?_ ?_ hreported
  · intro d' d'' hquiet hd'
    exact hd'.record (e := []) hquiet.client hquiet.trace
  · intro d' ahead q behind reason _ _ hd'
    exact hd'.discard hdistinct q reason _
  · intro d' d'' ahead q behind _ hquiet _ hd'
    refine Reported.transmit (hd'.record (e := []) ?_ ?_) hdistinct radio q
    · exact hquiet.client
    · exact hquiet.trace

/-- All that sending a packet without a handler does to the sender. -/
theorem reported_send (lib : Crypto.Library) (radio : RadioView) (hdistinct : d.client.Distinct)
    (p : Packet) (priority : UInt8) (delayMs : UInt32) :
    Reported d (Dispatcher.send onTxResult lib radio d p priority delayMs none).2 := by
  rw [Dispatcher.send]
  split
  · exact (Reported.refl d).record (e := []) rfl rfl
  · apply Reported.pump _ hdistinct
    have hseen : Reported d (d.checkAndMarkSeen lib p).2 :=
      (Reported.refl d).record (e := []) rfl rfl
    generalize (d.checkAndMarkSeen lib p).2 = d' at hseen ⊢
    generalize d'.entry p priority delayMs none = q
    rw [Dispatcher.enqueue]
    dsimp only
    have hqueued : ∀ queue, Reported d
        { d' with queue, nextSeq := d'.nextSeq + 1, trace := .queued q :: d'.trace } :=
      fun queue => hseen.record (e := [.queued q]) rfl rfl
    split
    · split
      · exact hqueued _
      · exact (hqueued []).discard hdistinct _ _ _
    · exact hqueued _

end Air

/-! ## Packets that prove nothing -/

namespace Node

variable {lib : Crypto.Library} {m : Moment} {n : Node} {p : Packet}

/-- Nothing in the packet shows that somebody we know sent it. -/
structure Unauthenticated (lib : Crypto.Library) (n : Node) (p : Packet) : Prop where
  advert : p.type = .advert → ∀ adv, Advert.decode p.payload = some adv →
    adv.verify lib = false ∨ adv.pubkey = n.identity.pub
  contacts : p.type = .txtMsg ∨ p.type = .path ∨ p.type = .req ∨ p.type = .response →
    ∀ env, DirectEnvelope.decode p.payload = some env → ∀ c ∈ n.contacts.byId env.srcHash,
      macAndDecrypt lib (c.sharedSecret lib n.identity) env.mac env.ciphertext = none
  channels : p.type = .grpTxt ∨ p.type = .grpData →
    ∀ env, GroupEnvelope.decode p.payload = some env →
      ∀ slot ∈ n.channels.byHash lib env.channelHash,
        macAndDecrypt lib slot.2.secret env.mac env.ciphertext = none
  ack : p.type = .ack → n.Unmatched (subview p.payload 0 kAckHashSize)

theorem decryptFrom_eq_none {srcHash : UInt8} {mac ciphertext : Bytes}
    (hclosed : ∀ c ∈ n.contacts.byId srcHash,
      macAndDecrypt lib (c.sharedSecret lib n.identity) mac ciphertext = none) :
    n.decryptFrom lib srcHash mac ciphertext = none := by
  rw [decryptFrom, List.findSome?_eq_none_iff]
  intro c hc
  dsimp only
  rw [hclosed c hc]
  split <;> rfl

theorem openGroup_eq_none {env : GroupEnvelope}
    (hclosed : ∀ slot ∈ n.channels.byHash lib env.channelHash,
      macAndDecrypt lib slot.2.secret env.mac env.ciphertext = none) :
    n.openGroup lib env = none := by
  rw [openGroup, List.findSome?_eq_none_iff]
  intro slot hslot
  dsimp only
  rw [hclosed slot hslot]

/-- No envelope of such a packet opens. -/
theorem Unauthenticated.not_opened (hp : Unauthenticated lib n p)
    (htype : p.type = .txtMsg ∨ p.type = .path) (sender : Contact) (plaintext : Bytes) :
    ¬ OpenedTo lib n p sender plaintext := by
  rintro ⟨env, hdecode, -, hfound⟩
  have hsealed : p.type = .txtMsg ∨ p.type = .path ∨ p.type = .req ∨ p.type = .response :=
    htype.imp_right .inl
  rw [decryptFrom_eq_none (hp.contacts hsealed env hdecode)] at hfound
  simp at hfound

/-- The handlers do nothing to the node but ask for the packet to go on. -/
theorem handle_unauthenticated (hp : Unauthenticated lib n p) : (n.handle lib m p).2 = n := by
  rw [handle]
  split
  · next htype =>
    have hcase : AdvertCase lib m n p (n.handleAdvert lib m p) := handleAdvert_case n p
    generalize n.handleAdvert lib m p = result at hcase ⊢
    cases hcase with
    | ignored => rfl
    | applied hdecode hverify hforeign =>
        rcases hp.advert htype _ hdecode with hforged | hown
        · simp [hforged] at hverify
        · exact absurd hown hforeign
  · next htype =>
    have hcase : TextCase lib m n p (n.handleText lib m p) := handleText_case n p
    generalize n.handleText lib m p = result at hcase ⊢
    cases hcase with
    | elsewhere => rfl
    | ignored => rfl
    | accepted hopened => exact absurd hopened (hp.not_opened (.inl htype) _ _)
  · next htype =>
    rcases handleAck_cases (m := m) (n := n) htype with ⟨-, heq⟩ | ⟨-, -, heq⟩ | ⟨-, hmatched, -⟩
    · rw [heq]
    · rw [heq]
    · exact absurd (hp.ack htype) hmatched
  · next htype =>
    have hcase : PathCase lib m n p (n.handlePath lib m p) := handlePath_case n p
    generalize n.handlePath lib m p = result at hcase ⊢
    cases hcase with
    | elsewhere => rfl
    | ignored => rfl
    | learned hopened => exact absurd hopened (hp.not_opened (.inr htype) _ _)
    | offered hopened => exact absurd hopened (hp.not_opened (.inr htype) _ _)
  · next htype =>
    show n.handleGroupText lib m p = n
    rw [handleGroupText]
    split
    · rfl
    · next env hdecode =>
      rw [openGroup_eq_none (hp.channels (.inl htype) env hdecode)]
  all_goals rfl

/-- Such a packet is ignored, or one copy of it is handed to the dispatcher. -/
theorem onPacket_unauthenticated (hp : Unauthenticated lib n p) :
    n.onPacket lib m p = n ∨ ∃ out priority delayMs, SendsOn lib m n p out ∧
      n.onPacket lib m p = n.transmit lib m out priority delayMs := by
  have hsent : ∀ {may : Packet → Prop} {n' : Node}, SentOn lib m n may n' →
      (∀ out, may out → FloodsOn lib m n p out ∨ PassesOn lib m n p out ∨ TracesOn n p out) →
      n' = n ∨ ∃ out priority delayMs, SendsOn lib m n p out ∧
        n' = n.transmit lib m out priority delayMs := by
    intro may n' hsent hmay
    cases hsent with
    | nothing => exact .inl rfl
    | copy hrelay hon => exact .inr ⟨_, _, _, ⟨hrelay, hmay _ hon⟩, rfl⟩
  have hhandle := handle_unauthenticated (m := m) hp
  have hway : Way lib m n p (n.onPacket lib m p) := onPacket_way n p
  generalize n.onPacket lib m p = n' at hway
  cases hway with
  | trace hdirect htype =>
      exact hsent (sentOn_forwardTrace hdirect htype) fun out hon => .inr (.inr hon)
  | zeroHop => exact .inl rfl
  | transit hdirect htrace hcontrol hhops =>
      rcases passOn_cases (m := m) (n := n) hdirect htrace hcontrol hhops with
        hpassed | ⟨hack, hmatched, -⟩
      · exact hsent hpassed fun out hon => .inr (.inl hon)
      · exact absurd (hp.ack hack) hmatched
  | repeated _ hasked =>
      rw [hhandle]
      refine hsent (sentOn_maybeRepeat n p) fun out hout => .inl ?_
      exact ⟨hout.1, hasked, hout.2.1, hout.2.2⟩
  | kept => exact .inl hhandle

/-- Nothing of the node outside its dispatcher is changed, and nobody is told of
anything. -/
structure Untouched (n n' : Node) : Prop where
  contacts : n'.contacts = n.contacts
  channels : n'.channels = n.channels
  inbox : n'.inbox = n.inbox
  files : n'.files = n.files
  delivered : n'.delivered = n.delivered
  notices : n'.notices = n.notices
  cfg : n'.cfg = n.cfg

/-- A refused packet does not reach the sender. -/
theorem client_send_invalid (lib : Crypto.Library) (radio : RadioView) (d : Air) {out : Packet}
    (hinvalid : out.valid = false) (priority : UInt8) (delayMs : UInt32) :
    (Dispatcher.send onTxResult lib radio d out priority delayMs none).2.client = d.client := by
  rw [Dispatcher.send, if_pos (by simp [hinvalid])]

/-- **Only authenticated traffic changes a node.** In every reachable state, a packet
that proves nothing leaves contacts, channels, inbox and delivered table as they
are and raises no event. Either it is not sent on, and the pending sends too are
as they were; or one copy of it is queued, and the pending sends are the same but
for the retry timers of operations whose attempt the pump then reported on. -/
theorem unauthenticated_touches_nothing (hn : n.Reachable lib) (hp : Unauthenticated lib n p)
    (m : Moment) :
    Untouched n (n.onPacket lib m p) ∧
    ((n.queuedBy lib m p = [] ∧ (n.onPacket lib m p).air.client = n.air.client) ∨
      ∃ out, n.queuedBy lib m p = [out] ∧ CopyOf p out ∧ n.cfg.relay = true ∧
        Air.Reported n.air (n.onPacket lib m p).air) := by
  obtain ⟨limit, hrecorded⟩ := hn.recorded
  rcases onPacket_unauthenticated (m := m) hp with hsame | ⟨out, priority, delayMs, hon, hsent⟩
  · refine ⟨?_, .inl ⟨?_, ?_⟩⟩
    · rw [hsame]
      exact ⟨rfl, rfl, rfl, rfl, rfl, rfl, rfl⟩
    · rw [queuedBy, hsame]
      exact List.map_eq_nil_iff.mpr (Dispatcher.takenOnSince_of_append (List.nil_append _).symm)
    · rw [hsame]
  · refine ⟨?_, ?_⟩
    · rw [hsent]
      exact ⟨rfl, rfl, rfl, rfl, rfl, rfl, rfl⟩
    · rw [queuedBy, hsent, takenOn_nodeTransmit (.refl n)]
      cases hvalid : out.valid with
      | true =>
          exact .inr ⟨out, rfl, hon.copyOf, hon.1,
            Air.reported_send lib m.radio hrecorded.laddered.sound.distinct out priority delayMs⟩
      | false => exact .inl ⟨rfl, client_send_invalid lib m.radio n.air hvalid priority delayMs⟩

/-! ## A forged packet and a text that waits -/

/-- Alice relays. Her text to Bob was queued while her radio was down, and is
there still. -/
def aliceRelaying : Node :=
  run (step Library.transparent) (holding aliceKeys bobKeys.pub)
    [.setRelay true,
      .sendText { pubkey := bobKeys.pub } [104, 105] kTxtPlain 7 RadioView.down]

/-- A group text that no channel of hers opens. -/
def strayGroup : Packet := { type := .grpTxt, payload := [0xAA, 1, 2, 3] }

theorem aliceRelaying_reachable : aliceRelaying.Reachable Library.transparent :=
  ⟨_, _, _, _, _, _, _, _, _, _, _, rfl⟩

theorem strayGroup_unauthenticated :
    Unauthenticated Library.transparent aliceRelaying strayGroup := by
  refine ⟨by simp [strayGroup], by simp [strayGroup], ?_, by simp [strayGroup]⟩
  intro _ env hdecode slot _
  obtain rfl : env = { channelHash := 0xAA, mac := [1, 2], ciphertext := [3] } := by
    have hread : GroupEnvelope.decode strayGroup.payload =
        some { channelHash := 0xAA, mac := [1, 2], ciphertext := [3] } := by decide +kernel
    exact Option.some.inj (hdecode.symm.trans hread)
  rw [macAndDecrypt, if_neg (by decide), if_pos (by decide)]

/-- The stray packet arrives with the radio back up: sending it on first sends the
text, and arms its timer. -/
theorem pending_changes_when_relaying :
    aliceRelaying.Reachable Library.transparent ∧
      Unauthenticated Library.transparent aliceRelaying strayGroup ∧
      (aliceRelaying.onPacket Library.transparent { radio := .idle 50 } strayGroup).air.client.pending
        ≠ aliceRelaying.air.client.pending := by
  refine ⟨aliceRelaying_reachable, strayGroup_unauthenticated, ?_⟩
  intro hsame
  have htimers := congrArg (List.map Pending.timer) hsame
  exact absurd htimers (by decide +kernel)

/-- And that is all that happens to her. -/
theorem unauthenticated_touches_nothing_stray :
    Untouched aliceRelaying
        (aliceRelaying.onPacket Library.transparent { radio := .idle 50 } strayGroup) ∧
      Air.Reported aliceRelaying.air
        (aliceRelaying.onPacket Library.transparent { radio := .idle 50 } strayGroup).air := by
  obtain ⟨huntouched, hquiet | ⟨out, -, -, -, hreported⟩⟩ :=
    unauthenticated_touches_nothing aliceRelaying_reachable strayGroup_unauthenticated
      { radio := .idle 50 }
  · exact absurd hquiet.1 (by decide +kernel)
  · exact ⟨huntouched, hreported⟩

end Node

end Coreletd.Mesh
