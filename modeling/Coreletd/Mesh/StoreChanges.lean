/-
# What a reception writes

A received packet can reach the stores in three ways: it changes a contact, which
flags the contacts; it stores a message, which the delegate is told; and it leaves
the channels alone. Whatever else the node does with the packet goes to its
dispatcher.
-/

import Coreletd.Mesh.NodeActs

namespace Coreletd.Mesh

open Coreletd.Crypto
open Coreletd.Library
open Coreletd.Proto

universe u

/-! ## Flags -/

/-- What has changed between two stores is flagged. -/
def Flagged {σ : Type u} (dirty : σ → Bool) (path : σ → Bytes) (s s' : σ) : Prop :=
  s' = s ∨ (dirty s' = true ∧ path s' = path s)

theorem Flagged.refl {σ : Type u} {dirty : σ → Bool} {path : σ → Bytes} (s : σ) :
    Flagged dirty path s s := .inl rfl

theorem Flagged.trans {σ : Type u} {dirty : σ → Bool} {path : σ → Bytes} {s s' s'' : σ}
    (hfirst : Flagged dirty path s s') (hsecond : Flagged dirty path s' s'') :
    Flagged dirty path s s'' := by
  rcases hsecond with rfl | ⟨hdirty, hpath⟩
  · exact hfirst
  · rcases hfirst with rfl | ⟨-, hpath'⟩
    · exact .inr ⟨hdirty, hpath⟩
    · exact .inr ⟨hdirty, hpath.trans hpath'⟩

abbrev ContactStore.Written : ContactStore → ContactStore → Prop := Flagged (·.dirty) (·.path)

abbrev ChannelStore.Written : ChannelStore → ChannelStore → Prop := Flagged (·.dirty) (·.path)

abbrev MessageInbox.Written : MessageInbox → MessageInbox → Prop := Flagged (·.dirty) (·.path)

theorem ChannelStore.written_set (s : ChannelStore) (index : Nat) (ch : Channel) :
    s.Written (s.set index ch) := by
  rw [set]
  split
  · exact .refl s
  · exact .inr ⟨rfl, rfl⟩

theorem MessageInbox.written_pop (q : MessageInbox) : q.Written q.pop.2 := by
  rw [pop]
  split
  · exact .refl q
  · exact .inr ⟨rfl, rfl⟩

/-! ## The contacts -/

namespace ContactStore

variable {s s' : ContactStore}

theorem written_modify (s : ContactStore) (pubkey : Bytes) (f : Contact → Contact) :
    s.Written (s.modify pubkey f) := .inr ⟨rfl, rfl⟩

theorem written_touch (s : ContactStore) (pubkey : Bytes) (now : UInt32) :
    s.Written (s.touch pubkey now) := s.written_modify pubkey _

theorem written_touchSignal (s : ContactStore) (pubkey : Bytes) (now : UInt32)
    (rssi snrQ4 : Int) : s.Written (s.touchSignal pubkey now rssi snrQ4) :=
  s.written_modify pubkey _

theorem written_setPath (s : ContactStore) (pubkey path : Bytes) :
    s.Written (s.setPath pubkey path).2 := by
  rcases s.setPath_cases pubkey path with hsame | hset
  · rw [hsame]
    exact .refl s
  · rw [hset]
    exact s.written_modify pubkey _

theorem written_clearPath (s : ContactStore) (pubkey : Bytes) :
    s.Written (s.clearPath pubkey).2 := by
  rcases s.clearPath_cases pubkey with hsame | hcleared
  · rw [hsame]
    exact .refl s
  · rw [hcleared]
    exact s.written_modify pubkey _

theorem written_upsert {pubkey : Bytes} (hs : s.upsert pubkey = some s') : s.Written s' := by
  obtain ⟨-, rfl⟩ | ⟨-, -, rfl⟩ := upsert_cases hs
  · exact .refl _
  · exact .inr ⟨rfl, rfl⟩

theorem written_applyAdvert {adv : Advert} {app : AdvertAppData} {now : UInt32} {created : Bool}
    (hs : s.applyAdvert adv app now = some (s', created)) : s.Written s' := by
  obtain ⟨upserted, hupsert, rfl⟩ := applyAdvert_writes hs
  exact (written_upsert hupsert).trans (upserted.written_modify _ _)

theorem written_remove {pubkey : Bytes} (hs : s.remove pubkey = some s') : s.Written s' := by
  rw [remove] at hs
  split at hs
  · obtain rfl := Option.some.inj hs
    exact .inr ⟨rfl, rfl⟩
  · cases hs

end ContactStore

/-! ## The inbox -/

/-- A store, as a step of the inbox and the files. -/
def mailStep (io : SaveIo) (mail : MessageInbox × FileSystem) (msg : StoredMessage) :
    MessageInbox × FileSystem :=
  (mail.1.store io mail.2 msg).2

namespace Node

/-- The messages stored between two nodes, of which the delegate is told. -/
def Mailed (io : SaveIo) (n n' : Node) : Prop :=
  ∃ fresh msgs, n'.notices = fresh ++ n.notices ∧
    (n'.inbox, n'.files) = run (mailStep io) (n.inbox, n.files) msgs ∧
    (msgs ≠ [] → Notice.messageStored ∈ fresh)

/-- What a reception does to the stores. -/
structure Receives (io : SaveIo) (n n' : Node) : Prop where
  contacts : n.contacts.Written n'.contacts
  channels : n'.channels = n.channels
  mail : Mailed io n n'

variable {lib : Crypto.Library} {m : Moment} {io : SaveIo} {n n' n'' : Node} {p : Packet}

theorem Mailed.of_notices {fresh : List Notice} (hnotices : n'.notices = fresh ++ n.notices)
    (hinbox : n'.inbox = n.inbox) (hfiles : n'.files = n.files) : Mailed io n n' :=
  ⟨fresh, [], hnotices, by rw [hinbox, hfiles, run_nil], fun hne => absurd rfl hne⟩

/-- The stores are as they were, and the delegate has heard of something else. -/
theorem Receives.of_notices {fresh : List Notice} (hnotices : n'.notices = fresh ++ n.notices)
    (hcontacts : n.contacts.Written n'.contacts) (hchannels : n'.channels = n.channels)
    (hinbox : n'.inbox = n.inbox) (hfiles : n'.files = n.files) : Receives io n n' :=
  ⟨hcontacts, hchannels, .of_notices hnotices hinbox hfiles⟩

/-- All that changed is on its way to the air. -/
theorem Receives.of_air (n : Node) (air : Air) : Receives io n { n with air } :=
  .of_notices (List.nil_append _).symm (.refl _) rfl rfl rfl

theorem Receives.refl (n : Node) : Receives io n n := .of_air n n.air

theorem Receives.of_contacts {contacts : ContactStore} (hwritten : n.contacts.Written contacts) :
    Receives io n { n with contacts } :=
  .of_notices (List.nil_append _).symm hwritten rfl rfl rfl

theorem Receives.notify (n : Node) (notice : Notice) : Receives io n (n.notify notice) :=
  .of_notices (show _ = [notice] ++ n.notices from rfl) (.refl _) rfl rfl rfl

theorem Receives.trans (hfirst : Receives io n n') (hsecond : Receives io n' n'') :
    Receives io n n'' := by
  obtain ⟨fresh, msgs, hnotices, hmail, htold⟩ := hfirst.mail
  obtain ⟨fresh', msgs', hnotices', hmail', htold'⟩ := hsecond.mail
  refine ⟨hfirst.contacts.trans hsecond.contacts, hsecond.channels.trans hfirst.channels,
    fresh' ++ fresh, msgs ++ msgs', ?_, ?_, fun hne => ?_⟩
  · rw [hnotices', hnotices, List.append_assoc]
  · rw [hmail', hmail, run_append]
  · by_cases hnone : msgs' = []
    · refine List.mem_append_right _ (htold fun hmsgs => hne ?_)
      rw [hmsgs, hnone]
      rfl
    · exact List.mem_append_left _ (htold' hnone)

/-! ## A reception -/

theorem receives_applyAdvert (n : Node) (adv : Advert) :
    Receives io n (n.applyAdvert m p adv) := by
  have hcase : ApplyCase m n p adv (n.applyAdvert m p adv) := applyAdvert_case n p adv
  generalize n.applyAdvert m p adv = n' at hcase ⊢
  cases hcase with
  | ignored => exact .refl n
  | @noted app contacts created happlied =>
      have hwritten := (ContactStore.written_applyAdvert happlied).trans
        (contacts.written_touchSignal adv.pubkey m.unixNow p.rssi p.snrQ4)
      exact (Receives.of_contacts hwritten).trans ((Receives.notify _ _).trans (.notify _ _))

theorem receives_storeMessage (n : Node) (msg : StoredMessage) :
    Receives m.io n (n.storeMessage m msg) where
  contacts := .refl _
  channels := rfl
  mail := ⟨[.messageStored], [msg], rfl, rfl, fun _ => List.mem_singleton_self _⟩

theorem receives_deliver (n : Node) (sender : Contact) (msg : TextMessage) :
    Receives m.io n (n.deliver lib m p sender msg) := by
  have hentered (delivered : List (UInt64 × UInt32)) : Receives m.io n { n with delivered } :=
    .of_notices (List.nil_append _).symm (.refl _) rfl rfl rfl
  have hcase : DeliverCase m n (n.deliver lib m p sender msg) := deliver_case n p sender msg
  generalize n.deliver lib m p sender msg = n' at hcase ⊢
  cases hcase with
  | known => exact hentered _
  | stored => exact (hentered _).trans (receives_storeMessage _ _)

theorem receives_completeAck (n : Node) (hash : Bytes) (direct : Bool) :
    Receives io n (n.completeAck m hash direct).2.2 := by
  have hcase : CompleteCase m n hash direct (n.completeAck m hash direct) := completeAck_case n _ _
  generalize n.completeAck m hash direct = result at hcase ⊢
  cases hcase with
  | unmatched => exact .of_air n _
  | @matched done client contacts _ hcontacts =>
      have hwritten : n.contacts.Written contacts := by
        rw [hcontacts]
        split
        · exact ContactStore.written_touch _ _ _
        · exact .refl _
      have hair : Receives io n { n with air := { n.air with client } } := .of_air n _
      have hnoted : Receives io { n with air := { n.air with client } }
          { n with air := { n.air with client }, contacts } := .of_contacts hwritten
      exact hair.trans (hnoted.trans (.notify _ _))

theorem receives_learnPath (n : Node) (sender : Contact) (ret : PathReturn) :
    Receives io n (n.learnPath m sender ret) := by
  rw [learnPath]
  split
  · exact (Receives.of_contacts ((ContactStore.written_setPath _ _ _).trans
      (ContactStore.written_touch _ _ _))).trans (.notify _ _)
  · exact .refl n

theorem receives_act {mail : Prop} (hact : Act lib m p mail n n') : Receives m.io n n' := by
  cases hact with
  | transmit out priority delayMs => exact .of_air n _
  | applyAdvert adv => exact receives_applyAdvert n adv
  | completeAck hash direct => exact receives_completeAck n hash direct
  | learnPath sender ret => exact receives_learnPath n sender ret
  | hear sender => exact .of_contacts (ContactStore.written_touchSignal _ _ _ _ _)
  | deliver sender msg => exact receives_deliver n sender msg
  | storeMessage msg => exact receives_storeMessage n msg

theorem receives_acts {mail : Prop} (hacts : Acts lib m p mail n n') : Receives m.io n n' := by
  induction hacts with
  | refl => exact .refl n
  | tail _ hact ih => exact ih.trans (receives_act hact)

variable (lib m) in
/-- A reception writes to the stores in no other way. -/
theorem receives_receive (n : Node) (raw : Bytes) (rssi snrQ4 : Int) :
    Receives m.io n (n.receive lib raw rssi snrQ4 m) := by
  rw [receive]
  split
  · exact .of_air n _
  · exact (Receives.of_air n _).trans (receives_acts (acts_onPacket _ _ fun _ _ => trivial))

end Node

end Coreletd.Mesh
