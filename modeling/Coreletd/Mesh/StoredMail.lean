/-
# What the node stores

A packet puts at most one message into the queue, and it is one that the queue's
file can hold: a direct text carries the key of the contact that opened it, a
group text carries none.
-/

import Coreletd.Mesh.ContactFile
import Coreletd.Mesh.Delivery
import Coreletd.Mesh.InboxFile

namespace Coreletd.Mesh.Node

open Coreletd.Crypto Coreletd.Proto

variable {lib : Crypto.Library} {m : Moment} {n n' : Node} {p : Packet}

/-- The queue is as it was, or has been given one storable message. -/
def StoresOne (m : Moment) (n n' : Node) : Prop :=
  n'.inbox = n.inbox ∨
    ∃ msg : StoredMessage, msg.Storable ∧ n'.inbox = (n.inbox.store m.io n.files msg).2.1

theorem StoresOne.then {n' n'' : Node} (hstores : StoresOne m n n')
    (hinbox : n''.inbox = n'.inbox) : StoresOne m n n'' := by
  rcases hstores with hsame | ⟨msg, hmsg, hstored⟩
  · exact .inl (hinbox.trans hsame)
  · exact .inr ⟨msg, hmsg, hinbox.trans hstored⟩

/-! ## What is stored -/

theorem storedFrom_storable {sender : Contact} (hsender : sender.Storable) (msg : TextMessage) :
    (storedFrom p sender msg).Storable :=
  .inr ⟨rfl, hsender.pubkey_length⟩

theorem storesOne_deliver {sender : Contact} (hsender : sender.Storable) (msg : TextMessage) :
    StoresOne m n (n.deliver lib m p sender msg) := by
  cases hknown : n.isDelivered (deliveryKey lib sender msg) with
  | true =>
      rw [deliver_known hknown]
      exact .inl rfl
  | false =>
      rw [deliver_new hknown, makeRoom_eq]
      exact .inr ⟨_, storedFrom_storable hsender msg, rfl⟩

theorem storesOne_acceptText {sender : Contact} (hsender : sender.Storable) (plaintext : Bytes)
    (msg : TextMessage) : StoresOne m n (n.acceptText lib m p sender plaintext msg) := by
  let contacts := n.contacts.touchSignal sender.pubkey m.unixNow p.rssi p.snrQ4
  have hdelivered : StoresOne m n ({ n with contacts }.deliver lib m p sender msg) :=
    storesOne_deliver hsender msg
  exact hdelivered.then (mailKept_acts (acts_replyTo (p := p) _ sender _)).inbox

/-- Whoever opened a packet is a contact. -/
theorem mem_of_decryptFrom {srcHash : UInt8} {mac ciphertext : Bytes} {found : Contact × Bytes}
    (hfound : n.decryptFrom lib srcHash mac ciphertext = some found) :
    found.1 ∈ n.contacts.contacts := by
  rw [decryptFrom] at hfound
  obtain ⟨c, hmem, hopens⟩ := List.exists_of_findSome?_eq_some hfound
  dsimp only at hopens
  split at hopens
  · exact absurd hopens (by simp)
  · obtain ⟨plaintext, -, rfl⟩ := Option.map_eq_some_iff.mp hopens
    exact List.mem_of_mem_filter hmem

theorem OpenedTo.mem {sender : Contact} {plaintext : Bytes}
    (hopened : OpenedTo lib n p sender plaintext) : sender ∈ n.contacts.contacts := by
  obtain ⟨env, -, -, hfound⟩ := hopened
  exact mem_of_decryptFrom hfound

theorem storesOne_handleText (hcontacts : ∀ c ∈ n.contacts.contacts, c.Storable) :
    StoresOne m n (n.handleText lib m p).2 := by
  have hcase : TextCase lib m n p (n.handleText lib m p) := handleText_case n p
  generalize n.handleText lib m p = result at hcase ⊢
  cases hcase with
  | elsewhere => exact .inl rfl
  | ignored => exact .inl rfl
  | accepted hopened => exact storesOne_acceptText (hcontacts _ hopened.mem) _ _

theorem storesOne_handleGroupText : StoresOne m n (n.handleGroupText lib m p) := by
  have hcase : GroupTextCase m n (n.handleGroupText lib m p) := handleGroupText_case n p
  generalize n.handleGroupText lib m p = n' at hcase ⊢
  cases hcase with
  | ignored => exact .inl rfl
  | stored hchannel hnobody => exact .inr ⟨_, .inl ⟨hchannel, hnobody⟩, rfl⟩

theorem storesOne_handle (hcontacts : ∀ c ∈ n.contacts.contacts, c.Storable) :
    StoresOne m n (n.handle lib m p).2 := by
  rw [handle]
  split
  · exact .inl (mailKept_acts (acts_handleAdvert n)).inbox
  · exact storesOne_handleText hcontacts
  · exact .inl (mailKept_acts (acts_handleAck n)).inbox
  · exact .inl (mailKept_acts (acts_handlePath n)).inbox
  · exact storesOne_handleGroupText
  all_goals exact .inl rfl

/-- A received packet stores at most one message, and one that a file can hold. -/
theorem storesOne_onPacket (hcontacts : ∀ c ∈ n.contacts.contacts, c.Storable) :
    StoresOne m n (n.onPacket lib m p) := by
  have hway : Way lib m n p (n.onPacket lib m p) := onPacket_way n p
  generalize n.onPacket lib m p = n' at hway ⊢
  cases hway with
  | trace => exact .inl (mailKept_acts (p := p) (transmits_forwardTrace n p).acts).inbox
  | zeroHop => exact .inl rfl
  | transit => exact .inl (mailKept_acts (acts_passOn n)).inbox
  | repeated =>
      exact (storesOne_handle hcontacts).then (mailKept_acts (p := p) (transmits_maybeRepeat _ p).acts).inbox
  | kept => exact storesOne_handle hcontacts

end Coreletd.Mesh.Node
