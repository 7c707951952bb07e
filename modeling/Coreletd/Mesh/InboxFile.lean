/-
# Reading back a saved queue

Whatever bytes a message has, its record is free of the separators, and the loader
takes it for the message it was written from, provided the sender's key is one
that a record can name.
-/

import Coreletd.Mesh.Inbox

namespace Coreletd.Mesh

open Coreletd.Crypto Coreletd.Library

/-- What the node makes sure of: a direct message has its sender's key, and a channel
message has none. -/
def StoredMessage.Storable (m : StoredMessage) : Prop :=
  (m.isChannel = true ∧ m.senderPubkey = []) ∨
    (m.isChannel = false ∧ m.senderPubkey.length = kPubKeySize)

instance (m : StoredMessage) : Decidable m.Storable := inferInstanceAs (Decidable (_ ∨ _))

namespace MessageInbox

/-! ## One record -/

theorem tab_not_mem_peer (m : StoredMessage) :
    tab ∉ (if m.senderPubkey = [] then Text.ascii "-" else hex m.senderPubkey) := by
  split
  · decide
  · exact tab_not_mem_hex _

theorem lf_not_mem_peer (m : StoredMessage) :
    lf ∉ (if m.senderPubkey = [] then Text.ascii "-" else hex m.senderPubkey) := by
  split
  · decide
  · exact lf_not_mem_hex _

theorem tab_not_mem_kind (isChannel : Bool) :
    tab ∉ Text.ascii (if isChannel then "channel" else "direct") := by
  cases isChannel <;> decide

theorem lf_not_mem_kind (isChannel : Bool) :
    lf ∉ Text.ascii (if isChannel then "channel" else "direct") := by
  cases isChannel <;> decide

theorem tab_not_mem_recordFields (m : StoredMessage) : ∀ field ∈ recordFields m, tab ∉ field := by
  simp only [recordFields, List.forall_mem_cons, List.not_mem_nil, false_implies, implies_true,
    and_true]
  exact ⟨tab_not_mem_kind _, tab_not_mem_peer m, tab_not_mem_decimal _, tab_not_mem_decimal _,
    tab_not_mem_decimal _, tab_not_mem_decimalInt _, tab_not_mem_decimal _, tab_not_mem_hex _⟩

theorem lf_not_mem_recordFields (m : StoredMessage) : ∀ field ∈ recordFields m, lf ∉ field := by
  simp only [recordFields, List.forall_mem_cons, List.not_mem_nil, false_implies, implies_true,
    and_true]
  exact ⟨lf_not_mem_kind _, lf_not_mem_peer m, lf_not_mem_decimal _, lf_not_mem_decimal _,
    lf_not_mem_decimal _, lf_not_mem_decimalInt _, lf_not_mem_decimal _, lf_not_mem_hex _⟩

theorem parseSigned_int8 (v : Int8) :
    parseSigned (Text.decimalInt v.toInt) (-128) 127 = some v.toInt := by
  have hlow := v.le_toInt
  have hhigh := v.toInt_lt
  rw [parseSigned_decimalInt (by norm_num at *; omega) (by norm_num at *; omega)]
  exact if_pos (by norm_num at *; omega)

theorem parsePeer_written {m : StoredMessage} (hstorable : m.Storable) :
    parsePeer m.isChannel (if m.senderPubkey = [] then Text.ascii "-" else hex m.senderPubkey) =
      .ok m.senderPubkey := by
  rcases hstorable with ⟨hchannel, hsender⟩ | ⟨hdirect, hsender⟩
  · rw [hchannel, hsender]
    rfl
  · have hne : m.senderPubkey ≠ [] := by
      intro hnil
      rw [hnil] at hsender
      exact absurd hsender (by decide)
    have hdash : hex m.senderPubkey ≠ Text.ascii "-" := by
      intro hequal
      have hmem : (45 : UInt8) ∈ hex m.senderPubkey := by
        rw [hequal]
        decide
      exact absurd (nibble_isSome_of_mem_hex hmem) (by decide)
    rw [if_neg hne, parsePeer, if_pos hdash, unhex_hex]
    exact if_neg (not_not.mpr hsender)

theorem parseRecord_recordFields {m : StoredMessage} (hstorable : m.Storable) :
    parseRecord (joinFields (recordFields m)) = .ok m := by
  have hsplit : splitFields (joinFields (recordFields m)) 8 = some (recordFields m) :=
    splitFields_joinFields (recordFields m) (by simp [recordFields]) (tab_not_mem_recordFields m)
  have hfields : parseFields m.isChannel
      (if m.senderPubkey = [] then Text.ascii "-" else hex m.senderPubkey)
      (Text.decimal m.channelIndex.toNat) (Text.decimal m.timestamp.toNat)
      (Text.decimal m.txtType.toNat) (Text.decimalInt m.snrQ4.toInt)
      (Text.decimal m.pathLen.toNat) (hex m.text) = .ok m := by
    simp only [parseFields, parsePeer_written hstorable, parseUnsigned_byte, parseUnsigned_word,
      parseSigned_int8, unhex_hex, UInt8.ofNat_toNat, UInt32.ofNat_toNat, Int8.ofInt_toInt]
  rw [parseRecord, hsplit]
  simp only [recordFields]
  cases hkind : m.isChannel with
  | true =>
      rw [hkind] at hfields
      rw [if_pos (by decide), hfields]
  | false =>
      rw [hkind] at hfields
      rw [if_neg (by decide), if_pos (by decide), hfields]

/-- A record line is neither the header, nor empty, nor a comment. -/
theorem loadLine_recordFields {m : StoredMessage} (hstorable : m.Storable)
    (acc : Bool × List StoredMessage) :
    loadLine acc (joinFields (recordFields m)) = .ok (acc.1, acc.2 ++ [m]) := by
  have hhead : (joinFields (recordFields m)).head? =
      some (if m.isChannel then 99 else 100) := by
    rw [recordFields, joinFields_cons _ (by simp)]
    cases m.isChannel <;> rfl
  have hcomment : (joinFields (recordFields m)).head? ≠ some 35 := by
    rw [hhead]
    cases m.isChannel <;> decide
  have hheader : joinFields (recordFields m) ≠ kHeader := by
    intro hequal
    rw [hequal] at hcomment
    exact hcomment (by decide)
  have hempty : joinFields (recordFields m) ≠ [] := by
    intro hequal
    rw [hequal] at hhead
    cases hhead
  rw [loadLine, if_neg hheader, if_neg (not_or.mpr ⟨hempty, hcomment⟩),
    parseRecord_recordFields hstorable]

/-! ## The whole file -/

/-- The file of these messages. -/
def written (messages : List StoredMessage) : Bytes := fileContent { messages }

theorem fileContent_eq_written (q : MessageInbox) : q.fileContent = written q.messages := rfl

theorem lines_written (messages : List StoredMessage) :
    Text.lines lf (written messages) = fileLines { messages } := by
  apply Text.lines_flatMap
  simp only [fileLines, List.forall_mem_cons, List.forall_mem_map]
  refine ⟨by decide +kernel, by decide +kernel, fun m _ => ?_⟩
  exact lf_not_mem_joinFields (lf_not_mem_recordFields m)

theorem foldlM_loadLine (done todo : List StoredMessage) (hstorable : ∀ m ∈ todo, m.Storable) :
    (todo.map fun m => joinFields (recordFields m)).foldlM loadLine (true, done) =
      .ok (true, done ++ todo) := by
  induction todo generalizing done with
  | nil => simp; rfl
  | cons m todo ih =>
      have hrest := ih (done ++ [m]) fun other hother =>
        hstorable other (List.mem_cons_of_mem _ hother)
      rw [List.map_cons, List.foldlM_cons, loadLine_recordFields (hstorable m List.mem_cons_self)]
      simp only [bind, Except.bind, hrest, List.append_assoc, List.singleton_append]

theorem load_missing {q : MessageInbox} {fs : FileSystem} (hfile : fs q.path = none) :
    q.load fs = (.missing, q) := by
  rw [load, hfile]
  exact ite_self _

/-- The loader takes any file of storable messages, and keeps the newest of them. -/
theorem load_written {q : MessageInbox} {fs : FileSystem} {messages : List StoredMessage}
    (hpath : q.path ≠ []) (hfile : fs q.path = some (written messages))
    (hstorable : ∀ m ∈ messages, m.Storable) :
    q.load fs = (.loaded, { q with
      messages := messages.drop (messages.length - q.limit)
      dropped := q.dropped + UInt32.ofNat (messages.length - q.limit)
      dirty := false }) := by
  have hheader : ∀ acc, loadLine acc kHeader = .ok (true, acc.2) := fun acc => if_pos rfl
  have hcolumns : ∀ acc, loadLine acc columnsLine = .ok acc := by
    intro acc
    rw [loadLine, if_neg (by decide +kernel), if_pos (by decide +kernel)]
  have hrecords := foldlM_loadLine [] messages hstorable
  rw [load, if_neg hpath, hfile]
  simp only [lines_written, fileLines, List.foldlM_cons, hheader, hcolumns, bind, Except.bind,
    hrecords]
  rfl

end MessageInbox

end Coreletd.Mesh
