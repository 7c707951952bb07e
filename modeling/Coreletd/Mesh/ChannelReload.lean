/-
# Reading back a saved channel file

A record goes to the slot it came from, and a slot without one is left empty, so the
loader rebuilds the slots whatever their names are. What changes is a name that would
not stay on its line.
-/

import Coreletd.Mesh.ChannelFile
import Coreletd.Mesh.ContactFile

namespace Coreletd.Mesh

open Coreletd.Library

/-- A line of the channel file, and the slot it fills. -/
def ChannelRecord (line : Bytes) (slot : Nat × Channel) : Prop :=
  ∃ index key,
    splitFields line 3 = some [index, key, slot.2.name] ∧
    parseUnsigned index (kMaxChannels - 1) = some slot.1 ∧
    unhex key = some slot.2.secret ∧ slot.2.secret.length = 16

theorem ChannelRecord.slot_lt {line : Bytes} {slot : Nat × Channel}
    (hrecord : ChannelRecord line slot) : slot.1 < kMaxChannels := by
  obtain ⟨index, key, -, hslot, -⟩ := hrecord
  exact Nat.lt_of_le_pred (by decide) (of_parseUnsigned hslot)

/-- What of a channel a file keeps: the key and the name on one line, or nothing. -/
def Channel.persisted (ch : Channel) : Channel :=
  if ch.valid then { ch with name := ContactStore.sanitise ch.name } else {}

namespace ChannelStore

/-! ## Fields hold no separator -/

theorem tab_not_mem_recordFields (index : Nat) (ch : Channel) :
    ∀ field ∈ recordFields index ch, tab ∉ field := by
  simp only [recordFields, List.forall_mem_cons, List.not_mem_nil, false_implies, implies_true,
    and_true]
  exact ⟨tab_not_mem_decimal _, tab_not_mem_hex _, ContactStore.not_mem_sanitise (.inl rfl) _⟩

theorem lf_not_mem_recordFields (index : Nat) (ch : Channel) :
    ∀ field ∈ recordFields index ch, lf ∉ field := by
  simp only [recordFields, List.forall_mem_cons, List.not_mem_nil, false_implies, implies_true,
    and_true]
  exact ⟨lf_not_mem_decimal _, lf_not_mem_hex _, ContactStore.not_mem_sanitise (.inr rfl) _⟩

/-- The loader's lines are the lines `save` wrote. -/
theorem lines_fileContent (s : ChannelStore) : Text.lines lf s.fileContent = s.fileLines := by
  apply Text.lines_flatMap
  simp only [fileLines, List.forall_mem_cons, List.forall_mem_map]
  refine ⟨by decide +kernel, by decide +kernel, fun slot _ => ?_⟩
  exact lf_not_mem_joinFields (lf_not_mem_recordFields _ _)

/-! ## One record -/

theorem loadRecord_recordFields {index : Nat} (hindex : index < kMaxChannels) {ch : Channel}
    (hvalid : ch.valid = true) {loading : Loading}
    (hfree : loading.occupied.getD index false = false) :
    loadRecord loading (joinFields (recordFields index ch)) =
      .ok { loading with
        channels := loading.channels.set index ch.persisted
        occupied := loading.occupied.set index true } := by
  have hsplit : splitFields (joinFields (recordFields index ch)) 3 = some (recordFields index ch) :=
    splitFields_joinFields (recordFields index ch) (by simp [recordFields])
      (tab_not_mem_recordFields index ch)
  have hslot : parseUnsigned (Text.decimal index) (kMaxChannels - 1) = some index :=
    parseUnsigned_decimal (Nat.le_pred_of_lt hindex) (by decide)
  have hsecret : ch.secret.length = 16 := by simpa [Channel.valid] using hvalid
  rw [loadRecord, hsplit]
  simp only [recordFields, hslot, hfree, Bool.false_eq_true, if_false, unhex_hex, hsecret, ne_eq,
    not_true_eq_false, Channel.persisted, hvalid, if_true]

/-- A record that is accepted fills a slot that was free. -/
theorem loadRecord_fills {loading next : Loading} {line : Bytes}
    (hline : loadRecord loading line = .ok next) :
    ∃ slot ch, ChannelRecord line (slot, ch) ∧ loading.occupied.getD slot false = false ∧
      next = { loading with
        channels := loading.channels.set slot ch
        occupied := loading.occupied.set slot true } := by
  rw [loadRecord] at hline
  split at hline
  next index key name hsplit =>
    split at hline
    next => cases hline
    next slot hslot =>
      split at hline
      · cases hline
      · rename_i hvacant
        split at hline
        next => cases hline
        next secret hkey =>
          split at hline
          · cases hline
          · rename_i hlength
            exact ⟨slot, ⟨name, secret⟩, ⟨index, key, hsplit, hslot, hkey, not_not.mp hlength⟩,
              Bool.eq_false_of_not_eq_true hvacant, (Except.ok.inj hline).symm⟩
  next => cases hline

/-- A record line is neither the header, nor empty, nor a comment. -/
theorem loadLine_recordFields (index : Nat) (ch : Channel) (loading : Loading) :
    loadLine loading (joinFields (recordFields index ch)) =
      loadRecord loading (joinFields (recordFields index ch)) := by
  obtain ⟨digit, digits, hdigits⟩ := List.exists_cons_of_ne_nil (Text.decimal_ne_nil index)
  have hhead : (joinFields (recordFields index ch)).head? = some digit := by
    rw [recordFields, joinFields_cons _ (by simp), hdigits]
    rfl
  have hdigit : Text.isDigit digit = true :=
    Text.isDigit_of_mem_decimal (hdigits ▸ List.mem_cons_self)
  have hcomment : (joinFields (recordFields index ch)).head? ≠ some 35 := by
    rw [hhead]
    rintro hequal
    rw [Option.some.inj hequal] at hdigit
    exact absurd hdigit (by decide)
  have hheader : joinFields (recordFields index ch) ≠ headerLine := by
    intro hequal
    rw [hequal] at hcomment
    exact hcomment (by decide)
  have hempty : joinFields (recordFields index ch) ≠ [] := by
    intro hequal
    rw [hequal] at hhead
    cases hhead
  rw [loadLine, if_neg hheader, if_neg (not_or.mpr ⟨hempty, hcomment⟩)]

/-! ## The whole file -/

/-- The lines of these slots, the first of them numbered `index`. -/
def slotLines (index : Nat) (channels : List Channel) : List Bytes :=
  ((channels.zipIdx index).filter (·.1.valid)).map fun slot =>
    joinFields (recordFields slot.2 slot.1)

/-- A file as far as the slots `done` have been read. -/
def loadedSlots (done : List Channel) (left : Nat) : Loading where
  sawHeader := true
  channels := done.map Channel.persisted ++ List.replicate left {}
  occupied := done.map Channel.valid ++ List.replicate left false

/-- Slot by slot: one that is left out was going to be empty. -/
theorem foldlM_loadLine (done todo : List Channel) (hroom : (done ++ todo).length ≤ kMaxChannels) :
    (slotLines done.length todo).foldlM loadLine (loadedSlots done todo.length) =
      .ok (loadedSlots (done ++ todo) 0) := by
  induction todo generalizing done with
  | nil => rw [List.append_nil]; rfl
  | cons ch todo ih =>
    have hassoc : done ++ ch :: todo = (done ++ [ch]) ++ todo := by simp
    have hrest := ih (done ++ [ch]) (hassoc ▸ hroom)
    rw [List.length_append, List.length_singleton, ← hassoc] at hrest
    have hindex : done.length < kMaxChannels := by
      rw [List.length_append, List.length_cons] at hroom
      omega
    rw [slotLines, List.zipIdx_cons]
    cases hvalid : ch.valid with
    | false =>
      have hskip :
          loadedSlots done (ch :: todo).length = loadedSlots (done ++ [ch]) todo.length := by
        simp [loadedSlots, Channel.persisted, hvalid, List.replicate_succ]
      rw [List.filter_cons_of_neg (by simp [hvalid]), hskip]
      exact hrest
    | true =>
      have hfree :
          (loadedSlots done (ch :: todo).length).occupied.getD done.length false = false := by
        simp [loadedSlots, List.replicate_succ]
      have hwritten : ({ loadedSlots done (ch :: todo).length with
          channels := (loadedSlots done (ch :: todo).length).channels.set done.length ch.persisted
          occupied := (loadedSlots done (ch :: todo).length).occupied.set done.length true } :
            Loading) = loadedSlots (done ++ [ch]) todo.length := by
        simp [loadedSlots, hvalid, List.replicate_succ]
      rw [List.filter_cons_of_pos (by simp [hvalid]), List.map_cons, List.foldlM_cons,
        loadLine_recordFields, loadRecord_recordFields hindex hvalid hfree, hwritten]
      exact hrest

/-- Any store at the path reads the file as what was persisted of the slots. -/
theorem load_written {s t : ChannelStore} (hslots : s.channels.length = kMaxChannels)
    {fs : FileSystem} (hpath : t.path ≠ []) (hfile : fs t.path = some s.fileContent) :
    t.load fs = (.loaded,
      { t with channels := s.channels.map Channel.persisted, dirty := false }) := by
  have hheader : loadLine {} headerLine = .ok (loadedSlots [] kMaxChannels) := if_pos rfl
  have hcolumns : ∀ loading, loadLine loading columnsLine = .ok loading := by
    intro loading
    rw [loadLine, if_neg (by decide +kernel), if_pos (by decide +kernel)]
  have hrecords := foldlM_loadLine [] s.channels hslots.le
  rw [hslots] at hrecords
  rw [load, if_neg hpath, hfile]
  simp only [lines_fileContent, fileLines, List.foldlM_cons, hheader, hcolumns, bind, Except.bind]
  rw [← slotLines]
  simp only [List.length_nil] at hrecords
  simp only [hrecords]
  simp [loadedSlots]

end ChannelStore

end Coreletd.Mesh
