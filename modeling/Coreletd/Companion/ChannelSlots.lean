/-
# The channel slots come back

Frames fill and clear the slots, and files replace them all. There are eight of them
throughout, and whatever they hold, a file written from them loads as the same keys in
the same slots.
-/

import Coreletd.Companion.Commands
import Coreletd.Library.Runs
import Coreletd.Mesh.ChannelReload

namespace Coreletd.Companion

open Coreletd.Library
open Coreletd.Mesh

/-! ## Runs -/

/-- What happens to the slots. A save changes nothing but the dirty flag. -/
inductive SlotOp
  | setChannel (args : Bytes)
  | load (fs : FileSystem) (badAfter : Option Nat)
  | save (io : SaveIo) (fs : FileSystem)

/-- A frame that is refused and a file that is not accepted leave the slots. -/
def slotStep (s : ChannelStore) : SlotOp → ChannelStore
  | .setChannel args =>
      match readChannel args with
      | none => s
      | some (index, ch) => s.set index ch
  | .load fs badAfter => (s.load fs badAfter).2
  | .save io fs => (s.save io fs).2.1

/-- The store after a run from its construction. -/
def slotsAfter (path : Bytes) (ops : List SlotOp) : ChannelStore := run slotStep { path } ops

/-! ## There are eight of them -/

/-- Eight slots, over the file the store was made for. -/
structure Eight (path : Bytes) (s : ChannelStore) : Prop where
  slots : s.channels.length = kMaxChannels
  path : s.path = path

theorem eight_set {path : Bytes} {s : ChannelStore} (hs : Eight path s) (index : Nat)
    (ch : Channel) : Eight path (s.set index ch) := by
  rw [ChannelStore.set]
  split
  · exact hs
  · exact ⟨(List.length_set ..).trans hs.slots, hs.path⟩

theorem length_loadLine {loading next : ChannelStore.Loading} {line : Bytes}
    (hline : ChannelStore.loadLine loading line = .ok next) :
    next.channels.length = loading.channels.length := by
  rw [ChannelStore.loadLine] at hline
  split at hline
  · obtain rfl := Except.ok.inj hline
    rfl
  · split at hline
    · obtain rfl := Except.ok.inj hline
      rfl
    · obtain ⟨slot, ch, -, -, rfl⟩ := ChannelStore.loadRecord_fills hline
      exact List.length_set ..

theorem eight_load {path : Bytes} {s : ChannelStore} (hs : Eight path s) (fs : FileSystem)
    (badAfter : Option Nat) : Eight path (s.load fs badAfter).2 := by
  rw [ChannelStore.load]
  split
  · exact hs
  · split
    · exact hs
    next content hcontent =>
      dsimp only
      split
      · exact hs
      next loading hfold =>
        split
        · exact hs
        · split
          · exact hs
          · refine ⟨?_, hs.path⟩
            exact foldlM_invariant (fun l => l.channels.length = kMaxChannels)
              (fun line _ state next hstate hnext => (length_loadLine hnext).trans hstate)
              (List.length_replicate ..) hfold

theorem eight_slotStep {path : Bytes} (s : ChannelStore) (op : SlotOp) (hs : Eight path s) :
    Eight path (slotStep s op) := by
  cases op with
  | setChannel args =>
    rw [slotStep]
    split
    · exact hs
    · exact eight_set hs _ _
  | load fs badAfter => exact eight_load hs fs badAfter
  | save io fs =>
    rw [slotStep, ChannelStore.save]
    split
    · exact ⟨hs.slots, hs.path⟩
    · exact hs

theorem eight_slotsAfter (path : Bytes) (ops : List SlotOp) : Eight path (slotsAfter path ops) := by
  have hinit : Eight path { path } := ⟨rfl, rfl⟩
  exact run_invariant eight_slotStep hinit ops

/-! ## Through the file -/

/-- What a slot is after a restart: the same key and so the same hash, under the name on
one line, or not valid as before. -/
structure SlotKept (ch reloaded : Channel) : Prop where
  valid : reloaded.valid = ch.valid
  secret : ch.valid = true → reloaded.secret = ch.secret
  hash : ∀ lib, reloaded.hash lib = ch.hash lib
  name : ch.valid = true → reloaded.name = ContactStore.sanitise ch.name

theorem slotKept_persisted (ch : Channel) : SlotKept ch ch.persisted := by
  cases hvalid : ch.valid with
  | false =>
    have hempty : ch.persisted = {} := by rw [Channel.persisted, hvalid]; rfl
    rw [hempty]
    refine ⟨by rw [hvalid]; decide, fun h => ?_, fun lib => ?_, fun h => ?_⟩
    · rw [hvalid] at h; cases h
    · rw [Channel.hash, Channel.hash, hvalid]
      rfl
    · rw [hvalid] at h; cases h
  | true =>
    have hkept : ch.persisted = { ch with name := ContactStore.sanitise ch.name } := by
      rw [Channel.persisted, hvalid]
      rfl
    rw [hkept]
    exact ⟨rfl, fun _ => rfl, fun _ => rfl, fun _ => rfl⟩

/-- **The channels survive a restart**, after every run of frames and files: what a
successful save installs is accepted by a fresh store, slot by slot as it was. -/
theorem channels_roundTrip (path : Bytes) (ops : List SlotOp) (io : SaveIo) (fs : FileSystem)
    {s' : ChannelStore} {fs' : FileSystem}
    (hsaved : (slotsAfter path ops).save io fs = (true, s', fs')) :
    ∃ reloaded : ChannelStore,
      ({ path } : ChannelStore).load fs' = (.loaded, reloaded) ∧
      ∀ index < kMaxChannels, ∃ ch ch',
        (slotsAfter path ops).channels[index]? = some ch ∧ reloaded.channels[index]? = some ch' ∧
          SlotKept ch ch' := by
  obtain ⟨hslots, hpath⟩ := eight_slotsAfter path ops
  rw [ChannelStore.save] at hsaved
  split at hsaved
  next installed hcontent =>
    obtain ⟨-, hpair⟩ := Prod.mk.inj hsaved
    obtain ⟨-, rfl⟩ := Prod.mk.inj hpair
    rw [hpath] at hcontent
    have hne : path ≠ [] := by
      rintro rfl
      rw [saveContent, if_pos rfl] at hcontent
      cases hcontent
    refine ⟨_, ChannelStore.load_written (t := { path }) hslots hne
      (saveContent_installs hcontent), fun index hindex => ?_⟩
    have hslot := List.getElem?_eq_getElem (hslots ▸ hindex)
    refine ⟨_, _, hslot, ?_, slotKept_persisted _⟩
    rw [List.getElem?_map, hslot]
    rfl
  next => cases hsaved

/-- A frame for slot 3 and one that clears slot 0, saved. -/
theorem channels_roundTrip_cleared :
    let path := Text.ascii "channels"
    let ops : List SlotOp :=
      [.setChannel ([3] ++ putPadded [67, 9, 68] 32 ++ List.replicate 16 0xA7),
        .setChannel ([0] ++ putPadded [] 48)]
    let saved := (slotsAfter path ops).save {} fun _ => none
    saved.1 = true ∧
      ∃ reloaded : ChannelStore,
        ({ path } : ChannelStore).load saved.2.2 = (.loaded, reloaded) ∧
        ∀ index < kMaxChannels, ∃ ch ch',
          (slotsAfter path ops).channels[index]? = some ch ∧
            reloaded.channels[index]? = some ch' ∧ SlotKept ch ch' := by
  intro path ops saved
  have hok : saved.1 = true := by decide +kernel
  exact ⟨hok, channels_roundTrip path ops {} (fun _ => none) (Prod.ext hok rfl)⟩

end Coreletd.Companion
