/-
# Incremental decoders

A decoder takes the next item off the front of a buffer, or says that it must wait
for more and keeps what it still needs. If no decision of it changes when more
arrives, then the cut of a stream into chunks does not show: the items and the
buffer that is left are those of the whole stream.
-/

import Mathlib.Data.List.Basic

namespace Coreletd.Library

universe u v

variable {α : Type u} {β : Type v} {next : List α → Option β × List α}

/-- What is decided on part of the data stands when more of it arrives. -/
structure Incremental (next : List α → Option β × List α) : Prop where
  item : ∀ {buf rest : List α} {item : β} (more : List α), next buf = (some item, rest) →
    next (buf ++ more) = (some item, rest ++ more)
  wait : ∀ {buf rest : List α} (more : List α), next buf = (none, rest) →
    next (buf ++ more) = next (rest ++ more)
  shrinks : ∀ {buf rest : List α} {item : β}, next buf = (some item, rest) →
    rest.length < buf.length

/-- The decoder has taken what there is to take. -/
def Waits (next : List α → Option β × List α) (buf : List α) : Prop := next buf = (none, buf)

/-- Take items until there is none, for so many turns. -/
def drainFor (next : List α → Option β × List α) : Nat → List α → List β × List α
  | 0, buf => ([], buf)
  | turns + 1, buf =>
      match next buf with
      | (none, rest) => ([], rest)
      | (some item, rest) =>
          let (items, rest) := drainFor next turns rest
          (item :: items, rest)

/-- Take items until there is none. There are no more of them than elements. -/
def drain (next : List α → Option β × List α) (buf : List α) : List β × List α :=
  drainFor next (buf.length + 1) buf

/-- Drain after each chunk. -/
def drainChunks (next : List α → Option β × List α) :
    List α → List (List α) → List β × List α
  | buf, [] => ([], buf)
  | buf, chunk :: chunks =>
      let (items, rest) := drain next (buf ++ chunk)
      let (more, rest) := drainChunks next rest chunks
      (items ++ more, rest)

/-! ## Draining -/

theorem drainFor_none {buf rest : List α} (turns : Nat) (hnext : next buf = (none, rest)) :
    drainFor next (turns + 1) buf = ([], rest) := by
  simp only [drainFor, hnext]

theorem drainFor_some {buf rest : List α} {item : β} (turns : Nat)
    (hnext : next buf = (some item, rest)) :
    drainFor next (turns + 1) buf =
      (item :: (drainFor next turns rest).1, (drainFor next turns rest).2) := by
  simp only [drainFor, hnext]

/-- More turns than elements change nothing. -/
theorem Incremental.drainFor_eq (hnext : Incremental next) {turns : Nat} {buf : List α}
    (hturns : buf.length < turns) : drainFor next turns buf = drain next buf := by
  rw [drain]
  induction hlength : buf.length using Nat.strongRecOn generalizing turns buf with
  | _ length ih =>
      subst hlength
      obtain ⟨turns, rfl⟩ : ∃ less, turns = less + 1 := ⟨turns - 1, by omega⟩
      cases hbuf : next buf with
      | mk taken rest =>
          cases taken with
          | none => rw [drainFor_none _ hbuf, drainFor_none _ hbuf]
          | some item =>
              have hshorter := hnext.shrinks hbuf
              have hless : rest.length < turns := by omega
              rw [drainFor_some _ hbuf, drainFor_some _ hbuf, ih _ hshorter hless rfl,
                ih _ hshorter hshorter rfl]

theorem drain_none {buf rest : List α} (hbuf : next buf = (none, rest)) :
    drain next buf = ([], rest) :=
  drainFor_none _ hbuf

theorem Incremental.drain_some (hnext : Incremental next) {buf rest : List α} {item : β}
    (hbuf : next buf = (some item, rest)) :
    drain next buf = (item :: (drain next rest).1, (drain next rest).2) := by
  rw [drain, drainFor_some _ hbuf, hnext.drainFor_eq (hnext.shrinks hbuf)]

/-- Buffers with the same first item and the same rest drain the same. -/
theorem Incremental.drain_congr (hnext : Incremental next) {buf buf' : List α}
    (hequal : next buf = next buf') : drain next buf = drain next buf' := by
  cases hbuf : next buf' with
  | mk taken rest =>
      cases taken with
      | none => rw [drain_none hbuf, drain_none (hequal.trans hbuf)]
      | some item => rw [hnext.drain_some hbuf, hnext.drain_some (hequal.trans hbuf)]

/-- What a decoder keeps when it waits is what it needs. -/
theorem Incremental.waits (hnext : Incremental next) {buf rest : List α}
    (hbuf : next buf = (none, rest)) : Waits next rest := by
  have hmore := hnext.wait [] hbuf
  simp only [List.append_nil, hbuf] at hmore
  exact hmore.symm

/-- Draining goes by the items that are taken. -/
theorem Incremental.drain_induction (hnext : Incremental next) {motive : List α → Prop}
    (wait : ∀ buf rest, next buf = (none, rest) → motive buf)
    (item : ∀ buf rest item, next buf = (some item, rest) → motive rest → motive buf)
    (buf : List α) : motive buf := by
  induction hlength : buf.length using Nat.strongRecOn generalizing buf with
  | _ length ih =>
      subst hlength
      cases hbuf : next buf with
      | mk taken rest =>
          cases taken with
          | none => exact wait buf rest hbuf
          | some taken => exact item buf rest taken hbuf (ih _ (hnext.shrinks hbuf) rest rfl)

/-- The last call found nothing to take. -/
theorem Incremental.drain_waits (hnext : Incremental next) (buf : List α) :
    Waits next (drain next buf).2 := by
  induction buf using hnext.drain_induction with
  | wait buf rest hbuf =>
      rw [drain_none hbuf]
      exact hnext.waits hbuf
  | item buf rest item hbuf ih =>
      rw [hnext.drain_some hbuf]
      exact ih

/-- What was drained before more arrived is drained with it. -/
theorem Incremental.drain_append (hnext : Incremental next) (buf more : List α) :
    drain next (buf ++ more) =
      ((drain next buf).1 ++ (drain next ((drain next buf).2 ++ more)).1,
        (drain next ((drain next buf).2 ++ more)).2) := by
  induction buf using hnext.drain_induction with
  | wait buf rest hbuf =>
      have hmore := hnext.drain_congr (hnext.wait more hbuf)
      rw [drain_none hbuf, hmore]
      rfl
  | item buf rest item hbuf ih =>
      rw [hnext.drain_some (hnext.item more hbuf), hnext.drain_some hbuf, ih]
      rfl

/-- Chunk by chunk is the same as all at once. -/
theorem Incremental.drainChunks_eq (hnext : Incremental next) {buf : List α}
    (hwaits : Waits next buf) (chunks : List (List α)) :
    drainChunks next buf chunks = drain next (buf ++ chunks.flatten) := by
  induction chunks generalizing buf with
  | nil =>
      rw [drainChunks, List.flatten_nil, List.append_nil, drain_none hwaits]
  | cons chunk chunks ih =>
      have hrest := ih (hnext.drain_waits (buf ++ chunk))
      rw [List.flatten_cons, ← List.append_assoc, hnext.drain_append (buf ++ chunk), ← hrest]
      rfl

end Coreletd.Library
