/-
# De-framing

`FrameReader::next` as the loop it is written as, and what its decisions have in
common: none of them changes when more bytes arrive. So the cut of a stream into
reads does not show, and what was framed comes back, junk in front of it or not.
-/

import Coreletd.Companion.Frames
import Coreletd.Library.Incremental

namespace Coreletd.Companion

open Coreletd.Library

namespace FrameReader

/-! ## The loop -/

/-- What one turn of the loop comes to. -/
inductive Turn where
  | again (buf : Bytes)
  | done (frame : Option Bytes) (buf : Bytes)

/-- Neither start marker. -/
def isJunk (b : UInt8) : Bool := b != kFrameToDevice && b != kFrameToApp

/-- Drop what is before a marker, then read the header and the body behind it. A
length that cannot be meant costs the marker. -/
def turn (buf : Bytes) : Turn :=
  let buf := buf.dropWhile isJunk
  let r := (Reader.ofBytes buf).skip 1
  let (len, r) := r.u16
  if !r.ok then .done none buf
  else if kMaxFrameSize < len.toNat then .again (buf.drop 1)
  else
    let (body, r) := r.take len.toNat
    if !r.ok then .done none buf else .done (some body) (buf.drop (3 + len.toNat))

/-- `next`, turn by turn; `none` is a loop that has not come to an end. -/
def loop : Nat → Bytes → Option (Option Bytes × Bytes)
  | 0, _ => none
  | turns + 1, buf =>
      match turn buf with
      | .again buf => loop turns buf
      | .done frame buf => some (frame, buf)

/-- Call `next` until it returns nothing. -/
def drain (r : FrameReader) : List Bytes × FrameReader :=
  ((Library.drain scan r.buf).1, { buf := (Library.drain scan r.buf).2 })

/-- Feed the chunks one by one and drain after each. -/
def readChunks : FrameReader → List Bytes → List Bytes × FrameReader
  | r, [] => ([], r)
  | r, chunk :: chunks =>
      let (frames, r) := (r.feed chunk).drain
      let (more, r) := readChunks r chunks
      (frames ++ more, r)

/-- What so many calls of `next` return. -/
def nexts : Nat → FrameReader → List (Option Bytes) × FrameReader
  | 0, r => ([], r)
  | calls + 1, r =>
      let (frame, r) := r.next
      let (frames, r) := nexts calls r
      (frame :: frames, r)

/-! ## What is decided on a buffer -/

/-- The length that two bytes stand for. -/
def frameLength (low high : UInt8) : Nat := (low.toUInt16 ||| (high.toUInt16 <<< 8)).toNat

theorem isJunk_iff (b : UInt8) : isJunk b = true ↔ b ≠ kFrameToDevice ∧ b ≠ kFrameToApp := by
  simp [isJunk]

theorem scan_junk {b : UInt8} (hjunk : isJunk b = true) (rest : Bytes) :
    scan (b :: rest) = scan rest := by
  rw [scan, if_pos ((isJunk_iff b).mp hjunk)]

theorem not_junk {marker : UInt8} (hmarker : isJunk marker = false) :
    ¬ (marker ≠ kFrameToDevice ∧ marker ≠ kFrameToApp) := by
  rw [← isJunk_iff, hmarker]
  exact Bool.false_ne_true

/-- A marker without its length waits for it. -/
theorem scan_short {marker : UInt8} {rest : Bytes} (hmarker : isJunk marker = false)
    (hshort : rest.length < 2) : scan (marker :: rest) = (none, marker :: rest) := by
  rw [scan, if_neg (not_junk hmarker), Reader.u16_short hshort]
  rfl

/-- A marker with its length is given up, waits for its body, or starts a frame. -/
theorem scan_header {marker : UInt8} (hmarker : isJunk marker = false) (low high : UInt8)
    (rest : Bytes) :
    scan (marker :: low :: high :: rest) =
      if kMaxFrameSize < frameLength low high then scan (low :: high :: rest)
      else if rest.length < frameLength low high then (none, marker :: low :: high :: rest)
      else (some (rest.take (frameLength low high)), rest.drop (frameLength low high)) := by
  have hlength : (low.toUInt16 ||| (high.toUInt16 <<< 8)).toNat = frameLength low high := rfl
  rw [scan, if_neg (not_junk hmarker), Reader.u16_cons]
  simp only [hlength]
  by_cases hshort : rest.length < frameLength low high
  · rw [if_pos hshort, Reader.take_ofBytes_short hshort]
    rfl
  · rw [if_neg hshort, Reader.take_ofBytes (Nat.not_lt.mp hshort)]
    simp only [Reader.rest_ofBytes]
    rfl

/-- What is decided on a buffer, whatever follows it. -/
inductive Decision : Bytes → Prop where
  | empty : Decision []
  | skips {b : UInt8} {rest : Bytes} (hscan : ∀ more, scan (b :: rest ++ more) = scan (rest ++ more)) :
      Decision (b :: rest)
  | waits {marker : UInt8} {rest : Bytes} (hmarker : isJunk marker = false)
      (hscan : scan (marker :: rest) = (none, marker :: rest))
      (hlength : (marker :: rest).length < 3 + kMaxFrameSize) : Decision (marker :: rest)
  | frame {buf body rest : Bytes} (hscan : ∀ more, scan (buf ++ more) = (some body, rest ++ more))
      (hlength : rest.length < buf.length) : Decision buf

theorem header_of_length {rest : Bytes} (hlength : ¬ rest.length < 2) :
    ∃ low high body, rest = low :: high :: body := by
  cases rest with
  | nil => simp at hlength
  | cons low rest =>
      cases rest with
      | nil => simp at hlength
      | cons high body => exact ⟨low, high, body, rfl⟩

theorem decision (buf : Bytes) : Decision buf := by
  cases buf with
  | nil => exact .empty
  | cons marker rest =>
      by_cases hjunk : isJunk marker = true
      · exact .skips fun more => scan_junk hjunk (rest ++ more)
      · have hmarker : isJunk marker = false := Bool.eq_false_of_not_eq_true hjunk
        by_cases hshort : rest.length < 2
        · refine .waits hmarker (scan_short hmarker hshort) ?_
          rw [List.length_cons, kMaxFrameSize]
          omega
        · obtain ⟨low, high, body, rfl⟩ := header_of_length hshort
          have hheader := scan_header hmarker low high
          by_cases hmax : kMaxFrameSize < frameLength low high
          · refine .skips fun more => ?_
            exact (hheader (body ++ more)).trans (if_pos hmax)
          · by_cases hpartial : body.length < frameLength low high
            · refine .waits hmarker ?_ ?_
              · rw [hheader, if_neg hmax, if_pos hpartial]
              · simp only [List.length_cons]
                omega
            · have hlength : frameLength low high ≤ body.length := Nat.not_lt.mp hpartial
              let taken := body.take (frameLength low high)
              let left := body.drop (frameLength low high)
              refine @Decision.frame _ taken left (fun more => ?_) ?_
              · have hmore : ¬ (body ++ more).length < frameLength low high := by
                  rw [List.length_append]
                  omega
                refine (hheader (body ++ more)).trans ?_
                rw [if_neg hmax, if_neg hmore, List.take_append_of_le_length hlength,
                  List.drop_append_of_le_length hlength]
              · simp only [left, List.length_drop, List.length_cons]
                omega

/-- What is kept for later: nothing, or a marker and less than the longest frame. -/
def Held (buf : Bytes) : Prop :=
  buf = [] ∨ ∃ marker rest, buf = marker :: rest ∧ isJunk marker = false ∧
    buf.length < 3 + kMaxFrameSize

/-- A scan waits or takes a frame, and does the same whatever follows. -/
theorem scan_cases (buf : Bytes) :
    (∃ rest, scan buf = (none, rest) ∧ Held rest ∧
      ∀ more, scan (buf ++ more) = scan (rest ++ more)) ∨
      ∃ body rest, scan buf = (some body, rest) ∧ rest.length < buf.length ∧
        ∀ more, scan (buf ++ more) = (some body, rest ++ more) := by
  induction buf with
  | nil => exact .inl ⟨[], rfl, .inl rfl, fun more => rfl⟩
  | cons b buf ih =>
      cases decision (b :: buf) with
      | skips hscan =>
          have hskips : scan (b :: buf) = scan buf := by simpa using hscan []
          obtain ⟨rest, hbuf, hheld, hmore⟩ | ⟨body, rest, hbuf, hlength, hmore⟩ := ih
          · exact .inl ⟨rest, hskips.trans hbuf, hheld, fun more => (hscan more).trans (hmore more)⟩
          · exact .inr ⟨body, rest, hskips.trans hbuf, hlength.trans (Nat.lt_succ_self _),
              fun more => (hscan more).trans (hmore more)⟩
      | waits hmarker hscan hlength =>
          exact .inl ⟨_, hscan, .inr ⟨b, buf, rfl, hmarker, hlength⟩, fun more => rfl⟩
      | frame hscan hlength =>
          exact .inr ⟨_, _, by simpa using hscan [], hlength, hscan⟩

/-- Frames are decoded as they arrive. -/
theorem incremental_scan : Incremental scan where
  item {buf rest item} more hbuf := by
    obtain ⟨rest', hnone, -, -⟩ | ⟨body, rest', hsome, -, hmore⟩ := scan_cases buf
    · cases hbuf.symm.trans hnone
    · cases hbuf.symm.trans hsome
      exact hmore more
  wait {buf rest} more hbuf := by
    obtain ⟨rest', hnone, -, hmore⟩ | ⟨body, rest', hsome, -, -⟩ := scan_cases buf
    · cases hbuf.symm.trans hnone
      exact hmore more
    · cases hbuf.symm.trans hsome
  shrinks {buf rest item} hbuf := by
    obtain ⟨rest', hnone, -, -⟩ | ⟨body, rest', hsome, hlength, -⟩ := scan_cases buf
    · cases hbuf.symm.trans hnone
    · cases hbuf.symm.trans hsome
      exact hlength

theorem held_of_scan {buf rest : Bytes} (hbuf : scan buf = (none, rest)) : Held rest := by
  obtain ⟨rest', hnone, hheld, -⟩ | ⟨body, rest', hsome, -, -⟩ := scan_cases buf
  · cases hbuf.symm.trans hnone
    exact hheld
  · cases hbuf.symm.trans hsome

/-! ## The loop ends -/

theorem scan_dropWhile (buf : Bytes) : scan (buf.dropWhile isJunk) = scan buf := by
  induction buf with
  | nil => rfl
  | cons b buf ih =>
      by_cases hjunk : isJunk b = true
      · rw [List.dropWhile_cons_of_pos hjunk, scan_junk hjunk, ih]
      · rw [List.dropWhile_cons_of_neg hjunk]

theorem skip_marker (marker : UInt8) (rest : Bytes) :
    (Reader.ofBytes (marker :: rest)).skip 1 = Reader.ofBytes rest := by
  rw [Reader.skip, Reader.take_ofBytes (by simp)]
  rfl

theorem turn_short {buf rest : Bytes} {marker : UInt8}
    (hbuf : buf.dropWhile isJunk = marker :: rest) (hshort : rest.length < 2) :
    turn buf = .done none (marker :: rest) := by
  rw [turn, hbuf]
  simp only [skip_marker, Reader.u16_short hshort]
  rfl

theorem turn_header {buf body : Bytes} {marker low high : UInt8}
    (hbuf : buf.dropWhile isJunk = marker :: low :: high :: body) :
    turn buf =
      if kMaxFrameSize < frameLength low high then .again (low :: high :: body)
      else if body.length < frameLength low high then .done none (marker :: low :: high :: body)
      else .done (some (body.take (frameLength low high))) (body.drop (frameLength low high)) := by
  have hlength : (low.toUInt16 ||| (high.toUInt16 <<< 8)).toNat = frameLength low high := rfl
  rw [turn, hbuf]
  simp only [skip_marker, Reader.u16_cons, hlength]
  by_cases hshort : body.length < frameLength low high
  · rw [if_pos hshort, Reader.take_ofBytes_short hshort]
    rfl
  · rw [if_neg hshort, Reader.take_ofBytes (Nat.not_lt.mp hshort), Nat.add_comm 3]
    rfl

/-- One turn decides as the scan does, or leaves a shorter buffer to scan. -/
theorem turn_cases (buf : Bytes) :
    turn buf = .done (scan buf).1 (scan buf).2 ∨
      ∃ rest, turn buf = .again rest ∧ rest.length < buf.length ∧ scan rest = scan buf := by
  have hscan := scan_dropWhile buf
  have hlength : (buf.dropWhile isJunk).length ≤ buf.length := (List.dropWhile_suffix _).length_le
  cases hbuf : buf.dropWhile isJunk with
  | nil =>
      refine .inl ?_
      rw [← hscan, turn, hbuf]
      rfl
  | cons marker rest =>
      have hmarker : isJunk marker = false := by
        have hhead := List.head?_dropWhile_not isJunk buf
        simpa [hbuf] using hhead
      rw [hbuf] at hscan hlength
      by_cases hshort : rest.length < 2
      · rw [scan_short hmarker hshort] at hscan
        exact .inl (by rw [turn_short hbuf hshort, ← hscan])
      · obtain ⟨low, high, body, rfl⟩ := header_of_length hshort
        rw [scan_header hmarker] at hscan
        rw [turn_header hbuf]
        by_cases hmax : kMaxFrameSize < frameLength low high
        · rw [if_pos hmax] at hscan
          exact .inr ⟨_, if_pos hmax, hlength, hscan⟩
        · refine .inl ?_
          rw [if_neg hmax] at hscan ⊢
          rw [← hscan]
          split <;> rfl

/-- There are no more turns than bytes, and the loop comes to what the scan does. -/
theorem loop_eq_scan {turns : Nat} {buf : Bytes} (hturns : buf.length < turns) :
    loop turns buf = some (scan buf) := by
  induction turns generalizing buf with
  | zero => exact absurd hturns (Nat.not_lt_zero _)
  | succ turns ih =>
      obtain hdone | ⟨rest, hagain, hlength, hscan⟩ := turn_cases buf
      · rw [loop, hdone]
      · rw [loop, hagain, ← hscan]
        exact ih (by omega)

/-! ## Chunks -/

theorem waits_empty : Waits scan [] := rfl

theorem readChunks_eq (r : FrameReader) (chunks : List Bytes) :
    r.readChunks chunks =
      ((drainChunks scan r.buf chunks).1, { buf := (drainChunks scan r.buf chunks).2 }) := by
  induction chunks generalizing r with
  | nil => rfl
  | cons chunk chunks ih =>
      have hrest := ih (r.feed chunk).drain.2
      simp only [readChunks, hrest]
      rfl

theorem nexts_succ (r : FrameReader) (calls : Nat) :
    r.nexts (calls + 1) = (r.next.1 :: (r.next.2.nexts calls).1, (r.next.2.nexts calls).2) := rfl

theorem next_of_scan {buf rest : Bytes} {frame : Option Bytes} (hbuf : scan buf = (frame, rest)) :
    ({ buf } : FrameReader).next = (frame, { buf := rest }) := by
  rw [next, hbuf]

/-- Draining is calling `next` until it returns nothing. -/
theorem nexts_drain (r : FrameReader) :
    r.nexts (r.drain.1.length + 1) = (r.drain.1.map some ++ [none], r.drain.2) := by
  obtain ⟨buf⟩ := r
  induction buf using incremental_scan.drain_induction with
  | wait buf rest hbuf =>
      rw [drain, drain_none hbuf, nexts_succ, next_of_scan hbuf]
      rfl
  | item buf rest item hbuf ih =>
      have hdrain : ({ buf } : FrameReader).drain =
          (item :: ({ buf := rest } : FrameReader).drain.1,
            ({ buf := rest } : FrameReader).drain.2) := by
        rw [drain, incremental_scan.drain_some hbuf]
        rfl
      rw [hdrain, nexts_succ, next_of_scan hbuf, List.length_cons, ih]
      rfl

/-- How a stream is cut into reads does not show: the frames and what is left of the
buffer are those of the whole stream. No call of `next` goes on for ever, and what it
leaves when it returns nothing is nothing, or starts with a marker and is less than a
frame. -/
theorem deframing_ignores_cuts (stream : Bytes) (first second : List Bytes)
    (hfirst : first.flatten = stream) (hsecond : second.flatten = stream) :
    (({} : FrameReader).readChunks first = ({} : FrameReader).readChunks second ∧
      ({} : FrameReader).readChunks first = (({} : FrameReader).feed stream).drain) ∧
    (∀ r : FrameReader,
      r.nexts (r.drain.1.length + 1) = (r.drain.1.map some ++ [none], r.drain.2)) ∧
    (∀ r : FrameReader, loop (r.buf.length + 1) r.buf = some (r.next.1, r.next.2.buf)) ∧
    ∀ r after : FrameReader, r.next = (none, after) →
      after.buf = [] ∨ ∃ marker rest, after.buf = marker :: rest ∧
        (marker = kFrameToDevice ∨ marker = kFrameToApp) ∧
        after.buf.length < 3 + kMaxFrameSize := by
  have hchunks : ∀ chunks : List Bytes, chunks.flatten = stream →
      ({} : FrameReader).readChunks chunks = (({} : FrameReader).feed stream).drain := by
    intro chunks hstream
    rw [readChunks_eq, incremental_scan.drainChunks_eq waits_empty, hstream]
    rfl
  refine ⟨⟨(hchunks first hfirst).trans (hchunks second hsecond).symm, hchunks first hfirst⟩,
    nexts_drain, fun r => loop_eq_scan (Nat.lt_succ_self _), ?_⟩
  intro r after hnext
  have hscan : scan r.buf = (none, after.buf) := by
    obtain ⟨hframe, hbuf⟩ := Prod.mk.inj hnext
    rw [← hbuf]
    exact Prod.ext hframe rfl
  obtain hempty | ⟨marker, rest, hbuf, hmarker, hlength⟩ := held_of_scan hscan
  · exact .inl hempty
  · have hnot := not_junk hmarker
    exact .inr ⟨marker, rest, hbuf, by grind, hlength⟩

/-- A frame with junk before it and a bad length behind, byte by byte and in one
piece. -/
theorem deframing_ignores_cuts_resync :
    ({} : FrameReader).readChunks
        [[0xAA], [kFrameToDevice], [2], [0, 22], [3, kFrameToApp, 0xFF], [0xFF, kFrameToDevice]] =
      ({} : FrameReader).readChunks
        [[0xAA, kFrameToDevice, 2, 0, 22, 3, kFrameToApp, 0xFF, 0xFF, kFrameToDevice]] :=
  (deframing_ignores_cuts _ _ _ rfl rfl).1.1

/-! ## Round trip -/

theorem scan_junk_append {junk : Bytes}
    (hjunk : ∀ b ∈ junk, b ≠ kFrameToDevice ∧ b ≠ kFrameToApp) (rest : Bytes) :
    scan (junk ++ rest) = scan rest := by
  induction junk with
  | nil => rfl
  | cons b junk ih =>
      rw [List.cons_append, scan_junk ((isJunk_iff b).mpr (hjunk b List.mem_cons_self))]
      exact ih fun other hother => hjunk other (List.mem_cons_of_mem _ hother)

/-- A frame is taken whole, and nothing of what follows. -/
theorem scan_frameResponse {payload : Bytes} (hsize : payload.length ≤ kMaxFrameSize)
    (rest : Bytes) : scan (frameResponse payload ++ rest) = (some payload, rest) := by
  have hword : payload.length < 65536 := lt_of_le_of_lt hsize (by decide)
  have hlength : frameLength (UInt16.ofNat payload.length).toUInt8
      (UInt16.ofNat payload.length >>> 8).toUInt8 = payload.length := by
    rw [frameLength, join_putU16, UInt16.toNat_ofNat_of_lt' hword]
  have hmarker : isJunk kFrameToApp = false := rfl
  have hheader := scan_header hmarker (UInt16.ofNat payload.length).toUInt8
    (UInt16.ofNat payload.length >>> 8).toUInt8 (payload ++ rest)
  rw [hlength, if_neg (Nat.not_lt.mpr hsize), if_neg (by simp), List.take_left, List.drop_left]
    at hheader
  rw [frameResponse, putU16]
  simpa using hheader

theorem nexts_frames {payloads : List Bytes}
    (hsize : ∀ payload ∈ payloads, payload.length ≤ kMaxFrameSize) :
    ({ buf := payloads.flatMap frameResponse } : FrameReader).nexts (payloads.length + 1) =
      (payloads.map some ++ [none], {}) := by
  induction payloads with
  | nil => rfl
  | cons payload payloads ih =>
      have hscan := scan_frameResponse (hsize payload List.mem_cons_self)
        (payloads.flatMap frameResponse)
      rw [List.flatMap_cons, List.length_cons, nexts_succ, next_of_scan hscan,
        ih fun other hother => hsize other (List.mem_cons_of_mem _ hother)]
      rfl

/-- What was framed comes back, in order and nothing more, with whatever junk without a
marker in front of it. -/
theorem framing_round_trip (junk : Bytes) (payloads : List Bytes)
    (hjunk : ∀ b ∈ junk, b ≠ kFrameToDevice ∧ b ≠ kFrameToApp)
    (hsize : ∀ payload ∈ payloads, payload.length ≤ kMaxFrameSize) :
    (({} : FrameReader).feed (junk ++ payloads.flatMap frameResponse)).nexts
        (payloads.length + 1) =
      (payloads.map some ++ [none], {}) := by
  have hnext : ({ buf := junk ++ payloads.flatMap frameResponse } : FrameReader).next =
      ({ buf := payloads.flatMap frameResponse } : FrameReader).next := by
    rw [next, next, scan_junk_append hjunk]
  have hframes := nexts_frames hsize
  rw [nexts_succ] at hframes ⊢
  rw [feed, List.nil_append, hnext]
  exact hframes

/-- Two junk bytes, an empty payload and one full of markers. -/
theorem framing_round_trip_markers :
    (({} : FrameReader).feed ([0xAA, 0xBB] ++
        [[], [kFrameToApp, kFrameToDevice, 0xFF]].flatMap frameResponse)).nexts 3 =
      ([some [], some [kFrameToApp, kFrameToDevice, 0xFF], none], {}) :=
  framing_round_trip [0xAA, 0xBB] [[], [kFrameToApp, kFrameToDevice, 0xFF]]
    (by simp [kFrameToApp, kFrameToDevice]) (by simp [kMaxFrameSize])

end FrameReader

end Coreletd.Companion
