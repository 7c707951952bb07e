/-
# What is queued fits the wire

`send` checks a packet once, before it is queued, and nothing changes it
afterwards. So the pump never meets a packet too long for the radio, and its
branch for one is dead code. With the codec's own results this makes the format
exact from end to end.
-/

import Coreletd.Mesh.TransmitResult
import Coreletd.Proto.PacketCodec

namespace Coreletd.Mesh.Dispatcher

open Coreletd.Crypto
open Coreletd.Library
open Coreletd.Proto

universe u v

variable {H : Type u} {σ : Type v} {call : Handler H σ} {d : Dispatcher H σ}

/-- Everything taken on was valid, and nothing was ever dropped for its size. -/
structure Transmittable (d : Dispatcher H σ) : Prop where
  accounted : d.Accounted
  valid : ∀ q, .queued q ∈ d.trace → q.packet.valid = true
  neverOversize : ∀ q time, .dropped q time .oversize ∉ d.trace

/-- Whatever keeps the accounts and adds neither queued nor dropped packets. -/
theorem Transmittable.of_trace (hd : d.Transmittable) {d' : Dispatcher H σ} (hd' : d'.Accounted)
    (hqueued : ∀ q, .queued q ∈ d'.trace → .queued q ∈ d.trace)
    (hdropped : ∀ q time, .dropped q time .oversize ∈ d'.trace →
      .dropped q time .oversize ∈ d.trace) : d'.Transmittable :=
  ⟨hd', fun q hq => hd.valid q (hqueued q hq),
    fun q time hin => hd.neverOversize q time (hdropped q time hin)⟩

theorem Transmittable.quietly (hd : d.Transmittable) {d' : Dispatcher H σ} (hquiet : Quietly d d') :
    d'.Transmittable := by
  refine hd.of_trace (hd.accounted.quietly hquiet) ?_ ?_
  · rw [hquiet.trace]
    exact fun q hq => hq
  · rw [hquiet.trace]
    exact fun q time hq => hq

theorem Transmittable.discard (hd : d.Transmittable) {ahead behind : List (Queued H)}
    {q : Queued H} {reason : DropReason} (hsplit : d.queue = ahead ++ q :: behind)
    (hlong : reason = .oversize → kMaxPacketSize < q.packet.encode.length) :
    (discard call { d with queue := ahead ++ behind } q reason).Transmittable := by
  have hvalid : q.packet.valid = true :=
    hd.valid q (hd.accounted.known q (by rw [hsplit]; simp))
  refine hd.of_trace (hd.accounted.discard hsplit reason) ?_ ?_
  · intro other hother
    rw [discard_trace] at hother
    simpa using hother
  · intro other time hother
    rw [discard_trace] at hother
    have hcases : other = q ∧ time = d.time ∧ reason = .oversize ∨
        .dropped other time .oversize ∈ d.trace := by
      simpa [eq_comm, and_assoc] using hother
    rcases hcases with ⟨-, -, hreason⟩ | hold
    · exact absurd (Packet.length_encode_le_of_valid hvalid) (Nat.not_le.mpr (hlong hreason))
    · exact hold

theorem Transmittable.transmit (hd : d.Transmittable) {ahead behind : List (Queued H)}
    {q : Queued H} {radio : RadioView} (hsplit : d.queue = ahead ++ q :: behind) :
    (transmit call radio { d with queue := ahead ++ behind } q).Transmittable := by
  refine hd.of_trace (hd.accounted.transmit hsplit) ?_ ?_
  · intro other hother
    rwa [queued_mem_transmit] at hother
  · intro other time hother
    rwa [dropped_mem_transmit] at hother

theorem transmittable_step (lib : Library) (hd : d.Transmittable) (event : Event H) :
    (step lib call d event).Transmittable := by
  apply step_rule (fun d hd => hd) (fun d hd => hd.accounted.numbered)
  · exact fun d d' hquiet hd => hd.quietly hquiet
  · exact fun d ahead q behind reason hsplit hlong hd => hd.discard hsplit hlong
  · intro radio _ d d' ahead q behind _ hquiet hselected hd
    exact (hd.quietly hquiet).transmit (hquiet.queue.trans hselected.split)
  · intro p priority delayMs onResult radio _ hvalid d hd
    refine ⟨hd.accounted.inserted rfl, ?_, ?_⟩
    · intro q hq
      rcases List.mem_cons.mp hq with hnew | hold
      · obtain rfl : q = d.entry p priority delayMs onResult := by simpa using hnew
        exact hvalid
      · exact hd.valid q hold
    · intro q time hq
      exact hd.neverOversize q time (by simpa [inserted] using hq)
  · intro ms _ d hd
    exact hd.of_trace { hd.accounted with
      numbered := ⟨hd.accounted.numbered.distinct, hd.accounted.numbered.below⟩ }
      (fun q hq => hq) (fun q time hq => hq)
  · intro airtimeMs random _ d hd
    refine hd.of_trace (hd.accounted.onRadioTxDone airtimeMs random) ?_ ?_
    · intro q hq
      rw [onRadioTxDone, schedulePump_trace] at hq
      simpa using hq
    · intro q time hq
      rw [onRadioTxDone, schedulePump_trace] at hq
      simpa using hq
  · intro percent radio _ d hd
    exact hd.of_trace { hd.accounted with
      numbered := ⟨hd.accounted.numbered.distinct, hd.accounted.numbered.below⟩ }
      (fun q hq => hq) (fun q time hq => hq)
  · exact hd

/-- Nothing is ever dropped for its size. -/
theorem transmittable_run (lib : Library) (call : Handler H σ) (percent : ℚ) (limit : Nat)
    (client : σ) (time : Nat) (events : List (Event H)) :
    (run (step lib call) (new percent limit client time) events).Transmittable := by
  have hstep : ∀ (d : Dispatcher H σ) (event : Event H), d.Transmittable →
      (step lib call d event).Transmittable := fun d event hd => transmittable_step lib hd event
  refine run_invariant hstep ⟨accounted_new percent limit client time, ?_, ?_⟩ events
  · simp [new]
  · simp [new]

/-- **The packet codec is exact.** The decoder accepts exactly the wire format;
what it accepts is valid and encodes to the bytes it came from; a valid packet of
version 0 that carries something fits a transmission and decodes to itself; and
in no run of the dispatcher is a packet found too long behind the check that let
it in. -/
theorem codec_exact (lib : Library) (call : Handler H σ) (percent : ℚ) (limit : Nat) (client : σ)
    (time : Nat) :
    (∀ raw, (Packet.decode raw).isSome = true ↔ ∃ w : Wire, w.WellFormed ∧ raw = w.bytes) ∧
    (∀ raw p, Packet.decode raw = some p → p.valid = true ∧ p.encode = raw) ∧
    (∀ p : Packet, p.payloadVersion = 0 → p.payload ≠ [] → p.valid = true →
      (∃ p', Packet.decode p.encode = some p' ∧ Packet.SameOnAir p p') ∧
        p.encode.length ≤ 255) ∧
    ∀ events q droppedAt, .dropped q droppedAt .oversize ∉
      (run (step lib call) (new percent limit client time) events).trace := by
  refine ⟨?_, ?_, ?_, ?_⟩
  · intro raw
    constructor
    · intro hsome
      obtain ⟨p, hdecode⟩ := Option.isSome_iff_exists.mp hsome
      exact Packet.wellFormed_of_decode hdecode
    · rintro ⟨w, hw, rfl⟩
      rw [Packet.decode_bytes hw]
      rfl
  · intro raw p hdecode
    obtain ⟨w, hw, rfl⟩ := Packet.wellFormed_of_decode hdecode
    obtain rfl : w.packet = p := by
      rw [Packet.decode_bytes hw] at hdecode
      exact Option.some.inj hdecode
    refine ⟨Packet.valid_of_pathFits (Packet.pathFits_of_decode hdecode) hw.payload_le, ?_⟩
    rw [Packet.encode_eq_bytes, Packet.wire_packet hw]
  · intro p hversion hne hvalid
    exact ⟨Packet.decode_encode hversion hne hvalid, Packet.length_encode_le_of_valid hvalid⟩
  · intro events
    exact (transmittable_run lib call percent limit client time events).neverOversize

end Coreletd.Mesh.Dispatcher
