/-
# The order of transmission

The queue is sorted by priority, expiry and sequence number, and the pump takes
the first packet whose backoff is over. Insertion, eviction, expiry and a
transmission from the middle all keep it sorted. A refused packet goes to the
front wherever it was taken from, which keeps the order only when nothing stood
before it.
-/

import Coreletd.Mesh.TransmitFreshness

namespace Coreletd.Mesh

open Coreletd.Crypto
open Coreletd.Library
open Coreletd.Library.SerialClock
open Coreletd.Proto

universe u v

variable {H : Type u} {σ : Type v} {call : Dispatcher.Handler H σ} {radio : RadioView}

namespace Queued

/-- The intended order, in true time: priority, then expiry, then sequence. -/
def Precedes (a b : Queued H) : Prop :=
  a.priority < b.priority ∨ a.priority = b.priority ∧
    (a.expiresAt < b.expiresAt ∨ a.expiresAt = b.expiresAt ∧ a.seq < b.seq)

instance (a b : Queued H) : Decidable (Precedes a b) :=
  inferInstanceAs (Decidable (_ ∨ _ ∧ (_ ∨ _ ∧ _)))

/-- Against packets queued less than 2^31 ms ago, a new packet's comparison in
the search is that of the priorities. -/
theorem before_new {q other : Queued H} (hpast : other.queuedAt ≤ q.queuedAt)
    (hnear : q.queuedAt < other.queuedAt + 2 ^ 31) (hseq : other.seq < q.seq) :
    q.before other = decide (q.priority < other.priority) := by
  rw [before]
  by_cases hpriority : q.priority = other.priority
  · -- Equal priorities: the older packet expires first, or was numbered first.
    have hexpiry : signed (q.expiryMs - other.expiryMs) = (q.queuedAt : Int) - other.queuedAt := by
      have hlifetime := congrArg UInt8.toNat hpriority
      rw [expiryMs_eq, expiryMs_eq, signed_sub_of_near (by rw [expiresAt, expiresAt]; omega)
        (by rw [expiresAt, expiresAt]; omega), expiresAt, expiresAt]
      omega
    have hirrefl : ¬ q.priority < other.priority := by
      rw [hpriority]
      exact UInt8.lt_irrefl _
    rw [if_neg (not_not.mpr hpriority), hexpiry]
    split
    · simp only [hirrefl, decide_false, decide_eq_false_iff_not]
      omega
    · simp only [hirrefl, decide_false, decide_eq_false_iff_not]
      omega
  · rw [if_pos hpriority]

end Queued

namespace Dispatcher

/-- The queue is in order. -/
def Sorted (queue : List (Queued H)) : Prop := queue.Pairwise Queued.Precedes

/-- Allowed to go out at `time`: backoff over and lifetime not. -/
def Eligible (time : Nat) (q : Queued H) : Prop :=
  q.queuedAt + q.delayMs.toNat ≤ time ∧ time < q.expiresAt

/-- Whatever the radio accepted went before no packet that was allowed to go out
and is more urgent, or as urgent and older. -/
def AcceptedInOrder (trace : List (TxEvent H)) : Prop :=
  ∀ q time others, .handed q time others true ∈ trace → ∀ other ∈ others,
    Eligible time other →
      ¬ other.priority < q.priority ∧ ¬ (other.priority = q.priority ∧ other.seq < q.seq)

/-- Every queued packet was queued less than 2^31 ms ago, and where the radio will
refuse a packet, the first that is alive is not backing off before one whose
backoff is over. -/
def RefusedFromFront (lib : Library) (call : Handler H σ) (d : Dispatcher H σ) (event : Event H) :
    Prop :=
  (∀ q ∈ d.queue, d.time < q.queuedAt + 2 ^ 31) ∧
    ∀ radio d', entering lib call d event = some (radio, d') → radio.sendOk = false →
      ∀ ahead first behind, d'.queue = ahead ++ first :: behind →
        (∀ gone ∈ ahead, gone.expiresAt ≤ d'.time) → d'.time < first.expiresAt →
        (∃ q ∈ behind, q.due d'.nowMs = true) → first.due d'.nowMs = true

variable {d : Dispatcher H σ}

/-- A packet ahead in order is at least as urgent, and older if as urgent. -/
theorem precedes_order (hd : d.Sane) {a b : Queued H} (ha : a ∈ d.queue) (hb : b ∈ d.queue)
    (hprecedes : a.Precedes b) :
    ¬ b.priority < a.priority ∧ ¬ (b.priority = a.priority ∧ b.seq < a.seq) := by
  rcases hprecedes with hlt | ⟨hequal, hexpiry⟩
  · refine ⟨fun hgt => absurd hgt (UInt8.lt_asymm hlt), fun ⟨hsame, _⟩ => ?_⟩
    rw [hsame] at hlt
    exact absurd hlt (UInt8.lt_irrefl _)
  · refine ⟨fun hgt => ?_, fun ⟨_, hseq⟩ => ?_⟩
    · rw [hequal] at hgt
      exact absurd hgt (UInt8.lt_irrefl _)
    · -- The numbers follow the clock, so an earlier expiry is an earlier number.
      have holder := hd.ordered b hb a ha hseq
      have hlifetime := congrArg UInt8.toNat hequal
      rcases hexpiry with hless | ⟨-, hless⟩
      · rw [Queued.expiresAt, Queued.expiresAt] at hless
        omega
      · omega

/-- Insertion keeps the order. -/
theorem sorted_inserted (hd : d.Sane) (hnumbered : d.Numbered) (hsorted : Sorted d.queue)
    (hnear : ∀ q ∈ d.queue, d.time < q.queuedAt + 2 ^ 31) (p : Packet) (priority : UInt8)
    (delayMs : UInt32) (onResult : Option H) :
    Sorted (d.inserted (d.entry p priority delayMs onResult)).queue := by
  have hbefore : ∀ other ∈ d.queue,
      (d.entry p priority delayMs onResult).before other = decide (priority < other.priority) :=
    fun other hother => Queued.before_new (hd.past other hother) (hnear other hother)
      (hnumbered.below other hother)
  refine pairwise_insertAtUpperBound hsorted ?_ ?_ ?_
  · intro other hother hyes
    rw [hbefore other hother] at hyes
    exact .inl (of_decide_eq_true hyes)
  · intro other hother hno
    rw [hbefore other hother] at hno
    have hnot := of_decide_eq_false hno
    rcases UInt8.lt_or_eq_of_le (UInt8.not_lt.mp hnot) with hlt | hequal
    · exact .inl hlt
    · refine .inr ⟨hequal, ?_⟩
      have hpast := hd.past other hother
      have hseq := hnumbered.below other hother
      have hlifetime := congrArg UInt8.toNat hequal
      show other.queuedAt + 10000 * other.priority.toNat < d.time + 10000 * priority.toNat ∨
        other.queuedAt + 10000 * other.priority.toNat = d.time + 10000 * priority.toNat ∧
          other.seq < d.nextSeq
      omega
  · intro first hfirst second hsecond hprecedes hyes
    rw [hbefore first hfirst] at hyes
    rw [hbefore second hsecond]
    have hlt := of_decide_eq_true hyes
    refine decide_eq_true ?_
    rcases hprecedes with hless | ⟨hequal, -⟩
    · exact UInt8.lt_trans hlt hless
    · rw [← hequal]
      exact hlt

/-- The pump is entered with a sorted queue. -/
theorem sorted_entering {lib : Library} {d' : Dispatcher H σ} {event : Event H}
    (hnumbered : d.Numbered) (hd : d.Sane) (hsorted : Sorted d.queue)
    (hnear : ∀ q ∈ d.queue, d.time < q.queuedAt + 2 ^ 31)
    (hentering : entering lib call d event = some (radio, d')) : Sorted d'.queue := by
  rcases entering_cases hnumbered hentering with
    ⟨-, hqueue, -⟩ | ⟨p, priority, delayMs, onResult, marked, -, hquiet, hkept⟩
  · rw [hqueue]
    exact hsorted
  · rw [← hquiet.queue] at hsorted hnear
    rw [← hquiet.time] at hnear
    have hinserted := sorted_inserted (hd.quietly hquiet) (hnumbered.quietly hquiet) hsorted hnear p
      priority delayMs onResult
    rcases hkept with rfl | ⟨ahead, chosen, behind, hsplit, rfl⟩
    · exact hinserted
    · rw [discard_queue]
      rw [hsplit] at hinserted
      exact hinserted.sublist ((List.sublist_cons_self chosen behind).append_left ahead)

/-- A packet the pump passes over is not allowed to go out yet. -/
theorem not_eligible_of_waiting {q : Queued H} {time : Nat} (hnear : time < q.queuedAt + 2 ^ 31)
    (hpast : q.queuedAt ≤ time) (hwaiting : q.due (reading time) = false) : ¬ Eligible time q := by
  rintro ⟨hover, -⟩
  have hdue : q.due (reading time) = true := by
    rw [Queued.due, Queued.notBeforeMs, reading_add_word, decide_eq_true_eq]
    exact (signed_sub_nonpos_iff (by omega) (by omega)).mpr hover
  rw [hwaiting] at hdue
  simp at hdue

/-- Where the first packet alive is due whenever any is, the pump passes nothing
over: it would be alive and backing off. -/
theorem nothing_ahead (call : Handler H σ) (hd : d.Sane)
    (hnear : ∀ q ∈ d.queue, d.time < q.queuedAt + 2 ^ 31) {ahead behind : List (Queued H)}
    {q : Queued H}
    (hselected : Selected radio (dropExpired call d.nowMs d.queue d) ahead q behind)
    (hfront : ∀ ahead first behind, d.queue = ahead ++ first :: behind →
      (∀ gone ∈ ahead, gone.expiresAt ≤ d.time) → d.time < first.expiresAt →
      (∃ q ∈ behind, q.due d.nowMs = true) → first.due d.nowMs = true) : ahead = [] := by
  have hleft := dropExpired_queue call d.nowMs d.queue d
  have hnow : (dropExpired call d.nowMs d.queue d).nowMs = d.nowMs := by
    rw [nowMs, (dropExpired_trace call d.nowMs d.queue d).1]
    rfl
  have hexpired : ∀ other ∈ d.queue,
      other.expired d.nowMs = true ↔ other.expiresAt ≤ d.time :=
    fun other hother => Queued.expired_iff (hd.past other hother) (by
      have hsoon := hnear other hother
      rw [Queued.expiresAt]
      omega)
  cases hahead : ahead with
  | nil => rfl
  | cons first rest =>
      rw [hahead] at hselected
      have hsplit : d.queue =
          d.queue.takeWhile (·.expired d.nowMs) ++ first :: (rest ++ q :: behind) := by
        rw [← List.cons_append, ← hselected.split, hleft, List.takeWhile_append_dropWhile]
      have hfirst : first ∈ d.queue := by
        rw [hsplit]
        simp
      have halive : d.time < first.expiresAt := by
        have hhead := List.head?_dropWhile_not (·.expired d.nowMs) d.queue
        rw [← hleft, hselected.split] at hhead
        have hnot : first.expired d.nowMs = false := by simpa using hhead
        by_contra hdead
        rw [(hexpired first hfirst).mpr (Nat.le_of_not_lt hdead)] at hnot
        simp at hnot
      have hgone : ∀ gone ∈ d.queue.takeWhile (·.expired d.nowMs), gone.expiresAt ≤ d.time :=
        fun gone hmem => (hexpired gone ((List.takeWhile_sublist _).subset hmem)).mp
          (List.mem_takeWhile_imp hmem)
      have hready := hfront _ first _ hsplit hgone halive
        ⟨q, by simp, by rw [← hnow]; exact hselected.due⟩
      have hwaiting := hselected.waiting first List.mem_cons_self
      rw [hnow, hready] at hwaiting
      simp at hwaiting

/-- The pump keeps the order and transmits in it. -/
theorem sorted_pump (call : Handler H σ) (radio : RadioView) (hd : d.Sane)
    (hsorted : Sorted d.queue)
    (hnear : ∀ q ∈ d.queue, d.time < q.queuedAt + 2 ^ 31) (horder : AcceptedInOrder d.trace)
    (hfront : radio.sendOk = false → ∀ ahead first behind, d.queue = ahead ++ first :: behind →
      (∀ gone ∈ ahead, gone.expiresAt ≤ d.time) → d.time < first.expiresAt →
      (∃ q ∈ behind, q.due d.nowMs = true) → first.due d.nowMs = true) :
    Sorted (pump call radio d).queue ∧ AcceptedInOrder (pump call radio d).trace := by
  have htime := (dropExpired_trace call d.nowMs d.queue d).1
  have hnow : (dropExpired call d.nowMs d.queue d).nowMs = reading d.time := by
    rw [nowMs, htime]
  have hleft := dropExpired_queue call d.nowMs d.queue d
  have hsub : (dropExpired call d.nowMs d.queue d).queue.Sublist d.queue := by
    rw [hleft]
    exact List.dropWhile_sublist _
  have hkept : Sorted (dropExpired call d.nowMs d.queue d).queue :=
    List.Pairwise.sublist hsub hsorted
  have hdropped : AcceptedInOrder (dropExpired call d.nowMs d.queue d).trace :=
    fun q time others hin =>
      horder q time others ((dropExpired_trace _ _ _ _).2 q time others true hin)
  rcases pump_cases call radio hd with
    hsame | hheld | ⟨d', ahead, q, behind, hquiet, hselected, hsent⟩
  · rw [hsame]
    exact ⟨hsorted, horder⟩
  · rw [hheld.queue, hheld.trace]
    exact ⟨hkept, hdropped⟩
  · rw [hselected.split] at hkept hsub
    rw [← hquiet.trace] at hdropped
    have htime' : d'.time = d.time := hquiet.time.trans htime
    have hrest : Sorted (ahead ++ behind) :=
      List.Pairwise.sublist ((List.sublist_cons_self q behind).append_left ahead) hkept
    cases hok : radio.sendOk with
    | true =>
        rw [hsent, transmit_queue, if_pos hok]
        refine ⟨hrest, fun accepted time others hin other hother heligible => ?_⟩
        rcases (handed_mem_transmit _ _ _).mp hin with ⟨rfl, rfl, rfl, -⟩ | hold
        · rw [htime'] at heligible
          rcases List.mem_append.mp hother with hahead | hbehind
          · have hin : other ∈ d.queue := hsub.subset (List.mem_append_left _ hahead)
            refine absurd heligible (not_eligible_of_waiting (hnear other hin) (hd.past other hin) ?_)
            rw [← hnow]
            exact hselected.waiting other hahead
          · have hpair := (List.pairwise_cons.mp (List.pairwise_append.mp hkept).2.1).1 other hbehind
            exact precedes_order hd (hsub.subset (by simp)) (hsub.subset (by simp [hbehind])) hpair
        · exact hdropped accepted time others hold other hother heligible
    | false =>
        rw [hsent, transmit_refused _ _ _ hok, schedulePump_queue, schedulePump_trace]
        refine ⟨?_, fun accepted time others hin =>
          hdropped accepted time others (by simpa using hin)⟩
        have hnone : ahead = [] := nothing_ahead call hd hnear hselected (hfront hok)
        rw [hnone] at hkept ⊢
        exact hkept

/-- What holds along a run in which packets are refused only from the front. -/
structure Orderly (d : Dispatcher H σ) : Prop where
  accounted : d.Accounted
  sane : d.Sane
  sorted : Sorted d.queue
  order : AcceptedInOrder d.trace

theorem Orderly.step (lib : Library) (hd : d.Orderly) {event : Event H}
    (hfront : RefusedFromFront lib call d event) : (step lib call d event).Orderly := by
  have hsane := sane_step lib call hd.accounted hd.sane event
  cases hentering : entering lib call d event with
  | none =>
      obtain ⟨hqueue, -, htrace⟩ := step_of_not_entering hentering
      refine ⟨accounted_step lib call hd.accounted event, hsane, ?_, ?_⟩
      · rw [hqueue]
        exact hd.sorted
      · rcases htrace with hsame | ⟨time, airtimeMs, hdone⟩
        · rw [hsame]
          exact hd.order
        · rw [hdone]
          exact fun q time others hin => hd.order q time others (by simpa using hin)
  | some entered =>
      obtain ⟨radio, d'⟩ := entered
      obtain ⟨hsane', htime, hmem⟩ := sane_entering hd.accounted.numbered hd.sane hentering
      have hnear : ∀ q ∈ d'.queue, d'.time < q.queuedAt + 2 ^ 31 := by
        intro q hq
        rw [htime]
        rcases hmem q hq with hold | hnew
        · exact hfront.1 q hold
        · omega
      have horder : AcceptedInOrder d'.trace := by
        rcases entering_cases hd.accounted.numbered hentering with
          ⟨-, -, htrace⟩ | ⟨p, priority, delayMs, onResult, marked, -, hquiet, hkept⟩
        · rw [htrace]
          exact hd.order
        · have hmarked := hd.order
          rw [← hquiet.trace] at hmarked
          rcases hkept with rfl | ⟨ahead, chosen, behind, -, rfl⟩
          · exact fun q time others hin =>
              hmarked q time others (by simpa [inserted] using hin)
          · rw [discard_trace]
            exact fun q time others hin =>
              hmarked q time others (by simpa [inserted] using hin)
      have hpumped := sorted_pump call radio hsane'
        (sorted_entering hd.accounted.numbered hd.sane hd.sorted hfront.1 hentering) hnear horder
        (hfront.2 radio d' hentering)
      have haccounted := accounted_step lib call hd.accounted event
      rw [step_of_entering hentering] at hsane haccounted ⊢
      exact ⟨haccounted, hsane, hpumped.1, hpumped.2⟩

end Dispatcher

end Coreletd.Mesh
