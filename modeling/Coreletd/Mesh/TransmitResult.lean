/-
# One result for every packet

A packet that `send` took on is in the queue with its handler uncalled, or has
been transmitted, or has been dropped, and in the last two cases its handler has
been called once with the outcome. The proof keeps a ledger: for each sequence
number how often the trace shows it accepted, dropped and reported.
-/

import Coreletd.Mesh.DispatcherSteps

namespace Coreletd.Mesh.Dispatcher

open Coreletd.Crypto
open Coreletd.Library
open Coreletd.Proto

universe u v

variable {H : Type u} {σ : Type v} {call : Handler H σ} {radio : RadioView}

/-- What the trace says of one packet: how often the radio accepted it, how
often it was dropped, and the calls of its handler. -/
structure Ledger (H : Type u) where
  accepted : Nat := 0
  dropped : Nat := 0
  reported : List (H × Bool) := []

/-- Enter one event into the ledger of a sequence number. -/
def post (seq : Nat) (event : TxEvent H) (l : Ledger H) : Ledger H :=
  match event with
  | .handed q _ _ true => if q.seq = seq then { l with accepted := l.accepted + 1 } else l
  | .dropped q _ _ => if q.seq = seq then { l with dropped := l.dropped + 1 } else l
  | .called other handler transmitted =>
      if other = seq then { l with reported := (handler, transmitted) :: l.reported } else l
  | _ => l

def ledger (trace : List (TxEvent H)) (seq : Nat) : Ledger H :=
  trace.foldr (post seq) {}

/-- What can have become of a packet. -/
inductive Fate
  | waiting
  | transmitted
  | dropped

/-- The ledger that goes with a fate. -/
def Fate.ledger (q : Queued H) : Fate → Ledger H
  | .waiting => {}
  | .transmitted => { accepted := 1, reported := q.onResult.toList.map fun h => (h, true) }
  | .dropped => { dropped := 1, reported := q.onResult.toList.map fun h => (h, false) }

/-- A packet has met a fate: its ledger says so, and it is in the queue, once,
exactly when it is waiting. -/
def HasFate (d : Dispatcher H σ) (q : Queued H) (fate : Fate) : Prop :=
  ledger d.trace q.seq = fate.ledger q ∧
    d.queue.filter (·.seq = q.seq) = match fate with
      | .waiting => [q]
      | _ => []

/-- No two fates look the same. -/
theorem fate_ledger_injective (q : Queued H) : Function.Injective (Fate.ledger q) := by
  intro first second hequal
  have haccepted := congrArg Ledger.accepted hequal
  have hdropped := congrArg Ledger.dropped hequal
  cases first <;> cases second <;> simp [Fate.ledger] at haccepted hdropped ⊢

/-! ## How the ledger moves -/

@[simp]
theorem ledger_cons (event : TxEvent H) (trace : List (TxEvent H)) (seq : Nat) :
    ledger (event :: trace) seq = post seq event (ledger trace seq) := rfl

theorem ledger_discard_other (d : Dispatcher H σ) (q : Queued H) (reason : DropReason) {seq : Nat}
    (hne : q.seq ≠ seq) : ledger (discard call d q reason).trace seq = ledger d.trace seq := by
  rw [discard_trace]
  cases q.onResult <;> simp [post, hne]

theorem ledger_discard_self (d : Dispatcher H σ) (q : Queued H) (reason : DropReason)
    (hwaiting : ledger d.trace q.seq = Fate.waiting.ledger q) :
    ledger (discard call d q reason).trace q.seq = Fate.dropped.ledger q := by
  rw [discard_trace]
  cases hhandler : q.onResult <;> simp [post, hwaiting, Fate.ledger, hhandler]

/-- What an accepted transmission adds to the trace. -/
theorem trace_transmit (hok : radio.sendOk = true) (d : Dispatcher H σ) (q : Queued H) :
    (transmit call radio d q).trace =
      (q.onResult.toList.map fun handler => .called q.seq handler true) ++
        .handed q d.time d.queue true :: d.trace := by
  rw [transmit_trace, hok]
  rfl

theorem ledger_transmit_other (hok : radio.sendOk = true) (d : Dispatcher H σ) (q : Queued H)
    {seq : Nat} (hne : q.seq ≠ seq) :
    ledger (transmit call radio d q).trace seq = ledger d.trace seq := by
  rw [trace_transmit hok]
  cases q.onResult <;> simp [post, hne]

theorem ledger_transmit_self (hok : radio.sendOk = true) (d : Dispatcher H σ) (q : Queued H)
    (hwaiting : ledger d.trace q.seq = Fate.waiting.ledger q) :
    ledger (transmit call radio d q).trace q.seq = Fate.transmitted.ledger q := by
  rw [trace_transmit hok]
  cases hhandler : q.onResult <;> simp [post, hwaiting, Fate.ledger, hhandler]

/-! ## The invariant -/

/-- Queue and trace account for every packet taken on, and for nothing else. -/
structure Accounted (d : Dispatcher H σ) : Prop where
  numbered : d.Numbered
  known : ∀ q ∈ d.queue, .queued q ∈ d.trace
  waiting : ∀ q ∈ d.queue, ledger d.trace q.seq = Fate.waiting.ledger q
  settled : ∀ q, .queued q ∈ d.trace → q ∈ d.queue ∨
    (∀ other ∈ d.queue, other.seq ≠ q.seq) ∧
      (ledger d.trace q.seq = Fate.transmitted.ledger q ∨
        ledger d.trace q.seq = Fate.dropped.ledger q)
  past : ∀ q, .queued q ∈ d.trace → q.seq < d.nextSeq
  fresh : ∀ seq, d.nextSeq ≤ seq → ledger d.trace seq = {}
  calls : ∀ seq handler transmitted, .called seq handler transmitted ∈ d.trace →
    ∃ q, .queued q ∈ d.trace ∧ q.seq = seq ∧ q.onResult = some handler
  unique : ∀ q other, .queued q ∈ d.trace → .queued other ∈ d.trace → q.seq = other.seq → q = other
  handed : ∀ q time others accepted, .handed q time others accepted ∈ d.trace →
    .queued q ∈ d.trace

variable {d : Dispatcher H σ}

theorem Accounted.quietly (hd : d.Accounted) {d' : Dispatcher H σ} (hquiet : Quietly d d') :
    d'.Accounted := by
  obtain ⟨numbered, known, waiting, settled, past, fresh, calls, unique, handed⟩ := hd
  refine ⟨numbered.quietly hquiet, ?_, ?_, ?_, ?_, ?_, ?_, ?_, ?_⟩
  · rwa [hquiet.queue, hquiet.trace]
  · rwa [hquiet.queue, hquiet.trace]
  · rwa [hquiet.queue, hquiet.trace]
  · rwa [hquiet.trace, hquiet.nextSeq]
  · rwa [hquiet.trace, hquiet.nextSeq]
  · rwa [hquiet.trace]
  · rwa [hquiet.trace]
  · rwa [hquiet.trace]

/-- A packet leaves the queue and its ledger is closed; no other ledger moves. -/
theorem Accounted.settle (hd : d.Accounted) {d' : Dispatcher H σ} {ahead behind : List (Queued H)}
    {q : Queued H} (hsplit : d.queue = ahead ++ q :: behind) (hqueue : d'.queue = ahead ++ behind)
    (hnext : d'.nextSeq = d.nextSeq)
    (hother : ∀ seq, q.seq ≠ seq → ledger d'.trace seq = ledger d.trace seq)
    (hself : ledger d'.trace q.seq = Fate.transmitted.ledger q ∨
      ledger d'.trace q.seq = Fate.dropped.ledger q)
    (hqueued : ∀ other, .queued other ∈ d'.trace ↔ .queued other ∈ d.trace)
    (hcalled : ∀ seq handler transmitted, .called seq handler transmitted ∈ d'.trace →
      .called seq handler transmitted ∈ d.trace ∨ seq = q.seq ∧ q.onResult = some handler)
    (hhanded : ∀ other time others accepted, .handed other time others accepted ∈ d'.trace →
      .handed other time others accepted ∈ d.trace ∨ other = q) : d'.Accounted := by
  have hmem : q ∈ d.queue := by
    rw [hsplit]
    simp
  have hsub : ∀ other ∈ ahead ++ behind, other ∈ d.queue := by
    intro other hin
    rw [hsplit]
    simp only [List.mem_append, List.mem_cons] at hin ⊢
    tauto
  have hdistinct := hd.numbered.distinct
  have hapart : ∀ other ∈ ahead ++ behind, other.seq ≠ q.seq := by
    intro other hin hequal
    rw [hsplit, List.map_append, List.map_cons, List.nodup_middle, List.nodup_cons,
      ← List.map_append] at hdistinct
    exact hdistinct.1 (hequal ▸ List.mem_map_of_mem hin)
  refine ⟨⟨?_, ?_⟩, ?_, ?_, ?_, ?_, ?_, ?_, ?_, ?_⟩
  · rw [hqueue]
    rw [hsplit] at hdistinct
    exact hdistinct.sublist
      (((List.sublist_cons_self q behind).append_left ahead).map _)
  · intro other hin
    rw [hqueue] at hin
    rw [hnext]
    exact hd.numbered.below other (hsub other hin)
  · intro other hin
    rw [hqueue] at hin
    exact (hqueued other).mpr (hd.known other (hsub other hin))
  · intro other hin
    rw [hqueue] at hin
    rw [hother _ (hapart other hin).symm]
    exact hd.waiting other (hsub other hin)
  · intro other hin
    rcases hd.settled other ((hqueued other).mp hin) with hwaits | ⟨hgone, hclosed⟩
    · by_cases hsame : other = q
      · right
        subst hsame
        exact ⟨by rw [hqueue]; exact hapart, hself⟩
      · left
        rw [hqueue]
        rw [hsplit] at hwaits
        simp only [List.mem_append, List.mem_cons] at hwaits ⊢
        tauto
    · right
      refine ⟨fun another hanother => ?_, ?_⟩
      · rw [hqueue] at hanother
        exact hgone another (hsub another hanother)
      · rw [hother _ (hgone q hmem)]
        exact hclosed
  · intro other hin
    rw [hnext]
    exact hd.past other ((hqueued other).mp hin)
  · intro seq hseq
    rw [hnext] at hseq
    have hlt := hd.numbered.below q hmem
    rw [hother seq (by omega)]
    exact hd.fresh seq hseq
  · intro seq handler transmitted hin
    rcases hcalled seq handler transmitted hin with hold | ⟨rfl, hhandler⟩
    · obtain ⟨other, hknown, hseq, hother'⟩ := hd.calls seq handler transmitted hold
      exact ⟨other, (hqueued other).mpr hknown, hseq, hother'⟩
    · exact ⟨q, (hqueued q).mpr (hd.known q hmem), rfl, hhandler⟩
  · exact fun first second hfirst hsecond =>
      hd.unique first second ((hqueued first).mp hfirst) ((hqueued second).mp hsecond)
  · intro other time others accepted hin
    rcases hhanded other time others accepted hin with hold | rfl
    · exact (hqueued other).mpr (hd.handed other time others accepted hold)
    · exact (hqueued other).mpr (hd.known other hmem)

/-- A call among those a move made is the packet's own. -/
theorem called_of_mem_reported {q : Queued H} {seq : Nat} {handler : H} {transmitted outcome : Bool}
    {trace : List (TxEvent H)}
    (hin : (q.onResult = some handler ∧ q.seq = seq ∧ transmitted = outcome) ∨
      .called seq handler transmitted ∈ trace) :
    .called seq handler transmitted ∈ trace ∨ seq = q.seq ∧ q.onResult = some handler := by
  rcases hin with ⟨hown, hseq, -⟩ | hold
  · exact .inr ⟨hseq.symm, hown⟩
  · exact .inl hold

/-- Dropping a packet settles it. -/
theorem Accounted.discard (hd : d.Accounted) {ahead behind : List (Queued H)} {q : Queued H}
    (hsplit : d.queue = ahead ++ q :: behind) (reason : DropReason) :
    (discard call { d with queue := ahead ++ behind } q reason).Accounted := by
  have hmem : q ∈ d.queue := by
    rw [hsplit]
    simp
  refine hd.settle hsplit ?_ ?_ (fun seq hne => ledger_discard_other _ q reason hne)
    (.inr (ledger_discard_self _ q reason (hd.waiting q hmem))) ?_ ?_ ?_
  · exact discard_queue _ _ _ _
  · exact discard_nextSeq _ _ _ _
  · intro other
    rw [discard_trace]
    cases q.onResult <;> simp
  · intro seq handler transmitted hin
    rw [discard_trace] at hin
    exact called_of_mem_reported (by simpa using hin)
  · intro other time others accepted hin
    rw [discard_trace] at hin
    exact .inl (by simpa using hin)

/-- Handing a packet over settles it, or leaves everything as it was. -/
theorem Accounted.transmit (hd : d.Accounted) {ahead behind : List (Queued H)} {q : Queued H}
    (hsplit : d.queue = ahead ++ q :: behind) :
    (transmit call radio { d with queue := ahead ++ behind } q).Accounted := by
  have hmem : q ∈ d.queue := by
    rw [hsplit]
    simp
  cases hok : radio.sendOk with
  | true =>
      refine hd.settle hsplit ?_ ?_ (fun seq hne => ledger_transmit_other hok _ q hne)
        (.inl (ledger_transmit_self hok _ q (hd.waiting q hmem))) ?_ ?_ ?_
      · rw [transmit_accepted _ _ _ hok, notify_queue]
      · rw [transmit_accepted _ _ _ hok, notify_nextSeq]
      · intro other
        rw [trace_transmit hok]
        cases q.onResult <;> simp
      · intro seq handler transmitted hin
        rw [trace_transmit hok] at hin
        exact called_of_mem_reported (by simpa using hin)
      · intro other time others accepted hin
        rw [trace_transmit hok] at hin
        simp only [List.mem_append, List.mem_map, reduceCtorEq, and_false, exists_false,
          List.mem_cons, TxEvent.handed.injEq, false_or] at hin
        rcases hin with ⟨hself, -⟩ | hold
        · exact .inr hself
        · exact .inl hold
  | false =>
      -- A refused packet is back in the queue, and the trace has one more refusal.
      have hperm : (q :: (ahead ++ behind)).Perm d.queue := by
        rw [hsplit]
        exact List.perm_middle.symm
      have hrefused : Quietly
          { d with
            queue := q :: (ahead ++ behind)
            trace := .handed q d.time (ahead ++ behind) false :: d.trace }
          (Dispatcher.transmit call radio { d with queue := ahead ++ behind } q) := by
        rw [transmit_refused _ _ _ hok]
        exact (Quietly.refl _).schedulePump _
      refine Accounted.quietly ⟨⟨?_, ?_⟩, ?_, ?_, ?_, ?_, ?_, ?_, ?_, ?_⟩ hrefused
      · exact (hperm.map _).nodup_iff.mpr hd.numbered.distinct
      · exact fun other hin => hd.numbered.below other (hperm.mem_iff.mp hin)
      · exact fun other hin => List.mem_cons_of_mem _ (hd.known other (hperm.mem_iff.mp hin))
      · exact fun other hin => hd.waiting other (hperm.mem_iff.mp hin)
      · intro other hin
        have hold : TxEvent.queued other ∈ d.trace := by simpa using hin
        rcases hd.settled other hold with hwaits | ⟨hgone, hclosed⟩
        · exact .inl (hperm.mem_iff.mpr hwaits)
        · exact .inr ⟨fun another hanother => hgone another (hperm.mem_iff.mp hanother), hclosed⟩
      · exact fun other hin => hd.past other (by simpa using hin)
      · exact hd.fresh
      · intro seq handler transmitted hin
        obtain ⟨other, hknown, hother⟩ := hd.calls seq handler transmitted (by simpa using hin)
        exact ⟨other, List.mem_cons_of_mem _ hknown, hother⟩
      · exact fun first second hfirst hsecond =>
          hd.unique first second (by simpa using hfirst) (by simpa using hsecond)
      · intro other time others accepted hin
        rcases List.mem_cons.mp hin with hself | hold
        · rw [(TxEvent.handed.inj hself).1]
          exact List.mem_cons_of_mem _ (hd.known q hmem)
        · exact List.mem_cons_of_mem _ (hd.handed other time others accepted hold)

/-- Taking a packet on opens its ledger. -/
theorem Accounted.inserted (hd : d.Accounted) {q : Queued H} (hseq : q.seq = d.nextSeq) :
    (d.inserted q).Accounted := by
  have hperm := insertAtUpperBound_perm q.before q d.queue
  have hmem : ∀ other, other ∈ insertAtUpperBound q.before q d.queue ↔
      other = q ∨ other ∈ d.queue := fun other => mem_insertAtUpperBound
  refine ⟨⟨?_, ?_⟩, ?_, ?_, ?_, ?_, ?_, ?_, ?_, ?_⟩
  · rw [Dispatcher.inserted, (hperm.map _).nodup_iff, List.map_cons, List.nodup_cons]
    refine ⟨fun hin => ?_, hd.numbered.distinct⟩
    obtain ⟨other, hother, hequal⟩ := List.mem_map.mp hin
    have hlt := hd.numbered.below other hother
    omega
  · intro other hin
    show other.seq < d.nextSeq + 1
    rcases (hmem other).mp hin with rfl | hold
    · omega
    · exact Nat.lt_succ_of_lt (hd.numbered.below other hold)
  · intro other hin
    rcases (hmem other).mp hin with rfl | hold
    · exact List.mem_cons_self
    · exact List.mem_cons_of_mem _ (hd.known other hold)
  · intro other hin
    rcases (hmem other).mp hin with rfl | hold
    · exact hd.fresh other.seq (by omega)
    · exact hd.waiting other hold
  · intro other hin
    rcases List.mem_cons.mp hin with hnew | hold
    · obtain rfl := TxEvent.queued.inj hnew
      exact .inl ((hmem other).mpr (.inl rfl))
    · rcases hd.settled other hold with hwaits | ⟨hgone, hclosed⟩
      · exact .inl ((hmem other).mpr (.inr hwaits))
      · have hlt := hd.past other hold
        refine .inr ⟨fun another hanother => ?_, hclosed⟩
        rcases (hmem another).mp hanother with rfl | hqueued
        · omega
        · exact hgone another hqueued
  · intro other hin
    show other.seq < d.nextSeq + 1
    rcases List.mem_cons.mp hin with hnew | hold
    · obtain rfl := TxEvent.queued.inj hnew
      omega
    · exact Nat.lt_succ_of_lt (hd.past other hold)
  · exact fun seq hle => hd.fresh seq (Nat.le_of_succ_le hle)
  · intro seq handler transmitted hin
    obtain ⟨other, hknown, hother⟩ := hd.calls seq handler transmitted
      (by simpa [Dispatcher.inserted] using hin)
    exact ⟨other, List.mem_cons_of_mem _ hknown, hother⟩
  · intro first second hfirst hsecond hequal
    rcases List.mem_cons.mp hfirst with hnew | hold
    · obtain rfl := TxEvent.queued.inj hnew
      rcases List.mem_cons.mp hsecond with hnew' | hold'
      · exact (TxEvent.queued.inj hnew').symm
      · have hlt := hd.past second hold'
        omega
    · rcases List.mem_cons.mp hsecond with hnew' | hold'
      · obtain rfl := TxEvent.queued.inj hnew'
        have hlt := hd.past first hold
        omega
      · exact hd.unique first second hold hold' hequal
  · intro other time others accepted hin
    exact List.mem_cons_of_mem _
      (hd.handed other time others accepted (by simpa [Dispatcher.inserted] using hin))

/-- A finished transmission concerns no ledger. -/
theorem Accounted.onRadioTxDone (hd : d.Accounted) (airtimeMs : UInt32) (random : UInt8) :
    (d.onRadioTxDone airtimeMs random).Accounted := by
  have hqueue : (d.onRadioTxDone airtimeMs random).queue = d.queue := schedulePump_queue _ _
  have hnext : (d.onRadioTxDone airtimeMs random).nextSeq = d.nextSeq := schedulePump_nextSeq _ _
  have htrace : (d.onRadioTxDone airtimeMs random).trace = .txDone d.time airtimeMs :: d.trace :=
    schedulePump_trace _ _
  refine ⟨⟨?_, ?_⟩, ?_, ?_, ?_, ?_, ?_, ?_, ?_, ?_⟩ <;> simp only [hqueue, hnext, htrace]
  · exact hd.numbered.distinct
  · exact hd.numbered.below
  · exact fun other hin => List.mem_cons_of_mem _ (hd.known other hin)
  · exact hd.waiting
  · exact fun other hin => hd.settled other (by simpa using hin)
  · exact fun other hin => hd.past other (by simpa using hin)
  · exact hd.fresh
  · intro seq handler transmitted hin
    obtain ⟨other, hknown, hother⟩ := hd.calls seq handler transmitted (by simpa using hin)
    exact ⟨other, List.mem_cons_of_mem _ hknown, hother⟩
  · exact fun first second hfirst hsecond =>
      hd.unique first second (by simpa using hfirst) (by simpa using hsecond)
  · exact fun other time others accepted hin =>
      List.mem_cons_of_mem _ (hd.handed other time others accepted (by simpa using hin))

/-- Every step keeps the accounts. -/
theorem accounted_step (lib : Library) (call : Handler H σ) (hd : d.Accounted) (event : Event H) :
    (step lib call d event).Accounted := by
  apply step_rule (fun d hd => hd) (fun d hd => hd.numbered)
  · exact fun d d' hquiet hd => hd.quietly hquiet
  · exact fun d ahead q behind reason hsplit _ hd => hd.discard hsplit reason
  · intro radio _ d d' ahead q behind _ hquiet hselected hd
    exact (hd.quietly hquiet).transmit (hquiet.queue.trans hselected.split)
  · exact fun p priority delayMs onResult radio _ _ d hd => hd.inserted rfl
  · intro ms _ d hd
    exact { hd with numbered := ⟨hd.numbered.distinct, hd.numbered.below⟩ }
  · exact fun airtimeMs random _ d hd => hd.onRadioTxDone airtimeMs random
  · intro percent radio _ d hd
    exact { hd with numbered := ⟨hd.numbered.distinct, hd.numbered.below⟩ }
  · exact hd

/-- An account of a packet is exactly one fate. -/
theorem Accounted.existsUnique_fate (hd : d.Accounted) {q : Queued H}
    (hqueued : .queued q ∈ d.trace) : ∃! fate, HasFate d q fate := by
  have hunique : ∀ fate fate', HasFate d q fate → HasFate d q fate' → fate' = fate :=
    fun fate fate' hfate hfate' => fate_ledger_injective q (hfate'.1.symm.trans hfate.1)
  rcases hd.settled q hqueued with hwaits | ⟨hgone, hclosed⟩
  · have honce : d.queue.filter (·.seq = q.seq) = [q] := by
      obtain ⟨ahead, behind, hsplit⟩ := List.append_of_mem hwaits
      have hdistinct := hd.numbered.distinct
      rw [hsplit, List.map_append, List.map_cons, List.nodup_middle, List.nodup_cons,
        ← List.map_append] at hdistinct
      have hnone : (ahead ++ behind).filter (·.seq = q.seq) = [] := by
        refine List.filter_eq_nil_iff.mpr fun other hother => ?_
        simp only [decide_eq_true_eq]
        exact fun hequal => hdistinct.1 (hequal ▸ List.mem_map_of_mem hother)
      rw [List.filter_append, List.append_eq_nil_iff] at hnone
      rw [hsplit, List.filter_append, List.filter_cons, hnone.1, hnone.2]
      simp
    have hfate : HasFate d q .waiting := ⟨hd.waiting q hwaits, honce⟩
    exact ⟨.waiting, hfate, fun fate' hfate' => hunique _ _ hfate hfate'⟩
  · have hnone : d.queue.filter (·.seq = q.seq) = [] :=
      List.filter_eq_nil_iff.mpr fun other hother => by simpa using hgone other hother
    rcases hclosed with hsent | hdropped
    · have hfate : HasFate d q .transmitted := ⟨hsent, hnone⟩
      exact ⟨.transmitted, hfate, fun fate' hfate' => hunique _ _ hfate hfate'⟩
    · have hfate : HasFate d q .dropped := ⟨hdropped, hnone⟩
      exact ⟨.dropped, hfate, fun fate' hfate' => hunique _ _ hfate hfate'⟩

/-- The queue is within its limit, which never changes. -/
def Bounded (limit : Nat) (d : Dispatcher H σ) : Prop :=
  d.queueLimit = limit ∧ d.queue.length ≤ limit

theorem bounded_pump {limit : Nat} (hd : Bounded limit d) :
    Bounded limit (pump call radio d) := by
  apply pump_rule (fun d hd => hd)
  · intro d d' hquiet hd
    rw [Bounded, hquiet.queueLimit, hquiet.queue]
    exact hd
  · intro d ahead q behind reason hsplit _ hd
    rw [Bounded, hsplit, List.length_append, List.length_cons] at hd
    rw [Bounded, discard_queueLimit, discard_queue]
    refine ⟨hd.1, ?_⟩
    rw [List.length_append]
    omega
  · intro d d' ahead q behind _ hquiet hselected hd
    rw [Bounded, hselected.split, List.length_append, List.length_cons] at hd
    rw [Bounded, transmit_queueLimit, transmit_queue]
    refine ⟨hquiet.queueLimit.trans hd.1, ?_⟩
    split
    · rw [List.length_append]
      omega
    · rw [List.length_cons, List.length_append]
      omega
  · exact hd

/-- Between calls the queue never holds more than its limit. -/
theorem bounded_step (lib : Library) {limit : Nat} (hnumbered : d.Numbered)
    (hd : Bounded limit d) (event : Event H) : Bounded limit (step lib call d event) := by
  cases event with
  | tick ms => exact hd
  | send p priority delayMs onResult radio =>
      rw [step, send]
      split
      · exact hd
      · apply bounded_pump
        have hmarked := quietly_checkAndMarkSeen lib d p
        have hnumbered' := hnumbered.quietly hmarked
        have hbounded : Bounded limit (d.checkAndMarkSeen lib p).2 := hd
        generalize (d.checkAndMarkSeen lib p).2 = d' at hnumbered' hbounded ⊢
        rcases enqueue_cases call hnumbered'
            (show (d'.entry p priority delayMs onResult).seq = d'.nextSeq from rfl) with
          ⟨hfits, hkept⟩ | ⟨-, ahead, chosen, behind, hsplit, hevicted⟩
        · rw [hkept]
          exact ⟨hbounded.1, hfits.trans (Nat.le_of_eq hbounded.1)⟩
        · rw [hevicted]
          have hlength := (insertAtUpperBound_perm (d'.entry p priority delayMs onResult).before
            (d'.entry p priority delayMs onResult) d'.queue).length_eq
          change insertAtUpperBound _ _ _ = _ at hsplit
          rw [hsplit, List.length_append, List.length_cons, List.length_cons] at hlength
          have hle := hbounded.2
          rw [Bounded, discard_queueLimit, discard_queue, List.length_append]
          exact ⟨hbounded.1, by omega⟩
  | pumpTimer radio =>
      rw [step, onPumpTimer]
      split
      · exact bounded_pump hd
      · exact hd
  | txDone airtimeMs random =>
      rw [Bounded, step, onRadioTxDone, schedulePump_queueLimit, schedulePump_queue]
      exact hd
  | reconfigure percent radio => exact bounded_pump hd
  | rx raw rssi snrQ4 =>
      have hquiet := quietly_onRadioRx lib d raw rssi snrQ4
      rw [Bounded, step, hquiet.queueLimit, hquiet.queue]
      exact hd
  | sweep => exact hd

theorem accounted_new (percent : ℚ) (limit : Nat) (client : σ) (time : Nat) :
    (new percent limit client time : Dispatcher H σ).Accounted := by
  refine ⟨⟨List.nodup_nil, ?_⟩, ?_, ?_, ?_, ?_, ?_, ?_, ?_, ?_⟩ <;> simp [new, ledger]

/-- What every run keeps. -/
theorem accounted_run (lib : Library) (call : Handler H σ) (percent : ℚ) (limit : Nat) (client : σ)
    (time : Nat) (events : List (Event H)) :
    (run (step lib call) (new percent limit client time) events).Accounted ∧
      Bounded (max limit 1) (run (step lib call) (new percent limit client time) events) := by
  have hstep : ∀ (d : Dispatcher H σ) (event : Event H),
      d.Accounted ∧ Bounded (max limit 1) d →
      (step lib call d event).Accounted ∧ Bounded (max limit 1) (step lib call d event) :=
    fun d event hd => ⟨accounted_step lib call hd.1 event,
      bounded_step lib hd.1.numbered hd.2 event⟩
  exact run_invariant hstep ⟨accounted_new percent limit client time, rfl, by simp [new]⟩ events

theorem mem_trace_pump {q : Queued H} (hq : .queued q ∈ d.trace) :
    .queued q ∈ (pump call radio d).trace := by
  apply pump_rule (P := fun d => .queued q ∈ d.trace) (fun d hd => hd)
  · intro d d' hquiet hd
    rw [hquiet.trace]
    exact hd
  · intro d ahead other behind reason _ _ hd
    rw [discard_trace]
    simp [hd]
  · intro d d' ahead other behind _ hquiet _ hd
    rw [queued_mem_transmit, hquiet.trace]
    exact hd
  · exact hq

/-- **Every packet taken on has one result, and the queue is bounded.** In every
run each packet for which `send` returned true has exactly one fate, handlers
are called only for such packets, the queue keeps to its limit, and a further
`send` either takes its packet on under a new number or changes nothing that a
packet or a handler could notice. -/
theorem transmit_result_exactly_once (lib : Library) (call : Handler H σ) (percent : ℚ)
    (limit : Nat) (client : σ) (time : Nat) (events : List (Event H)) :
    let d := run (step lib call) (new percent limit client time) events
    (∀ q, .queued q ∈ d.trace → ∃! fate, HasFate d q fate) ∧
      (∀ seq handler transmitted, .called seq handler transmitted ∈ d.trace →
        ∃ q, .queued q ∈ d.trace ∧ q.seq = seq ∧ q.onResult = some handler) ∧
      d.queue.length ≤ max limit 1 ∧
      ∀ radio p priority delayMs onResult,
        let sent := d.send call lib radio p priority delayMs onResult
        (sent.1 = true → .queued (d.entry p priority delayMs onResult) ∈ sent.2.trace ∧
          ∀ q, .queued q ∈ d.trace → q.seq ≠ (d.entry p priority delayMs onResult).seq) ∧
        (sent.1 = false → sent.2.queue = d.queue ∧ sent.2.trace = d.trace ∧
          sent.2.client = d.client) := by
  obtain ⟨haccounted, hbounded⟩ := accounted_run lib call percent limit client time events
  intro d
  refine ⟨fun q hq => haccounted.existsUnique_fate hq, haccounted.calls, hbounded.2, ?_⟩
  intro radio p priority delayMs onResult
  dsimp only
  rw [send]
  split
  · simp
  · refine ⟨fun _ => ⟨?_, fun q hq => Nat.ne_of_lt (haccounted.past q hq)⟩, by simp⟩
    apply mem_trace_pump
    have hmarked := haccounted.numbered.quietly (quietly_checkAndMarkSeen lib _ p)
    rcases enqueue_cases call hmarked
        (show ((d.checkAndMarkSeen lib p).2.entry p priority delayMs onResult).seq = _ from rfl) with
      ⟨-, hkept⟩ | ⟨-, ahead, chosen, behind, -, hevicted⟩
    · rw [hkept]
      exact List.mem_cons_self
    · rw [hevicted, discard_trace]
      simp [inserted, entry, checkAndMarkSeen]

end Coreletd.Mesh.Dispatcher
