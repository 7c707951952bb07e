/-
# What was sent and what was answered

Two facts about whole runs that the ladder does not need but its peers do: every
packet taken on for a waiting operation carries one of the attempts it has made,
and the caller of `send` was told the operation's first hash and no other.
Entries are never rewritten, only moved to later attempts, so both survive
everything that can happen to the table.
-/

import Coreletd.Mesh.RetryLadder

namespace Coreletd.Mesh.Air

open Coreletd.Crypto
open Coreletd.Library
open Coreletd.Proto
open ReliableSender

variable {lib : Crypto.Library} {radio : RadioView} {limit : Nat}

/-! ## Entries over time -/

/-- The same operation, at the same or a later attempt. -/
structure Grown (p p' : Pending) : Prop where
  id : p'.id = p.id
  destPubkey : p'.destPubkey = p.destPubkey
  text : p'.text = p.text
  txtType : p'.txtType = p.txtType
  timestamp : p'.timestamp = p.timestamp
  ackHash : p'.ackHash = p.ackHash
  made : ∀ attempt ∈ made p, attempt ∈ made p'

theorem Grown.refl (p : Pending) : Grown p p := ⟨rfl, rfl, rfl, rfl, rfl, rfl, fun _ h => h⟩

theorem Grown.trans {p p' p'' : Pending} (hfirst : Grown p p') (hsecond : Grown p' p'') :
    Grown p p'' where
  id := hsecond.id.trans hfirst.id
  destPubkey := hsecond.destPubkey.trans hfirst.destPubkey
  text := hsecond.text.trans hfirst.text
  txtType := hsecond.txtType.trans hfirst.txtType
  timestamp := hsecond.timestamp.trans hfirst.timestamp
  ackHash := hsecond.ackHash.trans hfirst.ackHash
  made attempt hattempt := hsecond.made attempt (hfirst.made attempt hattempt)

/-- What an attempt seals does not depend on how far the operation has come. -/
theorem Grown.carries {p p' : Pending} (hgrown : Grown p p') {identity : LocalIdentity}
    {attempt : UInt8} {packet : Packet}
    (hcarries : Carries lib identity { p with attempt } packet) :
    Carries lib identity { p' with attempt } packet := by
  refine ⟨hcarries.type, hcarries.payload.trans ?_⟩
  simp only [Pending.payload, Pending.plaintext, hgrown.destPubkey, hgrown.text, hgrown.txtType,
    hgrown.timestamp]

/-- Nothing but operations of `s`, with numbers still going up. -/
structure Continues (s s' : ReliableSender) : Prop where
  identity : s'.self = s.self
  nextId : s.nextId ≤ s'.nextId
  entries : ∀ p' ∈ s'.pending, ∃ p ∈ s.pending, Grown p p'

theorem Continues.trans {s s' s'' : ReliableSender} (hfirst : Continues s s')
    (hsecond : Continues s' s'') : Continues s s'' := by
  refine ⟨hsecond.identity.trans hfirst.identity, hfirst.nextId.trans hsecond.nextId, ?_⟩
  intro p'' hp''
  obtain ⟨p', hp', hgrown'⟩ := hsecond.entries p'' hp''
  obtain ⟨p, hp, hgrown⟩ := hfirst.entries p' hp'
  exact ⟨p, hp, hgrown.trans hgrown'⟩

/-- Fewer entries. -/
theorem Continues.of_subset {s s' : ReliableSender} (hself : s'.self = s.self)
    (hnext : s.nextId ≤ s'.nextId) (hsub : ∀ p ∈ s'.pending, p ∈ s.pending) : Continues s s' :=
  ⟨hself, hnext, fun p hp => ⟨p, hsub p hp, Grown.refl p⟩⟩

theorem Continues.of_retimed {s s' : ReliableSender} (hretimed : Retimed s s') :
    Continues s s' := by
  obtain ⟨timer, rfl⟩ := hretimed
  refine ⟨rfl, le_rfl, fun p' hp' => ?_⟩
  obtain ⟨p, hp, rfl⟩ := List.mem_map.mp hp'
  exact ⟨p, hp, rfl, rfl, rfl, rfl, rfl, rfl, fun _ h => h⟩

theorem Continues.climbed {s : ReliableSender} (hs : Sound lib s) {p : Pending}
    (hp : p ∈ s.pending) (hnext : p.attempt + 1 < kMaxAttempts) (forceFlood : Bool) :
    Continues s (s.climbed lib p forceFlood) := by
  refine ⟨rfl, le_rfl, fun p' hp' => ?_⟩
  obtain ⟨q, hq, rfl⟩ := List.mem_map.mp hp'
  refine ⟨q, hq, ?_⟩
  split
  · next hid =>
    obtain rfl : q = p := List.inj_on_of_nodup_map hs.distinct hq hp hid
    have hrung := (hs.entries q hq).rung
    refine ⟨rfl, rfl, rfl, rfl, rfl, ?_, ?_⟩
    · show (if q.attempt + 1 = 0 then _ else q.ackHash) = q.ackHash
      rw [if_neg]
      rcases rung_cases hnext hrung with hzero | hone | htwo
      · rw [hzero]
        decide
      · rw [hone]
        decide
      · rw [htwo]
        decide
    · intro attempt hattempt
      rw [made_climb hnext hrung]
      exact List.mem_append_left _ hattempt
  · exact Grown.refl q

theorem Continues.erase (s : ReliableSender) (id : Nat) : Continues s (s.erase id) :=
  .of_subset rfl le_rfl fun _ hp => (List.mem_filter.mp hp).1

theorem Continues.complete (s : ReliableSender) (ackHash : Bytes) :
    Continues s (s.complete ackHash).2 := by
  rcases complete_cases s ackHash with ⟨_, heq⟩ | ⟨ahead, p, behind, hsplit, _, _, heq⟩
  · rw [heq]
    exact .of_subset rfl le_rfl fun _ hp => hp
  · rw [heq]
    refine .of_subset rfl le_rfl fun p' hp' => ?_
    rw [hsplit]
    rcases List.mem_append.mp hp' with hin | hin
    · exact List.mem_append_left _ hin
    · exact List.mem_append_right _ (List.mem_cons_of_mem _ hin)

/-! ## What the dispatcher leaves alone -/

/-- The dispatcher sets timers of the sender, and its record gains only the
packet of a send. -/
structure Framed (event : Dispatcher.Event Nat) (d d' : Air) : Prop where
  retimed : Retimed d.client d'.client
  taken : ∀ q, .queued q ∈ d'.trace → .queued q ∈ d.trace ∨
    ∃ priority delayMs radio, event = .send q.packet priority delayMs q.onResult radio

theorem Framed.quietly {event : Dispatcher.Event Nat} {d d' d'' : Air} (hframed : Framed event d d')
    (hclient : d''.client = d'.client) (htrace : d''.trace = d'.trace) : Framed event d d'' := by
  refine ⟨?_, ?_⟩
  · rw [hclient]
    exact hframed.retimed
  · rw [htrace]
    exact hframed.taken

/-- Telling a packet's handler its result. -/
theorem Framed.notify {event : Dispatcher.Event Nat} {d d' : Air} (hframed : Framed event d d')
    (hdistinct : d.client.Distinct) (q : Queued Nat) (transmitted : Bool) :
    Framed event d (Dispatcher.notify onTxResult d' q transmitted) := by
  refine ⟨hframed.retimed.trans ?_, ?_⟩
  · rw [notify_client]
    cases q.onResult with
    | none => exact Retimed.refl _
    | some id => exact retimed_onTxResult (hframed.retimed.distinct hdistinct) _ _ _
  · intro other hother
    rw [Dispatcher.notify_trace] at hother
    apply hframed.taken other
    simpa using hother

theorem framed_step {d : Air} (haccounted : d.Accounted) (hdistinct : d.client.Distinct)
    (event : Dispatcher.Event Nat) : Framed event d (Dispatcher.step lib onTxResult d event) := by
  have hskip : ∀ d' d'' : Air, Framed event d d' → d''.client = d'.client →
      (∀ q, .queued q ∈ d''.trace → .queued q ∈ d'.trace) → Framed event d d'' :=
    fun d' d'' hframed hclient htrace =>
      ⟨by rw [hclient]; exact hframed.retimed, fun q hq => hframed.taken q (htrace q hq)⟩
  apply Dispatcher.step_rule (P := fun d' : Air => d'.Accounted ∧ Framed event d d')
    (fun d' hd' => hd'.2) (fun d' hd' => hd'.1.numbered)
  · intro d' d'' hquiet hd'
    exact ⟨hd'.1.quietly hquiet, hd'.2.quietly hquiet.client hquiet.trace⟩
  · intro d' ahead q behind reason hsplit _ hd'
    refine ⟨hd'.1.discard hsplit reason, ?_⟩
    rw [Dispatcher.discard]
    apply Framed.notify _ hdistinct
    exact hskip d' _ hd'.2 rfl fun other hother => by simpa using hother
  · intro radio _ d' d'' ahead q behind _ hquiet _ hd'
    have hselected := hd'.2.quietly hquiet.client hquiet.trace
    cases hok : radio.sendOk with
    | true =>
        rw [Dispatcher.transmit_accepted _ _ _ hok]
        apply Framed.notify _ hdistinct
        exact hskip d'' _ hselected rfl fun other hother => by simpa using hother
    | false =>
        rw [Dispatcher.transmit_refused _ _ _ hok]
        refine hskip d'' _ hselected (Dispatcher.schedulePump_client _ _) fun other hother => ?_
        rw [Dispatcher.schedulePump_trace] at hother
        simpa using hother
  · intro p priority delayMs onResult radio hevent _ d' hd'
    refine ⟨hd'.1.inserted rfl, hd'.2.retimed, fun q hq => ?_⟩
    rcases List.mem_cons.mp hq with hnew | hold
    · obtain rfl : q = Dispatcher.entry d' p priority delayMs onResult := by simpa using hnew
      exact .inr ⟨priority, delayMs, radio, hevent⟩
    · exact hd'.2.taken q hold
  · exact fun ms _ d' hd' => hd'.2.quietly rfl rfl
  · intro airtimeMs random _ d' hd'
    refine hskip d' _ hd'.2 (Dispatcher.schedulePump_client _ _) fun other hother => ?_
    rw [Dispatcher.onRadioTxDone, Dispatcher.schedulePump_trace] at hother
    simpa using hother
  · intro percent radio _ d' hd'
    exact ⟨{ hd'.1 with numbered := ⟨hd'.1.numbered.distinct, hd'.1.numbered.below⟩ },
      hd'.2.quietly rfl rfl⟩
  · exact ⟨haccounted, Retimed.refl _, fun q hq => .inl hq⟩

theorem framed_send (lib : Crypto.Library) (radio : RadioView) {d : Air}
    (haccounted : d.Accounted) (hdistinct : d.client.Distinct) (packet : Packet)
    (priority : UInt8) (delayMs : UInt32) (onResult : Option Nat) :
    Framed (.send packet priority delayMs onResult radio) d
      (Dispatcher.send onTxResult lib radio d packet priority delayMs onResult).2 :=
  framed_step haccounted hdistinct (.send packet priority delayMs onResult radio)

/-! ## The packets of an operation -/

/-- A packet taken on for an operation, if that still waits, carries an attempt
it has made. -/
def Fits (lib : Crypto.Library) (s : ReliableSender) (q : Queued Nat) : Prop :=
  ∀ id, q.onResult = some id → id < s.nextId ∧
    ∀ p ∈ s.pending, p.id = id → ∃ attempt ∈ made p, Carries lib s.self { p with attempt } q.packet

/-- Every packet on record fits. -/
def Carried (lib : Crypto.Library) (d : Air) : Prop :=
  ∀ q, .queued q ∈ d.trace → Fits lib d.client q

theorem Fits.continues {s s' : ReliableSender} {q : Queued Nat} (hfits : Fits lib s q)
    (hcontinues : Continues s s') : Fits lib s' q := by
  intro id hid
  obtain ⟨hbelow, hentries⟩ := hfits id hid
  refine ⟨lt_of_lt_of_le hbelow hcontinues.nextId, fun p' hp' hsame => ?_⟩
  obtain ⟨p, hp, hgrown⟩ := hcontinues.entries p' hp'
  obtain ⟨attempt, hattempt, hcarries⟩ := hentries p hp (hgrown.id.symm.trans hsame)
  rw [hcontinues.identity]
  exact ⟨attempt, hgrown.made attempt hattempt, hgrown.carries hcarries⟩

theorem Carried.continues {d d' : Air} (hd : Carried lib d) (htrace : d'.trace = d.trace)
    (hcontinues : Continues d.client d'.client) : Carried lib d' := by
  intro q hq
  rw [htrace] at hq
  exact (hd q hq).continues hcontinues

/-- A call of the dispatcher keeps the record in order if what it sends fits. -/
theorem Carried.framed {event : Dispatcher.Event Nat} {d d' : Air} (hd : Carried lib d)
    (hframed : Framed event d d')
    (hfits : ∀ q priority delayMs radio,
      event = .send q.packet priority delayMs q.onResult radio → Fits lib d.client q) :
    Carried lib d' := by
  have hcontinues := Continues.of_retimed hframed.retimed
  intro q hq
  rcases hframed.taken q hq with hold | ⟨priority, delayMs, radio, hevent⟩
  · exact (hd q hold).continues hcontinues
  · exact (hfits q priority delayMs radio hevent).continues hcontinues

/-- The packet of an entry's present attempt fits. -/
theorem fits_present {s : ReliableSender} (hs : Sound lib s) {p : Pending} (hp : p ∈ s.pending)
    {q : Queued Nat} (hcarries : Carries lib s.self p q.packet) (hown : q.onResult = some p.id) :
    Fits lib s q := by
  intro id hid
  obtain rfl : p.id = id := Option.some.inj (hown.symm.trans hid)
  have hentry := hs.entries p hp
  refine ⟨hentry.below, fun p' hp' hsame => ?_⟩
  obtain rfl : p' = p := List.inj_on_of_nodup_map hs.distinct hp' hp hsame
  refine ⟨p'.attempt, ?_, hcarries⟩
  have hmem : p'.attempt = 0 ∨ p'.attempt = 1 ∨ p'.attempt = 2 ∨ p'.attempt = 3 := by
    have hrung := hentry.rung
    have hlast : kMaxAttempts.toNat = 4 := rfl
    rw [UInt8.lt_iff_toNat_lt, hlast] at hrung
    simp only [← UInt8.toNat_inj]
    show p'.attempt.toNat = 0 ∨ p'.attempt.toNat = 1 ∨ p'.attempt.toNat = 2 ∨ p'.attempt.toNat = 3
    omega
  rw [made]
  rcases hmem with hrung | hrung | hrung | hrung <;> rw [hrung] <;> decide

theorem Carried.send {d : Air} (hd : Carried lib d) (haccounted : d.Accounted)
    (hs : Sound lib d.client) {p : Pending} (hp : p ∈ d.client.pending) {packet : Packet}
    (hcarries : Carries lib d.client.self p packet) (priority : UInt8) (delayMs : UInt32) :
    Carried lib (Dispatcher.send onTxResult lib radio d packet priority delayMs (some p.id)).2 := by
  have hframed :=
    framed_send lib radio haccounted hs.distinct packet priority delayMs (some p.id)
  refine hd.framed hframed ?_
  intro q priority' delayMs' radio' hevent
  obtain ⟨hpacket, -, -, hresult, -⟩ := Dispatcher.Event.send.inj hevent
  exact fits_present hs hp (hpacket ▸ hcarries) hresult.symm

/-- Traffic without a result handler always fits. -/
theorem Carried.other {d : Air} (hd : Carried lib d) (haccounted : d.Accounted)
    (hs : Sound lib d.client) (event : Dispatcher.Event Nat) :
    Carried lib (Dispatcher.step lib onTxResult d (Outgoing.unanswered event)) := by
  refine hd.framed (framed_step haccounted hs.distinct _) ?_
  intro q priority delayMs radio hevent id hid
  rw [Outgoing.onResult_of_unanswered hevent] at hid
  simp at hid

/-! ## The answers -/

/-- Whoever waits for an operation was told its first hash, and nothing else. -/
structure Answered (s : ReliableSender) : Prop where
  told : ∀ p ∈ s.pending, ∀ hash, (p.id, hash) ∈ s.answered ↔ hash = p.ackHash
  below : ∀ id hash, (id, hash) ∈ s.answered → id < s.nextId

theorem Answered.continues {s s' : ReliableSender} (hs : Answered s) (hcontinues : Continues s s')
    (hanswered : s'.answered = s.answered) : Answered s' := by
  refine ⟨fun p' hp' hash => ?_, fun id hash hin => ?_⟩
  · obtain ⟨p, hp, hgrown⟩ := hcontinues.entries p' hp'
    rw [hanswered, hgrown.id, hgrown.ackHash]
    exact hs.told p hp hash
  · rw [hanswered] at hin
    exact lt_of_lt_of_le (hs.below id hash hin) hcontinues.nextId

theorem answered_of_retimed {s s' : ReliableSender} (hretimed : Retimed s s') :
    s'.answered = s.answered := by
  obtain ⟨timer, rfl⟩ := hretimed
  rfl

theorem Answered.retimed {s s' : ReliableSender} (hs : Answered s) (hretimed : Retimed s s') :
    Answered s' :=
  hs.continues (.of_retimed hretimed) (answered_of_retimed hretimed)

/-- An answer for no entry, as CLI data gets. -/
theorem Answered.elsewhere {s : ReliableSender} (hs : Answered s) {id : Nat} (hash : Bytes)
    (hbelow : id < s.nextId) (hnone : ∀ p ∈ s.pending, p.id ≠ id) :
    Answered { s with answered := (id, hash) :: s.answered } := by
  refine ⟨fun p hp other => ?_, fun other otherHash hin => ?_⟩
  · rw [← hs.told p hp other]
    simp [hnone p hp]
  · rcases List.mem_cons.mp hin with hnew | hold
    · obtain ⟨rfl, -⟩ := Prod.mk.inj hnew
      exact hbelow
    · exact hs.below other otherHash hold

/-- The answer of a coalesced send repeats the first one. -/
theorem Answered.again {s : ReliableSender} (hs : Answered s) (hdistinct : s.Distinct)
    {p : Pending} (hp : p ∈ s.pending) (hbelow : p.id < s.nextId) :
    Answered { s with answered := (p.id, p.ackHash) :: s.answered } := by
  refine ⟨fun p' hp' hash => ?_, fun id hash hin => ?_⟩
  · rw [← hs.told p' hp' hash, List.mem_cons, or_iff_right_iff_imp, Prod.mk.injEq]
    rintro ⟨hid, rfl⟩
    obtain rfl : p' = p := List.inj_on_of_nodup_map hdistinct hp' hp hid
    exact (hs.told p' hp _).mpr rfl
  · rcases List.mem_cons.mp hin with hnew | hold
    · obtain ⟨rfl, -⟩ := Prod.mk.inj hnew
      exact hbelow
    · exact hs.below id hash hold

/-- The answer of a fresh send is its entry's first hash. -/
theorem Answered.registered {s : ReliableSender} (hs : Answered s) (hsound : Sound lib s)
    {p : Pending} (hfresh : Fresh s p) :
    Answered { s.registered lib p with
      answered := (p.id, p.onAirHash lib s.self) :: s.answered } := by
  have hnone : ∀ hash, (p.id, hash) ∉ s.answered := by
    intro hash hin
    have hlt := hs.below _ _ hin
    rw [hfresh.id] at hlt
    exact Nat.lt_irrefl _ hlt
  refine ⟨fun p' hp' hash => ?_, fun id hash hin => ?_⟩
  · rcases List.mem_append.mp hp' with hold | hnew
    · have hne : p'.id ≠ p.id := by
        rw [hfresh.id]
        exact (hsound.entries p' hold).below.ne
      rw [← hs.told p' hold hash]
      simp [hne]
    · rw [List.mem_singleton.mp hnew]
      show (p.id, hash) ∈ (p.id, p.onAirHash lib s.self) :: s.answered ↔
        hash = if p.attempt = 0 then p.onAirHash lib s.self else p.ackHash
      rw [if_pos hfresh.attempt]
      simp [hnone]
  · show id < s.nextId + 1
    rcases List.mem_cons.mp hin with hnew | hold
    · obtain ⟨rfl, -⟩ := Prod.mk.inj hnew
      rw [hfresh.id]
      exact Nat.lt_succ_self _
    · exact Nat.lt_succ_of_lt (hs.below id hash hold)

/-! ## Over runs -/

theorem Carried.sending {d : Air} {result : Except SendError Bytes × Air} (hd : Carried lib d)
    (hladdered : Laddered lib limit d) (hsending : Sending lib radio d result) :
    Carried lib result.2 := by
  cases hsending with
  | refused hrefused =>
      obtain ⟨⟨stats, client, rfl⟩, _, hself, _, hnext, hpending, _⟩ := hrefused
      refine hd.continues rfl (.of_subset hself hnext fun p hp => ?_)
      exact hpending ▸ hp
  | coalesced hp => exact hd.continues rfl (.of_subset rfl le_rfl fun p hp => hp)
  | @cli packet hash hvalid =>
      have hnoted : Carried lib { d with client := { d.client with
          attempts := d.client.attempts ++ [{ id := 0, attempt := 0, forceFlood := false }] } } :=
        hd.continues rfl (.of_subset rfl le_rfl fun p hp => hp)
      have hsent := hnoted.other (accounted_client hladdered.accounted _ d.stats)
        hladdered.sound.noteCli (.send packet kPriorityDirect 0 none radio)
      exact hsent.continues rfl (.of_subset rfl le_rfl fun p hp => hp)
  | @handed p packet hfresh hvalid hcarries =>
      have hregistered : Carried lib { d with client := d.client.registered lib p } := by
        intro q hq id hid
        obtain ⟨hbelow, hentries⟩ := hd q hq id hid
        refine ⟨Nat.lt_succ_of_lt hbelow, fun p' hp' hsame => ?_⟩
        rcases List.mem_append.mp hp' with hold | hnew
        · exact hentries p' hold hsame
        · have hown : p.id = id := by
            rw [← hsame, List.mem_singleton.mp hnew]
            rfl
          rw [← hown, hfresh.id] at hbelow
          exact absurd hbelow (Nat.lt_irrefl _)
      have hhanding := hladdered.registered hfresh
      have hcarries' : Carries lib d.client.self (p.accept (p.onAirHash lib d.client.self))
          packet := ⟨hcarries.type, hcarries.payload⟩
      have hsent : Carried lib (Dispatcher.send onTxResult lib radio
          { d with client := d.client.registered lib p } packet kPriorityDirect 0 (some p.id)).2 :=
        hregistered.send hhanding.accounted hhanding.sound hhanding.member hcarries' _ _
      exact hsent.continues rfl (.of_subset rfl le_rfl fun p hp => hp)

theorem Answered.sending {d : Air} {result : Except SendError Bytes × Air}
    (hd : Answered d.client) (hladdered : Laddered lib limit d)
    (hsending : Sending lib radio d result) : Answered result.2.client := by
  have hsound := hladdered.sound
  cases hsending with
  | refused hrefused =>
      obtain ⟨⟨stats, client, rfl⟩, _, hself, _, hnext, hpending, hanswered⟩ := hrefused
      refine hd.continues (.of_subset hself hnext fun p hp => ?_) hanswered
      exact hpending ▸ hp
  | coalesced hp => exact hd.again hsound.distinct hp (hsound.entries _ hp).below
  | @cli packet hash hvalid =>
      have hframed : Framed _ { d with client := { d.client with
          attempts := d.client.attempts ++ [{ id := 0, attempt := 0, forceFlood := false }] } } _ :=
        framed_send lib radio (accounted_client hladdered.accounted _ d.stats)
          hsound.noteCli.distinct packet kPriorityDirect 0 none
      have hnoted : Answered { d.client with
          attempts := d.client.attempts ++ [{ id := 0, attempt := 0, forceFlood := false }] } :=
        hd.continues (.of_subset rfl le_rfl fun p hp => hp) rfl
      have hsent := hnoted.retimed hframed.retimed
      have hnext : d.client.nextId ≤ _ := (Continues.of_retimed hframed.retimed).nextId
      refine hsent.elsewhere hash (lt_of_lt_of_le hsound.counting hnext) fun p' hp' => ?_
      obtain ⟨p, hp, hgrown⟩ := (Continues.of_retimed hframed.retimed).entries p' hp'
      rw [hgrown.id]
      exact (hsound.entries p hp).positive.ne'
  | @handed p packet hfresh hvalid hcarries =>
      have hhanding := hladdered.registered hfresh
      have hframed : Framed _ { d with client := d.client.registered lib p } _ :=
        framed_send lib radio hhanding.accounted hhanding.sound.distinct packet
          kPriorityDirect 0 (some p.id)
      generalize (Dispatcher.send onTxResult lib radio
        { d with client := d.client.registered lib p } packet kPriorityDirect 0 (some p.id)).2 = d'
        at hframed ⊢
      obtain ⟨timer, heq⟩ := hframed.retimed
      refine (hd.registered hsound hfresh).retimed ⟨timer, ?_⟩
      show { d'.client with
        answered := (p.id, p.onAirHash lib d.client.self) :: d'.client.answered } = _
      rw [heq]
      rfl

theorem Continues.retrying {d d' : Air} {id : Nat} (hladdered : Laddered lib limit d)
    (hretrying : Retrying lib radio d id d') :
    Continues d.client d'.client ∧ d'.client.answered = d.client.answered := by
  have hsound := hladdered.sound
  cases hretrying with
  | idle => exact ⟨.of_subset rfl le_rfl fun p hp => hp, rfl⟩
  | erased => exact ⟨.erase d.client id, rfl⟩
  | tooLong stats hp hid hnext =>
      exact ⟨(Continues.climbed hsound hp hnext _).trans (.erase _ id), rfl⟩
  | @handed p packet hp hid htimer hnext hvalid hcarries =>
      have hhanding := hladdered.climbed hp htimer hnext
      have hframed := framed_send lib radio hhanding.accounted
        hhanding.sound.distinct packet kPriorityDirect 0 (some p.id)
      have hanswered := answered_of_retimed hframed.retimed
      exact ⟨(Continues.climbed hsound hp hnext _).trans (.of_retimed hframed.retimed), hanswered⟩

theorem Carried.retrying {d d' : Air} {id : Nat} (hd : Carried lib d)
    (hladdered : Laddered lib limit d) (hretrying : Retrying lib radio d id d') :
    Carried lib d' := by
  have hcontinues := (Continues.retrying hladdered hretrying).1
  cases hretrying with
  | idle => exact hd
  | erased => exact hd.continues rfl hcontinues
  | tooLong stats hp hid hnext => exact hd.continues rfl hcontinues
  | @handed p packet hp hid htimer hnext hvalid hcarries =>
      have hhanding := hladdered.climbed hp htimer hnext
      have hclimbed : Carried lib
          { d with client := d.client.climbed lib p (decide (p.attempt + 1 = 3)) } :=
        hd.continues rfl (Continues.climbed hladdered.sound hp hnext _)
      exact hclimbed.send hhanding.accounted hhanding.sound hhanding.member hcarries _ _

/-- The ladder with both records in order. -/
structure Recorded (lib : Crypto.Library) (limit : Nat) (d : Air) : Prop where
  laddered : Laddered lib limit d
  carried : Carried lib d
  answered : Answered d.client

theorem recorded_step (o : Outgoing) (event : Outgoing.Event) (hd : Recorded lib limit o.air) :
    Recorded lib limit (o.step lib event).air := by
  have hladdered := hd.laddered
  refine ⟨laddered_step o event hladdered, ?_, ?_⟩
  · cases event with
    | send dest text txtType timestamp radio =>
        exact hd.carried.sending hladdered
          (sending_send hladdered.sound dest text txtType timestamp)
    | timer id radio =>
        exact hd.carried.retrying hladdered (retrying_onTimer hladdered.sound o.contacts id)
    | complete ackHash => exact hd.carried.continues rfl (.complete _ ackHash)
    | contacts store => exact hd.carried
    | other event => exact hd.carried.other hladdered.accounted hladdered.sound event
  · cases event with
    | send dest text txtType timestamp radio =>
        exact hd.answered.sending hladdered
          (sending_send hladdered.sound dest text txtType timestamp)
    | timer id radio =>
        have hretrying : Retrying lib radio o.air id (o.air.onTimer lib radio o.contacts id) :=
          retrying_onTimer hladdered.sound o.contacts id
        obtain ⟨hcontinues, hanswered⟩ := Continues.retrying hladdered hretrying
        exact hd.answered.continues hcontinues hanswered
    | complete ackHash =>
        refine hd.answered.continues (.complete _ ackHash) ?_
        rcases complete_cases o.air.client ackHash with ⟨_, heq⟩ | ⟨_, _, _, _, _, _, heq⟩
        · exact congrArg (fun result => result.2.answered) heq
        · exact congrArg (fun result => result.2.answered) heq
    | contacts store => exact hd.answered
    | other event =>
        exact hd.answered.retimed
          (framed_step hladdered.accounted hladdered.sound.distinct _).retimed

theorem recorded_run (percent : ℚ) (queueLimit pendingLimit : Nat) (self : LocalIdentity)
    (contacts : ContactStore) (time : Nat) (events : List Outgoing.Event) :
    Recorded lib pendingLimit (run (Outgoing.step lib)
      (Outgoing.new percent queueLimit pendingLimit self contacts time) events).air := by
  have hstep : ∀ (o : Outgoing) (event : Outgoing.Event), Recorded lib pendingLimit o.air →
      Recorded lib pendingLimit (o.step lib event).air := fun o event => recorded_step o event
  refine run_invariant hstep ⟨?_, ?_, ?_⟩ events
  · exact laddered_run percent queueLimit pendingLimit self contacts time []
  · intro q hq
    simp [Outgoing.new, Dispatcher.new] at hq
  · exact ⟨by simp [Outgoing.new, Dispatcher.new], by simp [Outgoing.new, Dispatcher.new]⟩

end Coreletd.Mesh.Air
