/-
# Replies end

Nodes answer each other: a text is answered, the answer may be answered with a
route, and what keeps this from going on for ever is a rank over type and
routing that every answer lowers. Relaying leaves the rank alone.

The network here is as bad as it can be. Whatever some dispatcher took on may be
heard from then on by anybody, in any order, any number of times or never, and so
may anything else that decodes. Each packet carries the automatic packets it goes
back to, newest first: that is its causal chain.
-/

import Coreletd.Mesh.Reception
import Coreletd.Proto.PacketCodec
import Mathlib.Data.List.Chain
import Mathlib.Logic.Function.Basic

namespace Coreletd.Mesh

open Coreletd.Crypto
open Coreletd.Library
open Coreletd.Proto

namespace Node

variable {lib : Crypto.Library} {m : Moment} {n : Node} {p : Packet}

/-! ## Reading and sending on -/

section

variable (lib : Crypto.Library) (m : Moment)

/-- The first half of `onPacket`: what the packet means to this node, and whether it
may go on. -/
def read (n : Node) (p : Packet) : Bool × Node :=
  if p.isDirect && decide (p.type = .trace) then (true, n)
  else if p.isDirect && decide (p.type = .control) && decide (p.payload.headD 0 &&& 0x80 ≠ 0) then
    (false, n)
  else if p.isDirect && decide (0 < p.hopCount) then
    if p.type = .ack then n.handleAck lib m p else (true, n)
  else n.handle lib m p

/-- The second half: the packet goes on as its kind does. -/
def relay (n : Node) (p : Packet) : Node :=
  if p.isDirect && decide (p.type = .trace) then n.forwardTrace lib m p
  else if p.isDirect && decide (0 < p.hopCount) then n.forwardDirect lib m p
  else n.maybeRepeat lib m p

/-- The node once it has read a packet and, if that may go on, sent it on. -/
def readThenRelay (n : Node) (p : Packet) : Node :=
  if (n.read lib m p).1 then (n.read lib m p).2.relay lib m p else (n.read lib m p).2

/-- What the node originates in response to a packet. -/
def automatic (n : Node) (p : Packet) : List Packet :=
  (Dispatcher.takenOnSince n.air (n.read lib m p).2.air).map (·.packet)

/-- The copies of a packet the node sends on. -/
def relayed (n : Node) (p : Packet) : List Packet :=
  (Dispatcher.takenOnSince (n.read lib m p).2.air (n.readThenRelay lib m p).air).map (·.packet)

end

/-- The two halves are `onPacket`. -/
theorem onPacket_eq (n : Node) (p : Packet) : n.onPacket lib m p = n.readThenRelay lib m p := by
  rw [onPacket, readThenRelay, read, relay]
  split
  · rfl
  · split
    · rfl
    · split
      · rw [passOn]
        generalize (if p.type = .ack then n.handleAck lib m p else (true, n)) = result
        rcases result with ⟨_ | _, n'⟩ <;> rfl
      · generalize n.handle lib m p = result
        rcases result with ⟨_ | _, n'⟩ <;> rfl

theorem handled_read (n : Node) (p : Packet) : Handled lib m n p (n.read lib m p) := by
  rw [read]
  split
  · exact .onward rfl rfl
  · split
    · exact .quiet (.refl n)
    · split
      · split
        · next hack => exact handled_handleAck hack
        · exact .onward rfl rfl
      · exact handled_handle

/-- One answer at most, and of the kind the packet asks for. -/
theorem automatic_cases (n : Node) (p : Packet) :
    n.automatic lib m p = [] ∨ ∃ out, n.automatic lib m p = [out] ∧ AnswerTo p out := by
  rw [automatic]
  have hhandled : Handled lib m n p (n.read lib m p) := handled_read n p
  generalize n.read lib m p = result at hhandled ⊢
  have hquiet : ∀ {n' : Node}, AirKept n n' →
      (Dispatcher.takenOnSince n.air n'.air).map (·.packet) = [] := fun hkept =>
    List.map_eq_nil_iff.mpr (Dispatcher.takenOnSince_of_append hkept.takenOn)
  cases hhandled with
  | onward hair => exact .inl (hquiet (.of_eq hair))
  | quiet hkept => exact .inl (hquiet hkept)
  | answered hkept hanswer =>
      rw [takenOn_nodeTransmit hkept]
      split
      · exact .inr ⟨_, rfl, hanswer⟩
      · exact .inl rfl

theorem answerTo_of_automatic {out : Packet} (hout : out ∈ n.automatic lib m p) :
    AnswerTo p out := by
  rcases automatic_cases (m := m) n p with hnone | ⟨answer, hone, hanswer⟩
  · rw [hnone] at hout
    simp at hout
  · rw [hone] at hout
    obtain rfl := List.mem_singleton.mp hout
    exact hanswer

/-- What is sent on is a copy. -/
theorem relay_cases (n : Node) (p : Packet) :
    n.relay lib m p = n ∨ ∃ out priority delayMs, CopyOf p out ∧
      n.relay lib m p = n.transmit lib m out priority delayMs := by
  have hcopied {May : Packet → UInt8 → UInt32 → Prop} {n' : Node}
      (hcopy : ∀ out priority delayMs, May out priority delayMs → CopyOf p out)
      (hsent : Transmits lib m n May n') :
      n' = n ∨ ∃ out priority delayMs, CopyOf p out ∧
        n' = n.transmit lib m out priority delayMs := by
    cases hsent with
    | nothing => exact .inl rfl
    | one hmay => exact .inr ⟨_, _, _, hcopy _ _ _ hmay, rfl⟩
  rw [relay]
  split
  · refine hcopied (fun out _ _ hout => ?_) (transmits_forwardTrace n p)
    rw [hout.heard]
    exact ⟨rfl, rfl, rfl⟩
  · split
    · refine hcopied (fun out _ _ hout => ?_) (transmits_forwardDirect n p)
      rw [hout.popped]
      exact copyOf_popHop p
    · exact hcopied (fun out _ _ hout => copyOf_pushHop hout.pushed) (transmits_maybeRepeat n p)

theorem copyOf_relayed {out : Packet} (hout : out ∈ n.relayed lib m p) : CopyOf p out := by
  rw [relayed, readThenRelay] at hout
  generalize n.read lib m p = result at hout
  have hquiet : ¬ out ∈ (Dispatcher.takenOnSince result.2.air result.2.air).map (·.packet) := by
    rw [Dispatcher.takenOnSince_of_append (List.nil_append _).symm]
    simp
  split at hout
  · have hcases : result.2.relay lib m p = result.2 ∨ _ := relay_cases result.2 p
    rcases hcases with heq | ⟨copy, priority, delayMs, hcopy, heq⟩
    · rw [heq] at hout
      exact absurd hout hquiet
    · rw [heq, takenOn_nodeTransmit (.refl _)] at hout
      split at hout
      · obtain rfl := List.mem_singleton.mp hout
        exact hcopy
      · simp at hout
  · exact absurd hout hquiet

/-- Nothing of what was taken on is ever forgotten. -/
theorem takenOn_transmit_suffix (n : Node) (out : Packet) (priority : UInt8) (delayMs : UInt32) :
    n.air.takenOn <:+ (n.transmit lib m out priority delayMs).air.takenOn := by
  rw [transmit]
  dsimp only
  rw [Dispatcher.takenOn_send]
  exact List.suffix_append _ _

/-- A reception queues its answer and its copies, and nothing besides. -/
theorem queuedBy_eq (n : Node) (p : Packet) :
    n.queuedBy lib m p = n.relayed lib m p ++ n.automatic lib m p := by
  have hread : n.air.takenOn <:+ (n.read lib m p).2.air.takenOn := by
    have hhandled : Handled lib m n p (n.read lib m p) := handled_read n p
    generalize n.read lib m p = result at hhandled ⊢
    cases hhandled with
    | onward hair => exact (AirKept.of_eq hair).takenOn ▸ List.suffix_rfl
    | quiet hkept => exact hkept.takenOn ▸ List.suffix_rfl
    | answered hkept =>
        rw [← hkept.takenOn]
        exact takenOn_transmit_suffix _ _ _ _
  have hrelay : (n.read lib m p).2.air.takenOn <:+ (n.readThenRelay lib m p).air.takenOn := by
    rw [readThenRelay]
    generalize n.read lib m p = result
    split
    · have hcases : result.2.relay lib m p = result.2 ∨ _ := relay_cases result.2 p
      rcases hcases with heq | ⟨out, priority, delayMs, -, heq⟩
      · exact heq.symm ▸ List.suffix_rfl
      · rw [heq]
        exact takenOn_transmit_suffix _ _ _ _
    · exact List.suffix_rfl
  rw [queuedBy, relayed, automatic, onPacket_eq, ← List.map_append,
    Dispatcher.takenOnSince_trans hread hrelay]

/-! ## The rank -/

/-- How many automatic packets can still follow from one. -/
def rank (p : Packet) : Nat :=
  if p.type = .txtMsg then 2
  else if (p.type = .ack ∨ p.type = .path) ∧ p.isFlood = true then 1
  else 0

theorem rank_le (p : Packet) : rank p ≤ 2 := by
  rw [rank]
  split
  · exact le_rfl
  · split <;> decide

theorem rank_congr {out : Packet} (htype : out.type = p.type) (hroute : out.route = p.route) :
    rank out = rank p := by
  rw [rank, rank, Packet.isFlood, Packet.isFlood, htype, hroute]

/-- What counts is type and route. -/
theorem AnswerTo.congr {p' out : Packet} (hanswer : AnswerTo p out) (htype : p'.type = p.type)
    (hroute : p'.route = p.route) : AnswerTo p' out := by
  have hflood : p'.isFlood = p.isFlood := by rw [Packet.isFlood, Packet.isFlood, hroute]
  have hdirect : p'.isDirect = p.isDirect := by rw [Packet.isDirect, Packet.isDirect, hroute]
  cases hanswer with
  | pathReturn hfrom hflooded hout hout' =>
      exact .pathReturn (htype.trans hfrom) (hflood.trans hflooded) hout hout'
  | ack hfrom hstraight hout => exact .ack (htype.trans hfrom) (hdirect.trans hstraight) hout
  | offer hfrom hflooded hout hout' =>
      rw [← htype] at hfrom
      exact .offer hfrom (hflood.trans hflooded) hout hout'

/-- An answer ranks below what it answers. -/
theorem rank_answerTo {out : Packet} (hanswer : AnswerTo p out) : rank out < rank p := by
  cases hanswer with
  | pathReturn htype _ hout hflooded => simp [rank, htype, hout, hflooded]
  | ack htype _ hout =>
      rw [rank, rank, htype, hout]
      cases out.isFlood <;> simp
  | offer htype hflood hout hdirect =>
      have hunflooded : out.isFlood = false := by
        rw [Packet.isDirect_eq_not_isFlood] at hdirect
        simpa using hdirect
      rcases htype with htype | htype <;> simp [rank, htype, hflood, hout, hunflooded]

end Node

/-! ## The network -/

/-- Bytes that may be heard, with the automatic packets they go back to. -/
structure Flight where
  raw : Bytes
  chain : List Packet := []

namespace Flight

/-- A packet as it goes on the air. -/
def carrying (chain : List Packet) (p : Packet) : Flight := { raw := p.encode, chain }

/-- How many automatic packets can still follow. -/
def rank (f : Flight) : Nat := (Packet.decode f.raw).elim 0 Node.rank

theorem rank_carrying_le (chain : List Packet) (p : Packet) :
    (carrying chain p).rank ≤ Node.rank p := by
  rw [rank, carrying]
  dsimp only
  cases hdecode : Packet.decode p.encode with
  | none => exact Nat.zero_le _
  | some arrived =>
      obtain ⟨htype, hroute⟩ := Packet.kind_of_decode_encode hdecode
      exact (Node.rank_congr htype hroute).le

end Flight

/-- What receiving a flight makes a node send: an answer lengthens the chain, a copy
does not. -/
def Node.emits (lib : Crypto.Library) (m : Moment) (n : Node) (f : Flight) (rssi snrQ4 : Int) :
    List Flight :=
  (Dispatcher.onRadioRx lib n.air f.raw rssi snrQ4).1.elim [] fun p =>
    ((n.hearing lib f.raw rssi snrQ4).automatic lib m p).map
        (fun out => .carrying (out :: f.chain) out) ++
      ((n.hearing lib f.raw rssi snrQ4).relayed lib m p).map (.carrying f.chain)

/-- Nodes, and all that was ever sent. -/
structure Network (ι : Type) where
  nodes : ι → Node
  flights : List Flight := []

namespace Network

variable {ι : Type} [DecidableEq ι]

/-- What can happen: something at one node, a packet from elsewhere included, or the
delivery to a node of the flight with a number. -/
inductive Event (ι : Type) where
  | act (i : ι) (event : Node.Event)
  | deliver (i : ι) (flight : Nat) (rssi snrQ4 : Int) (m : Moment)

section

variable (lib : Crypto.Library)

def receive (net : Network ι) (i : ι) (f : Flight) (rssi snrQ4 : Int) (m : Moment) : Network ι :=
  { nodes := Function.update net.nodes i ((net.nodes i).receive lib f.raw rssi snrQ4 m)
    flights := net.flights ++ (net.nodes i).emits lib m f rssi snrQ4 }

/-- What a node sends of its own accord goes back to nothing. -/
def act (net : Network ι) (i : ι) (event : Node.Event) : Network ι :=
  { nodes := Function.update net.nodes i ((net.nodes i).step lib event)
    flights := net.flights ++
      (Dispatcher.takenOnSince (net.nodes i).air ((net.nodes i).step lib event).air).map
        fun q => .carrying [] q.packet }

def step (net : Network ι) : Event ι → Network ι
  | .act i (.received raw rssi snrQ4 m) => net.receive lib i { raw } rssi snrQ4 m
  | .act i event => net.act lib i event
  | .deliver i flight rssi snrQ4 m =>
      net.flights[flight]?.elim net fun f => net.receive lib i f rssi snrQ4 m

end

/-- What holds of every flight: chain and rank together never exceed two, each packet
of the chain answers the one before it, and the flight is still what the latest of
them was sent as. -/
structure Chained (f : Flight) : Prop where
  ranked : f.chain.length + f.rank ≤ 2
  causal : f.chain.IsChain fun later earlier => Node.AnswerTo earlier later
  kind : ∀ latest ∈ f.chain.head?, ∀ p, Packet.decode f.raw = some p →
    p.type = latest.type ∧ p.route = latest.route

variable {lib : Crypto.Library} {net : Network ι}

theorem chained_foreign (raw : Bytes) : Chained { raw } := by
  refine ⟨?_, .nil, by simp⟩
  rw [Flight.rank]
  cases Packet.decode raw with
  | none => exact Nat.zero_le _
  | some p =>
      rw [List.length_nil, Nat.zero_add]
      exact Node.rank_le p

theorem Chained.answered {f : Flight} (hf : Chained f) {p out : Packet}
    (hdecode : Packet.decode f.raw = some p) (hanswer : Node.AnswerTo p out) :
    Chained (.carrying (out :: f.chain) out) := by
  refine ⟨?_, ?_, ?_⟩
  · have hfirst := hf.ranked
    have hlower : Node.rank out < Node.rank p := Node.rank_answerTo hanswer
    have hsent : (Flight.carrying (out :: f.chain) out).rank ≤ Node.rank out :=
      Flight.rank_carrying_le _ _
    rw [Flight.rank, hdecode, Option.elim_some] at hfirst
    show (out :: f.chain).length + _ ≤ 2
    rw [List.length_cons]
    omega
  · show (out :: f.chain).IsChain _
    rw [List.isChain_cons]
    refine ⟨fun latest hlatest => ?_, hf.causal⟩
    obtain ⟨htype, hroute⟩ := hf.kind latest hlatest p hdecode
    exact hanswer.congr htype.symm hroute.symm
  · intro latest hlatest arrived harrived
    obtain rfl : out = latest := Option.some.inj hlatest
    exact Packet.kind_of_decode_encode harrived

theorem Chained.relayed {f : Flight} (hf : Chained f) {p out : Packet}
    (hdecode : Packet.decode f.raw = some p) (hcopy : Node.CopyOf p out) :
    Chained (.carrying f.chain out) := by
  refine ⟨?_, hf.causal, ?_⟩
  · have hfirst := hf.ranked
    have hsent : (Flight.carrying f.chain out).rank ≤ Node.rank out := Flight.rank_carrying_le _ _
    have hsame : Node.rank out = Node.rank p := Node.rank_congr hcopy.type hcopy.route
    rw [Flight.rank, hdecode, Option.elim_some] at hfirst
    show f.chain.length + _ ≤ 2
    omega
  · intro latest hlatest arrived harrived
    obtain ⟨htype, hroute⟩ := Packet.kind_of_decode_encode harrived
    obtain ⟨htype', hroute'⟩ := hf.kind latest hlatest p hdecode
    exact ⟨htype.trans (hcopy.type.trans htype'), hroute.trans (hcopy.route.trans hroute')⟩

/-- Whatever comes of receiving a flight is chained as that was. -/
theorem Chained.emits {f : Flight} (hf : Chained f) {n : Node} {m : Moment} {rssi snrQ4 : Int}
    {sent : Flight} (hsent : sent ∈ n.emits lib m f rssi snrQ4) : Chained sent := by
  rw [Node.emits] at hsent
  cases hheard : (Dispatcher.onRadioRx lib n.air f.raw rssi snrQ4).1 with
  | none =>
      rw [hheard] at hsent
      simp at hsent
  | some p =>
      rw [hheard, Option.elim_some, List.mem_append, List.mem_map, List.mem_map] at hsent
      obtain ⟨arrived, hdecode, rfl⟩ := Dispatcher.heard_of_onRadioRx hheard
      rcases hsent with ⟨out, hout, rfl⟩ | ⟨out, hout, rfl⟩
      · have hanswer := Node.answerTo_of_automatic hout
        exact hf.answered hdecode (hanswer.congr rfl rfl)
      · have hcopy := Node.copyOf_relayed hout
        exact hf.relayed hdecode ⟨hcopy.route, hcopy.type, hcopy.payload⟩

/-- One event adds chained flights to chained ones. -/
theorem chained_step (net : Network ι) (event : Event ι)
    (hnet : ∀ f ∈ net.flights, Chained f) : ∀ f ∈ (net.step lib event).flights, Chained f := by
  have hreceive : ∀ (i : ι) (f : Flight) (rssi snrQ4 : Int) (m : Moment), Chained f →
      ∀ sent ∈ (net.receive lib i f rssi snrQ4 m).flights, Chained sent := by
    intro i f rssi snrQ4 m hf sent hsent
    rcases List.mem_append.mp hsent with hold | hnew
    · exact hnet sent hold
    · exact hf.emits hnew
  have hact : ∀ (i : ι) (event : Node.Event),
      ∀ sent ∈ (net.act lib i event).flights, Chained sent := by
    intro i event sent hsent
    rcases List.mem_append.mp hsent with hold | hnew
    · exact hnet sent hold
    · obtain ⟨q, -, rfl⟩ := List.mem_map.mp hnew
      exact chained_foreign _
  cases event with
  | act i event =>
      cases event with
      | received raw rssi snrQ4 m => exact hreceive i { raw } rssi snrQ4 m (chained_foreign raw)
      | _ => exact hact i _
  | deliver i flight rssi snrQ4 m =>
      rw [step]
      cases hf : net.flights[flight]? with
      | none => exact hnet
      | some f => exact hreceive i f rssi snrQ4 m (hnet f (List.mem_of_getElem? hf))

/-- **No reply storms.** What a received packet makes a node send is copies of that
packet and at most one packet of its own, which is of the kind that answers it; a
direct returned path or ack is not answered at all. So in every run of every
network the chain behind any packet is a chain of answers, and no longer than
two. -/
theorem no_reply_storms (lib : Crypto.Library) (nodes : ι → Node) (events : List (Event ι)) :
    (∀ (n : Node) (m : Moment) (p : Packet),
      n.queuedBy lib m p = n.relayed lib m p ++ n.automatic lib m p ∧
      (∀ out ∈ n.relayed lib m p, Node.CopyOf p out) ∧
      (n.automatic lib m p).length ≤ 1 ∧
      (∀ out ∈ n.automatic lib m p, Node.AnswerTo p out) ∧
      (p.isDirect = true → p.type = .path ∨ p.type = .ack → n.automatic lib m p = [])) ∧
    ∀ f ∈ (run (step lib) { nodes } events).flights,
      f.chain.length ≤ 2 ∧ f.chain.IsChain fun later earlier => Node.AnswerTo earlier later := by
  refine ⟨fun n m p => ⟨Node.queuedBy_eq n p, fun out => Node.copyOf_relayed, ?_,
    fun out => Node.answerTo_of_automatic, fun hdirect htype => ?_⟩, ?_⟩
  · rcases Node.automatic_cases (m := m) n p with hnone | ⟨out, hone, -⟩
    · rw [hnone]
      exact Nat.zero_le 1
    · rw [hone]
      exact le_rfl
  · rw [List.eq_nil_iff_forall_not_mem]
    intro out hout
    have hlower : Node.rank out < Node.rank p :=
      Node.rank_answerTo (Node.answerTo_of_automatic hout)
    rw [Packet.isDirect_eq_not_isFlood] at hdirect
    rcases htype with htype | htype <;> simp_all [Node.rank]
  · intro f hf
    have hstep : ∀ (net : Network ι) (event : Event ι), (∀ f ∈ net.flights, Chained f) →
        ∀ f ∈ (net.step lib event).flights, Chained f := chained_step
    have hchained : Chained f := run_invariant hstep (by simp) events f hf
    have hranked := hchained.ranked
    exact ⟨by omega, hchained.causal⟩

end Network

end Coreletd.Mesh
