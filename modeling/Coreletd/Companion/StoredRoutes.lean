/-
# Routes a packet can carry

A path length on the air counts hops in six bits, so a route has at most 63. The
path a contact returns is decoded from such a length and keeps to it; the app's
command and the state file have a field of 64 bytes and are held to that. A route
of exactly 64 hops is stored, and every packet along it is refused.
-/

import Coreletd.Companion.ContactRuns
import Coreletd.Mesh.AckAgreement

namespace Coreletd.Companion

open Coreletd.Crypto Coreletd.Library Coreletd.Proto Coreletd.Mesh

variable {lib : Crypto.Library} {s : ContactStore}

/-! ## What a stored route must allow -/

/-- Every packet with a payload that fits can be sent along the contact's route; a
text to it is too long only when its sealed payload is; and its acks are taken
on. -/
structure Usable (lib : Crypto.Library) (c : Contact) : Prop where
  valid : ∀ p : Packet, 1 ≤ p.payload.length → p.payload.length ≤ kMaxPayloadSize →
    (routed c false p).valid = true
  accepted : ∀ (d : Air) (radio : RadioView) (p : Packet) (priority : UInt8) (onResult : Option Nat),
    1 ≤ p.payload.length → p.payload.length ≤ kMaxPayloadSize →
    (routeTo ReliableSender.onTxResult lib radio d p c priority false onResult).1 = true
  tooLong : ∀ (d : Air) (radio : RadioView) (waiting : Pending),
    (d.sendAttempt lib radio waiting c false).1 = .error .tooLong →
    kMaxPayloadSize < (DirectEnvelope.sealWith lib c.id d.client.self.id
      (c.sharedSecret lib d.client.self) waiting.plaintext).encode.length
  acked : ∀ (d : Air) (m : Moment) (self : LocalIdentity) (plaintext : Bytes) (msg : TextMessage),
    Node.ackOf lib m self c plaintext msg ≠ [] →
    (routeTo ReliableSender.onTxResult lib m.radio d
      { type := .ack, payload := Node.ackOf lib m self c plaintext msg } c kPriorityAck false
      none).1 = true

/-- All stored routes can be used. -/
def RoutesUsable (lib : Crypto.Library) (s : ContactStore) : Prop :=
  ∀ c ∈ s.contacts, c.pathKnown = true → Usable lib c

/-- No stored route has more hops than a packet can count. -/
def ShortRoutes (s : ContactStore) : Prop :=
  ∀ c ∈ s.contacts, c.pathKnown = true → c.outPath.length ≤ 63

theorem valid_routed {c : Contact} (hknown : c.pathKnown = true) {p : Packet}
    (hpayload : p.payload.length ≤ kMaxPayloadSize) (hshort : c.outPath.length ≤ 63) :
    (routed c false p).valid = true := by
  rw [routed, if_pos (by simp [hknown])]
  exact Node.valid_of_short rfl rfl hshort hpayload

theorem invalid_routed {c : Contact} (hknown : c.pathKnown = true) (p : Packet)
    (hlong : 63 < c.outPath.length) : (routed c false p).valid = false := by
  rw [routed, if_pos (by simp [hknown]), Packet.valid]
  split
  · rfl
  · split
    · rfl
    · rw [if_pos]
      left
      rw [Packet.hopCount, if_neg (by simp)]
      simpa using hlong

theorem send_fst (lib : Crypto.Library) (d : Air) (radio : RadioView) (p : Packet)
    (priority : UInt8) (delayMs : UInt32) (onResult : Option Nat) :
    (Dispatcher.send ReliableSender.onTxResult lib radio d p priority delayMs onResult).1 =
      p.valid := by
  rw [Dispatcher.send]
  cases p.valid <;> rfl

/-- A route can be used exactly when it is short enough to count. -/
theorem usable_iff {c : Contact} (hknown : c.pathKnown = true) :
    Usable lib c ↔ c.outPath.length ≤ 63 := by
  constructor
  · intro husable
    by_contra hlong
    have hvalid := husable.valid { payload := [0] } (by simp) (by simp [kMaxPayloadSize])
    rw [invalid_routed hknown _ (Nat.lt_of_not_le hlong)] at hvalid
    simp at hvalid
  · intro hshort
    have hvalid : ∀ p : Packet, p.payload.length ≤ kMaxPayloadSize →
        (routed c false p).valid = true := fun p hpayload => valid_routed hknown hpayload hshort
    refine ⟨fun p _ hpayload => hvalid p hpayload, ?_, ?_, ?_⟩
    · intro d radio p priority onResult _ hpayload
      rw [routeTo, send_fst]
      exact hvalid p hpayload
    · intro d radio waiting hrefused
      by_contra hfits
      rw [Air.sendAttempt] at hrefused
      dsimp only at hrefused
      split at hrefused
      · simp at hrefused
      · split at hrefused
        · next hsent =>
          have hfst := congrArg Prod.fst hsent
          rw [routeTo, send_fst, hknown] at hfst
          have hfits' := hvalid { type := .txtMsg, payload := (DirectEnvelope.sealWith lib c.id
            d.client.self.id (c.sharedSecret lib d.client.self) waiting.plaintext).encode }
            (Nat.le_of_not_lt hfits)
          exact absurd (hfst.symm.trans hfits') Bool.false_ne_true
        · simp at hrefused
    · intro d m self plaintext msg _
      rw [routeTo, send_fst]
      refine hvalid _ ?_
      exact (Node.length_ackOf lib m self c plaintext msg).trans (by decide)

theorem routesUsable_iff : RoutesUsable lib s ↔ ShortRoutes s := by
  constructor
  · exact fun husable c hc hknown => (usable_iff hknown).mp (husable c hc hknown)
  · exact fun hshort c hc hknown => (usable_iff hknown).mpr (hshort c hc hknown)

/-! ## Where routes come from -/

/-- The route spelled out in a record line of the state file. -/
def recordRoute (line : Bytes) : Option Bytes :=
  if line.head? = some 35 then none
  else ((splitFields line 9).bind fun fields => fields[7]?).bind unhex

/-- What an operation brings in, if it is carried out, has no route of 64 hops: no
frame the command accepts says so in its path length, and no record of a file the
loader accepts spells one out. -/
def BringsShortRoutes (s : ContactStore) : StoreOp → Prop
  | .addUpdateContact args =>
      ∀ s', cmdAddUpdateContact s args = .ok s' →
        (readAddUpdateHead args).1.pathLen.toNat ≠ kMaxPathSize
  | .load fs =>
      (s.load fs).1 = .loaded → ∀ content, fs s.path = some content →
        ∀ line ∈ Text.lines lf content, ∀ route, recordRoute line = some route →
          route.length ≠ kMaxPathSize
  | _ => True

/-- A record that parses holds no route but the one it spells out. -/
theorem outPath_of_parseRecord {limit : Nat} {loaded : List Contact} {line : Bytes} {c : Contact}
    (hparse : ContactStore.parseRecord limit loaded line = .ok c) :
    c.outPath = [] ∨
      ((splitFields line 9).bind fun fields => fields[7]?).bind unhex = some c.outPath := by
  rw [ContactStore.parseRecord] at hparse
  split at hparse
  · next hfields =>
    split at hparse
    · exact absurd hparse (by simp)
    · split at hparse
      · exact absurd hparse (by simp)
      · split at hparse
        · exact absurd hparse (by simp)
        · split at hparse
          · split at hparse
            · exact absurd hparse (by simp)
            · next known outPath hpath =>
              split at hparse
              · exact absurd hparse (by simp)
              · obtain rfl := Except.ok.inj hparse
                rw [ContactStore.parsePath] at hpath
                split at hpath
                · obtain ⟨-, rfl⟩ := Prod.mk.inj (Option.some.inj hpath)
                  exact .inl rfl
                · split at hpath
                  · obtain ⟨-, rfl⟩ := Prod.mk.inj (Option.some.inj hpath)
                    exact .inl rfl
                  · split at hpath
                    · next hroute =>
                      split at hpath
                      · exact absurd hpath (by simp)
                      · obtain ⟨-, rfl⟩ := Prod.mk.inj (Option.some.inj hpath)
                        right
                        simpa [hfields] using hroute
                    · exact absurd hpath (by simp)
          · exact absurd hparse (by simp)
  · exact absurd hparse (by simp)

/-- Every loaded contact's route is spelled out in some record, or empty. -/
theorem routes_of_foldlM {limit : Nat} {lines : List Bytes} {result : Bool × List Contact}
    (hfold : lines.foldlM (ContactStore.loadLine limit) (false, []) = .ok result) :
    ∀ c ∈ result.2, c.outPath = [] ∨ ∃ line ∈ lines, recordRoute line = some c.outPath := by
  refine foldlM_invariant (fun acc : Bool × List Contact => ∀ c ∈ acc.2, c.outPath = [] ∨
    ∃ line ∈ lines, recordRoute line = some c.outPath) ?_ (by simp) hfold
  intro line hline acc next hacc hnext
  rw [ContactStore.loadLine] at hnext
  split at hnext
  · obtain rfl := Except.ok.inj hnext
    exact hacc
  · split at hnext
    · obtain rfl := Except.ok.inj hnext
      exact hacc
    · next hrecord =>
      split at hnext
      · next c hparse =>
        obtain rfl := Except.ok.inj hnext
        intro other hother
        rcases List.mem_append.mp hother with hold | hnew
        · exact hacc other hold
        · obtain rfl := List.mem_singleton.mp hnew
          refine (outPath_of_parseRecord hparse).imp_right fun hroute => ⟨line, hline, ?_⟩
          rw [recordRoute, if_neg fun hcomment => hrecord (.inr hcomment)]
          exact hroute
      · exact absurd hnext (by simp)

/-- A load leaves the store alone, or takes over what the lines of its file hold. -/
theorem load_takes_over (s : ContactStore) (fs : FileSystem) :
    (s.load fs).2 = s ∨
    ∃ content sawHeader loaded, (s.load fs).1 = .loaded ∧ fs s.path = some content ∧
      (Text.lines lf content).foldlM (ContactStore.loadLine s.maxContacts) (false, []) =
        .ok (sawHeader, loaded) ∧
      (s.load fs).2.contacts = loaded := by
  rw [ContactStore.load]
  split
  · exact .inl rfl
  · split
    · exact .inl rfl
    · next content hcontent =>
      dsimp only
      split
      · exact .inl rfl
      · next sawHeader loaded hlines =>
        rw [if_neg (by simp)]
        split
        · exact .inl rfl
        · exact .inr ⟨content, sawHeader, loaded, rfl, hcontent, hlines, rfl⟩

theorem shortRoutes_load (hshort : ShortRoutes s) (hstorable : s.WellFormed) {fs : FileSystem}
    (hfile : BringsShortRoutes s (.load fs)) : ShortRoutes (s.load fs).2 := by
  have hwell := wellFormed_load hstorable fs
  rcases load_takes_over s fs with
    hsame | ⟨content, sawHeader, loaded, hloaded, hcontent, hlines, htaken⟩
  · rw [hsame]
    exact hshort
  · intro c hc _
    have hfits := (hwell.storable c hc).path_length
    rw [htaken] at hc
    rcases routes_of_foldlM hlines c hc with hempty | ⟨line, hline, hroute⟩
    · simp [hempty]
    · have hne := hfile hloaded content hcontent line hline c.outPath hroute
      simp only [kMaxPathSize] at hfits hne
      omega

/-- A returned route of one-byte hashes has at most 63 hops: its length came in six
bits. -/
theorem path_length_of_decode_one {plaintext : Bytes} {ret : PathReturn}
    (hdecode : PathReturn.decode plaintext = some ret) (hsize : ret.pathHashSize = 1) :
    ret.path.length ≤ 63 := by
  have hhops := (PathReturn.pathFits_of_decode hdecode).hops
  simpa only [hsize, Nat.div_one] using hhops

/-! ## Runs -/

/-- A step that brings in no route of 64 hops leaves none. -/
theorem shortRoutes_storeStep (lib : Crypto.Library) (hshort : ShortRoutes s) (hwell : s.WellFormed)
    {op : StoreOp} (hop : BringsShortRoutes s op) : ShortRoutes (storeStep lib s op) := by
  have hnew : ∀ pubkey : Bytes, ({ pubkey } : Contact).pathKnown = true →
      ({ pubkey } : Contact).outPath.length ≤ 63 := fun _ h => by simp at h
  cases op with
  | advert payload now =>
      obtain hsame | ⟨adv, app, created, -, -, happly⟩ := storeStep_advert lib s payload now
      · rw [hsame]
        exact hshort
      · exact forall_applyAdvert hshort (hnew _) (fun c hc => hc) happly
  | addUpdateContact args =>
      obtain hsame | hcmd := storeStep_addUpdateContact lib s args
      · rw [hsame]
        exact hshort
      · have hne := hop _ hcmd
        refine cmdAddUpdateContact_keeps ShortRoutes hcmd hshort ?_ ?_ ?_ ?_ ?_
        · exact fun _ _ pubkey _ hs hupsert => forall_upsert hs (hnew pubkey) hupsert
        · exact fun _ _ _ _ hs => forall_modify hs fun _ hc => hc
        · exact fun _ _ hs => forall_clearPath hs fun _ _ h => by simp at h
        · intro _ _ path hlength hfits hs
          refine forall_setPath hs fun _ _ _ => ?_
          rw [← hlength] at hne
          show path.length ≤ 63
          simp only [kMaxPathSize] at hfits hne
          omega
        · exact fun _ _ hs => forall_modify hs fun _ hc => hc
  | setPath pubkey plaintext =>
      obtain hsame | ⟨returned, hdecode, hsize, hset⟩ := storeStep_setPath lib s pubkey plaintext
      · rw [hsame]
        exact hshort
      · rw [hset]
        exact forall_setPath hshort fun _ _ _ => path_length_of_decode_one hdecode hsize
  | clearPath pubkey => exact forall_clearPath hshort fun _ _ h => by simp at h
  | touch pubkey now => exact forall_modify hshort fun _ hc => hc
  | remove pubkey => exact forall_remove hshort pubkey
  | load fs => exact shortRoutes_load hshort hwell hop

/-- **Stored routes can be used, those of 64 hops apart.** After every run of the
daemon's operations on the store, all routes can be used if and only if none of
them has 64 hops; and none has when no frame and no file of the run brought one
in. -/
theorem stored_routes_usable (lib : Crypto.Library) (path : Bytes) (limit : Nat)
    (ops : List StoreOp) :
    (RoutesUsable lib (run (storeStep lib) { path, maxContacts := limit } ops) ↔
      ∀ c ∈ (run (storeStep lib) { path, maxContacts := limit } ops).contacts,
        c.pathKnown = true → c.outPath.length ≠ 64) ∧
    (Along (storeStep lib) BringsShortRoutes { path, maxContacts := limit } ops →
      RoutesUsable lib (run (storeStep lib) { path, maxContacts := limit } ops)) := by
  constructor
  · have hwell := (run_wellFormed lib path limit ops).1
    rw [routesUsable_iff]
    constructor
    · intro hshort c hc hknown
      have := hshort c hc hknown
      omega
    · intro hne c hc hknown
      have hfits := (hwell.storable c hc).path_length
      have := hne c hc hknown
      simp only [kMaxPathSize] at hfits
      omega
  · intro hrun
    have hstep : ∀ (s : ContactStore) (op : StoreOp), s.WellFormed ∧ ShortRoutes s →
        BringsShortRoutes s op → (storeStep lib s op).WellFormed ∧
          ShortRoutes (storeStep lib s op) :=
      fun s op hs hop => ⟨wellFormed_storeStep lib hs.1 op, shortRoutes_storeStep lib hs.2 hs.1 hop⟩
    have hinit : ContactStore.WellFormed { path, maxContacts := limit } ∧
        ShortRoutes { path, maxContacts := limit } :=
      ⟨⟨by simp, by simp, by simp⟩, fun c hc => absurd hc (by simp)⟩
    exact routesUsable_iff.mpr (Along.invariant hstep hinit hrun).2

/-! ## One hop too many -/

/-- An app's frame for one contact with a route of a given number of hops, and
nothing behind the path field. -/
def routeFrame (hops : UInt8) : Bytes :=
  List.replicate 32 0x11 ++ [0x01, 0x00, hops] ++ List.replicate 64 0x22

/-- The app stores a route of 64 hops, and no packet can be sent along it. -/
theorem route_of_64_unusable :
    ¬ RoutesUsable Crypto.Library.transparent
      (run (storeStep Crypto.Library.transparent)
        { path := Text.ascii "contacts", maxContacts := 100 }
        [.addUpdateContact (routeFrame 64)]) := by
  rw [routesUsable_iff, ShortRoutes]
  decide +kernel

/-- One of 63 can be used. -/
theorem stored_routes_usable_63 :
    RoutesUsable Crypto.Library.transparent
      (run (storeStep Crypto.Library.transparent)
        { path := Text.ascii "contacts", maxContacts := 100 }
        [.addUpdateContact (routeFrame 63)]) := by
  refine (stored_routes_usable Crypto.Library.transparent (Text.ascii "contacts") 100
    [.addUpdateContact (routeFrame 63)]).2 ⟨?_, trivial⟩
  intro s' _
  decide +kernel

end Coreletd.Companion
