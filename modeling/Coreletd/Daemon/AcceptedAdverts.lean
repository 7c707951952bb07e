/-
# Every advert is accepted

The size of an advert is settled in three places: what `validate` allows of a
name, what the node puts into an advert, and how that is encoded. However the
settings are read and changed, the three agree, and a receiver finds in an advert
what was set.
-/

import Coreletd.Daemon.SettingsRestart

namespace Coreletd.Daemon

open Coreletd.Crypto
open Coreletd.Library
open Coreletd.Mesh
open Coreletd.Proto
open Coreletd.Radio

/-! ## Startup -/

/-- `std::toupper` in the C locale. -/
def toUpper (c : UInt8) : UInt8 := if 97 ≤ c ∧ c ≤ 122 then c - 32 else c

/-- What a node is called that nobody has named: the first four bytes of its key. -/
def defaultName (pub : Bytes) : Bytes := (hex (subview pub 0 4)).map toUpper

/-- What `Config::load` leaves: the config file has no say in the app's keys, and
none in what an advert carries. -/
def Config.loaded (stateDir : Bytes) (radio : RadioParams) (node : NodeConfig) : Config :=
  { stateDir, radio, node }

/-- The config that `App::start` reads the settings over. -/
def Config.named (cfg : Config) (self : LocalIdentity) : Config :=
  if cfg.profile.name = [] then
    { cfg with profile := { cfg.profile with name := defaultName self.pub } }
  else cfg

/-- The node that `App::start` makes from the settings, attached. -/
def SettingsStore.started (store : SettingsStore) (node : Node) (radio : Sx1262) :
    SettingsStore :=
  store.attach { node, profile := store.cfg.profile, radio }

namespace SettingsStore

/-- The daemon as the settings see it: the node and the radio go on, and the app
changes settings. -/
inductive Turn where
  | goesOn (node : Node) (radio : Sx1262)
  | set (io : SaveIo) (met : Applying) (fs : FileSystem) (changes : List Change)

def turn (store : SettingsStore) : Turn → SettingsStore
  | .goesOn node radio =>
      { store with running := store.running.map fun running => { running with node, radio } }
  | .set io met fs changes => (store.set io met fs changes).2.1

end SettingsStore

/-! ## What fits -/

/-- What `validate` lets through fits an advert. -/
theorem advertisable_of_validate {cfg : Config} (hvalid : cfg.validate = .ok ())
    (htype : cfg.profile.advType = kAdvTypeChat) : cfg.profile.Advertisable := by
  obtain ⟨hne, hprintable, hlength⟩ := SettingsStore.name_of_validate hvalid
  refine ⟨by rw [htype]; rfl, hne, fun hfirst => ?_, ?_⟩
  · have hcontrol := hprintable 0 (List.mem_of_head? hfirst)
    exact absurd hcontrol (by decide)
  · simp only [kMaxAdvertAppDataSize] at hlength
    split at hlength <;> rename_i hlocated
    · rw [if_pos hlocated]
      omega
    · rw [if_neg hlocated]
      omega

theorem length_hex (b : Bytes) : (hex b).length = 2 * b.length := by
  induction b with
  | nil => rfl
  | cons c b ih =>
      have hcons : hex (c :: b) = kDigits (c >>> 4) :: kDigits (c &&& 0x0f) :: hex b := rfl
      rw [hcons, List.length_cons, List.length_cons, ih, List.length_cons]
      omega

/-- A name of eight digits. -/
theorem advertisable_named (stateDir : Bytes) (radio : RadioParams) (node : NodeConfig)
    (self : LocalIdentity) :
    ((Config.loaded stateDir radio node).named self).profile.Advertisable := by
  have hprofile : ((Config.loaded stateDir radio node).named self).profile =
      { name := defaultName self.pub } := rfl
  have hlength : (defaultName self.pub).length = 8 := by
    rw [defaultName, List.length_map, length_hex, subview, List.drop_zero, List.length_take,
      self.pub_length]
    rfl
  rw [hprofile]
  have hne : defaultName self.pub ≠ [] := List.ne_nil_of_length_pos (by omega)
  refine ⟨by dsimp only; decide, hne, fun hfirst => ?_, ?_⟩
  · obtain ⟨digit, hdigit, hzero⟩ := List.mem_map.mp (List.mem_of_head? hfirst)
    have hnibble := nibble_isSome_of_mem_hex hdigit
    have hnonzero : digit ≠ 0 := by
      rintro rfl
      exact absurd hnibble (by decide)
    rw [toUpper] at hzero
    split at hzero
    next hletter =>
      have hvalue := congrArg UInt8.toNat hzero
      simp only [UInt8.le_iff_toNat_le, UInt8.toNat_sub, UInt8.reduceToNat] at hletter hvalue
      omega
    next => exact hnonzero hzero
  · show 1 + 0 + (defaultName self.pub).length ≤ 32
    omega

namespace SettingsStore

/-- What holds of a daemon throughout: the settings fit an advert, and the node has
what they say. -/
structure Advertising (store : SettingsStore) : Prop where
  fits : store.cfg.profile.Advertisable
  advType : store.cfg.profile.advType = kAdvTypeChat
  profile : ∀ running ∈ store.running, running.profile = store.cfg.profile

variable {store : SettingsStore}

/-- A start reads no settings, or settings that passed. -/
theorem load_cases {fs : FileSystem} {loaded : SettingsStore} (hok : store.load fs = .ok loaded) :
    loaded = store ∨ loaded.cfg.validate = .ok () := by
  rw [SettingsStore.load] at hok
  split at hok
  · exact .inl (Except.ok.inj hok).symm
  · split at hok
    · simp at hok
    · split at hok
      · simp at hok
      next =>
        split at hok
        · simp at hok
        next hvalid =>
          obtain rfl := Except.ok.inj hok
          exact .inr hvalid

theorem advType_of_operator {a b : Config} (hoperator : a.operatorPart = b.operatorPart) :
    a.profile.advType = b.profile.advType :=
  congrArg (·.profile.advType) hoperator

theorem Advertising.set (hstore : store.Advertising) (io : SaveIo) (met : Applying)
    (fs : FileSystem) (changes : List Change) : (store.set io met fs changes).2.1.Advertising := by
  rcases store.set_cases io met fs changes with
    ⟨-, hset⟩ | ⟨next, stored, haccept, ⟨fs', -, hset⟩ | ⟨fs', -, hset⟩⟩
  · rw [hset]
    exact hstore
  · rw [hset]
    exact hstore
  · rw [hset]
    rw [SettingsStore.accept] at haccept
    split at haccept
    · simp at haccept
    next next hall =>
      split at haccept
      · simp at haccept
      next hvalid =>
        simp only [Option.some.injEq, Prod.mk.injEq] at haccept
        obtain ⟨rfl, rfl⟩ := haccept
        have htype := (advType_of_operator (Config.setAll_frame hall).1).trans hstore.advType
        refine ⟨advertisable_of_validate hvalid htype, htype, fun running hrunning => ?_⟩
        rw [SettingsStore.apply, Option.mem_def, Option.map_eq_some_iff] at hrunning
        obtain ⟨before, hbefore, rfl⟩ := hrunning
        have hsame : before.profile.advType = next.profile.advType := by
          rw [hstore.profile before hbefore]
          exact hstore.advType.trans htype.symm
        show NodeProfile.mk next.profile.name before.profile.advType next.profile.latE6
          next.profile.lonE6 = next.profile
        rw [hsame]

theorem Advertising.turn (hstore : store.Advertising) (turn : Turn) :
    (store.turn turn).Advertising := by
  cases turn with
  | goesOn node radio =>
      refine ⟨hstore.fits, hstore.advType, fun running hrunning => ?_⟩
      rw [SettingsStore.turn, Option.mem_def, Option.map_eq_some_iff] at hrunning
      obtain ⟨before, hbefore, rfl⟩ := hrunning
      exact hstore.profile before hbefore
  | set io met fs changes => exact hstore.set io met fs changes

/-- A daemon that has read its settings and made its node. -/
theorem advertising_started {stateDir : Bytes} {radio : RadioParams} {node : NodeConfig}
    {self : LocalIdentity} {first : FileSystem} {start : SettingsStore}
    (hstart : (make ((Config.loaded stateDir radio node).named self)).load first = .ok start)
    (made : Node) (chip : Sx1262) : (start.started made chip).Advertising := by
  have hkept := (Kept.make _).load hstart
  have htype : start.cfg.profile.advType = kAdvTypeChat :=
    (advType_of_operator hkept.operator).trans rfl
  refine ⟨?_, htype, fun running hrunning => ?_⟩
  · rcases load_cases hstart with rfl | hvalid
    · exact advertisable_named stateDir radio node self
    · exact advertisable_of_validate hvalid htype
  · obtain rfl := Option.some.inj hrunning
    rfl

theorem running_turn {running : Running} (hrunning : store.running = some running) (turn : Turn) :
    ∃ after, (store.turn turn).running = some after := by
  cases turn with
  | goesOn node radio => exact ⟨_, by rw [SettingsStore.turn, hrunning]; rfl⟩
  | set io met fs changes =>
      rw [SettingsStore.turn]
      rcases store.set_cases io met fs changes with
        ⟨-, hset⟩ | ⟨next, stored, -, ⟨fs', -, hset⟩ | ⟨fs', -, hset⟩⟩
      · exact ⟨running, by rw [hset, hrunning]⟩
      · exact ⟨running, by rw [hset, hrunning]⟩
      · rw [hset]
        dsimp only [SettingsStore.apply]
        rw [hrunning]
        exact ⟨_, rfl⟩

/-- **Every advert is accepted.** The daemon starts with any config file, key and
settings file that it takes, and the app makes any changes. Whenever the clock is
valid the node builds an advert packet that is valid to send, and a receiver
decodes it to an advert of at most 32 bytes of data that verifies and has the type,
the name and the position of the settings in force. That a signature verifies and
has 64 bytes is assumed. -/
theorem advert_accepted {lib : Crypto.Library} {sign : Bytes → Bytes} {self : LocalIdentity}
    (hsign : ∀ message, (sign message).length = kSignatureSize ∧
      lib.verify self.pub message (sign message) = true)
    {stateDir : Bytes} {radio : RadioParams} {node : NodeConfig} {first : FileSystem}
    {start : SettingsStore}
    (hstart : (make ((Config.loaded stateDir radio node).named self)).load first = .ok start)
    (made : Node) (chip : Sx1262) (turns : List Turn) {clock : WallClock}
    (hclock : clock.isValid = true) (flood : Bool) :
    let store := run turn (start.started made chip) turns
    ∃ running, store.running = some running ∧ running.profile = store.cfg.profile ∧
      ∃ sent, buildAdvertPacket sign clock self running.profile flood = some sent ∧
        sent.valid = true ∧
        ∃ packet adv app, store.cfg.profile.ReadAs lib sent.encode packet adv app := by
  have hstep : ∀ (store : SettingsStore) (t : Turn),
      (store.Advertising ∧ ∃ running, store.running = some running) →
      (store.turn t).Advertising ∧ ∃ running, (store.turn t).running = some running := by
    rintro store t ⟨hstore, running, hrunning⟩
    exact ⟨hstore.turn t, running_turn hrunning t⟩
  obtain ⟨hstore, running, hrunning⟩ :=
    run_invariant hstep ⟨advertising_started hstart made chip, _, rfl⟩ turns
  have hprofile := hstore.profile running hrunning
  obtain ⟨sent, hbuilt, hvalid, hread⟩ := buildAdvertPacket_read hsign hclock hstore.fits flood
  exact ⟨running, hrunning, hprofile, sent, by rw [hprofile]; exact hbuilt, hvalid, hread⟩

/-- A signature of the right size. -/
def sampleSign (message : Bytes) : Bytes :=
  Crypto.Library.polynomialDigest message ++ Crypto.Library.polynomialDigest message

def sampleIdentity : LocalIdentity where
  pub := List.replicate 32 0xAB
  priv := List.replicate 32 0xAB
  pub_length := by simp [kPubKeySize]

def sampleStart : SettingsStore := make ((Config.loaded [] {} {}).named sampleIdentity)

/-- A first start, and an app that gives a name and a place. -/
def placedStore : SettingsStore :=
  run turn
    (sampleStart.started { toOutgoing := .new 10 8 8 sampleIdentity {} 0 }
      (.new {} {} 0 0))
    [.set {} { view := .down } (fun _ => none)
      [(utf8 "node.advert_name", utf8 "hilltop"), (utf8 "node.lat", utf8 "-33.9"),
        (utf8 "node.lon", utf8 "18.4")]]

/-- A receiver reads both. -/
theorem advert_accepted_placed :
    placedStore.cfg.profile.hasLocation = true ∧
    ∃ running, placedStore.running = some running ∧
      running.profile = placedStore.cfg.profile ∧
      ∃ sent, buildAdvertPacket sampleSign { system := 1750000000 } sampleIdentity running.profile
          true = some sent ∧ sent.valid = true ∧
        ∃ packet adv app, placedStore.cfg.profile.ReadAs .transparent sent.encode packet adv app := by
  have hsign : ∀ message, (sampleSign message).length = kSignatureSize ∧
      Crypto.Library.transparent.verify sampleIdentity.pub message (sampleSign message) = true := by
    intro message
    refine ⟨?_, rfl⟩
    simp [sampleSign, Crypto.Library.polynomialDigest, putU32, kSignatureSize]
  have hstart : (make ((Config.loaded [] {} {}).named sampleIdentity)).load (fun _ => none) =
      .ok sampleStart := rfl
  have hclock : WallClock.isValid { system := 1750000000 } = true := by decide +kernel
  exact ⟨by decide +kernel, advert_accepted hsign hstart _ _ _ hclock true⟩

end SettingsStore

end Coreletd.Daemon
