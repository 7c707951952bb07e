/-
# A restart brings the settings back

Every value the app can set is read back as it is spelled, so the settings file always
gives the settings in force: a start over the state directory that a daemon leaves
behind, however it went down, comes up with the name, the position, the relaying and the
radio it ran with. Two things are left out, a settings file edited by hand to a
subnormal duty cycle and a save that fails behind its rename.
-/

import Coreletd.Daemon.PrintedReals
import Coreletd.Daemon.SettingsInForce

namespace Coreletd.Daemon

open Coreletd.Companion
open Coreletd.Library
open Coreletd.Mesh
open Coreletd.Radio

/-! ## Legible settings -/

/-- Every row reads back what it is printed as. -/
structure Config.Legible (cfg : Config) : Prop where
  doubles : cfg.Doubles
  dutyCycle : Binary64.minNormal ≤ cfg.radio.dutyCyclePct

/-- Not a subnormal duty cycle. -/
def Gentle (change : Change) : Prop :=
  change.1 = Setting.dutyCycle.text → ∀ v, Numerals.strtod (Ini.cStr change.2) = some v →
    Binary64.minNormal ≤ v

theorem Config.Legible.set {cfg cfg' : Config} (hcfg : cfg.Legible) {change : Change}
    (hgentle : Gentle change) (hok : cfg.set change.1 change.2 = .ok cfg') : cfg'.Legible := by
  refine ⟨hcfg.doubles.set hok, ?_⟩
  obtain ⟨own, hown, htext, happly⟩ := Config.set_ok hok
  by_cases hduty : change.1 = Setting.dutyCycle.text
  · obtain rfl := eq_of_text hown (by simp [settings]) (htext.trans hduty)
    obtain ⟨v, hchecked, rfl⟩ := Setting.exists_of_map_ok happly
    have hread := (Setting.checkReal_ok hchecked).1
    rw [Ini.getDouble] at hread
    split at hread
    · -- A key without a value leaves what was there.
      obtain rfl := Option.some.inj hread
      exact hcfg.dutyCycle
    next text hfound =>
      have hvalue : text = change.2 := by
        have hne : change.2 ≠ [] := by
          intro hempty
          rw [hempty] at hfound
          simp only [Ini.find, Ini.set, Option.filter_eq_some_iff, decide_eq_true_eq] at hfound
          rw [Setting.keys_lower _ hown, SortedMap.find_assign_self] at hfound
          exact hfound.2 (Option.some.inj hfound.1).symm
        rw [Setting.find_set (Setting.keys_lower _ hown) hne] at hfound
        exact (Option.some.inj hfound).symm
      rw [hvalue] at hread
      exact hgentle hduty v hread
  · have hsame := ((Config.set_frame hok).2 .dutyCycle (by simp [settings])).2 fun heq =>
      hduty heq.symm
    have hequal : cfg'.radio.dutyCyclePct = cfg.radio.dutyCyclePct := hsame
    rw [hequal]
    exact hcfg.dutyCycle

theorem Config.Legible.setAll {cfg next : Config} (hcfg : cfg.Legible) {changes : List Change}
    (hgentle : ∀ change ∈ changes, Gentle change)
    (hok : changes.foldlM (fun cfg change => cfg.set change.1 change.2) cfg = .ok next) :
    next.Legible :=
  foldlM_invariant Config.Legible
    (fun change hchange _ _ hbefore hset => hbefore.set (hgentle change hchange) hset) hcfg hok

/-! ## What the app asks for -/

/-- The airtime and the silence behind it, as a multiple of the airtime. -/
def cycleOf (factor : UInt32) : ℚ :=
  Binary64.nearest (1 + Binary64.nearest (factor.toNat / 1000))

theorem cycleOf_bounds {factor : UInt32} (hfactor : factor ≤ kMaxAirtimeFactorMilli) :
    1 / 2 ≤ cycleOf factor ∧ cycleOf factor ≤ 12 := by
  have hle : (factor.toNat : ℚ) ≤ 9000 := by
    have hnat := UInt32.le_iff_toNat_le.mp hfactor
    exact_mod_cast hnat
  have hnonneg : (0 : ℚ) ≤ factor.toNat / 1000 := by positivity
  have hratio : |(factor.toNat : ℚ) / 1000| ≤ 9 := by
    rw [abs_of_nonneg hnonneg]
    linarith
  obtain ⟨hlow, hhigh⟩ := abs_le.mp (Binary64.abs_nearest_sub_le_of_le hratio (by norm_num))
  have habove : (factor.toNat : ℚ) / 1000 ≤ 9 := (le_abs_self _).trans hratio
  rw [cycleOf]
  generalize Binary64.nearest ((factor.toNat : ℚ) / 1000) = rounded at hlow hhigh
  have hsum : |1 + rounded| ≤ 11 := abs_le.mpr ⟨by linarith, by linarith⟩
  obtain ⟨hlow', hhigh'⟩ := abs_le.mp (Binary64.abs_nearest_sub_le_of_le hsum (by norm_num))
  constructor <;> linarith

/-- The duty cycle of an airtime factor is nowhere near the subnormal doubles. -/
theorem dutyCycle_bounds {factor : UInt32} (hfactor : factor ≤ kMaxAirtimeFactorMilli) :
    1 ≤ Binary64.nearest (100 / cycleOf factor) ∧
      Binary64.nearest (100 / cycleOf factor) ≤ 1000 := by
  obtain ⟨hlow, hhigh⟩ := cycleOf_bounds hfactor
  have hpos : 0 < cycleOf factor := by linarith
  have hshare : 8 ≤ 100 / cycleOf factor ∧ 100 / cycleOf factor ≤ 200 := by
    constructor
    · rw [le_div_iff₀ hpos]
      linarith
    · rw [div_le_iff₀ hpos]
      linarith
  have hsize : |100 / cycleOf factor| ≤ 200 := by
    rw [abs_of_nonneg (by linarith [hshare.1])]
    exact hshare.2
  obtain ⟨hlast, hlast'⟩ := abs_le.mp (Binary64.abs_nearest_sub_le_of_le hsize (by norm_num))
  constructor <;> linarith [hshare.1, hshare.2]

/-- What a double is printed as in full is read as that double. -/
theorem strtod_cStr_general17 {v : ℚ} (hdouble : Binary64.IsDouble v)
    (hlow : 1 / 10000000 ≤ |v|) (hhigh : |v| ≤ 10000) :
    Numerals.strtod (Ini.cStr (Numerals.general17 v)) = some v := by
  rw [Setting.cStr_of_numeric fun _ => Numerals.numeric_general17,
    Numerals.strtod_general17 hdouble (.inr (minNormal_le hlow)) (lt_overflow hhigh)]

/-- So is the duty cycle that a factor stands for. -/
theorem strtod_dutyCycle {factor : UInt32} (hfactor : factor ≤ kMaxAirtimeFactorMilli) :
    Numerals.strtod (Ini.cStr (Numerals.general17 (Binary64.nearest (100 / cycleOf factor)))) =
      some (Binary64.nearest (100 / cycleOf factor)) := by
  obtain ⟨hlow, hhigh⟩ := dutyCycle_bounds hfactor
  have habs := abs_of_nonneg (le_trans zero_le_one hlow)
  refine strtod_cStr_general17 (Binary64.isDouble_nearest _) ?_ ?_ <;> rw [habs] <;> linarith

/-- No command asks for a subnormal duty cycle. -/
theorem gentle_of_asked {changes : List Change} (hasked : App.Asked (some changes)) :
    ∀ change ∈ changes, Gentle change := by
  have hother : ∀ {key : String} {value : Bytes}, utf8 key ≠ Setting.dutyCycle.text →
      Gentle (utf8 key, value) := fun hne heq => absurd heq hne
  obtain ⟨args, hname | hplace | hradio | hpower | htuning⟩ := hasked
  · simp only [cmdSetAdvertName] at hname
    split at hname
    · simp at hname
    · obtain rfl := Option.some.inj hname
      simpa using hother (by decide +kernel)
  · simp only [cmdSetAdvertLatLon] at hplace
    split at hplace
    · simp at hplace
    · obtain rfl := Option.some.inj hplace
      simp only [List.forall_mem_cons]
      exact ⟨hother (by decide +kernel), hother (by decide +kernel), by simp⟩
  · simp only [cmdSetRadioParams] at hradio
    split at hradio
    · simp at hradio
    · split at hradio
      · simp at hradio
      · split at hradio
        · simp at hradio
        · split at hradio
          · simp at hradio
          · obtain rfl := Option.some.inj hradio
            simp only [List.forall_mem_cons]
            exact ⟨hother (by decide +kernel), hother (by decide +kernel),
              hother (by decide +kernel), hother (by decide +kernel), hother (by decide +kernel),
              by simp⟩
  · simp only [cmdSetTxPower] at hpower
    split at hpower
    · simp at hpower
    · obtain rfl := Option.some.inj hpower
      simpa using hother (by decide +kernel)
  · simp only [cmdSetTuningParams] at htuning
    split at htuning
    · simp at htuning
    · split at htuning
      · simp at htuning
      · split at htuning
        · simp at htuning
        next hfactor =>
          obtain rfl := Option.some.inj htuning
          obtain ⟨hlow, -⟩ := dutyCycle_bounds (UInt32.not_lt.mp hfactor)
          simp only [List.forall_mem_cons]
          refine ⟨fun _ v hread => ?_, by simp⟩
          obtain rfl := Option.some.inj
            ((strtod_dutyCycle (UInt32.not_lt.mp hfactor)).symm.trans hread)
          have hnormal := minNormal_le (v := (1 : ℚ)) (by norm_num)
          rw [abs_one] at hnormal
          exact hnormal.trans hlow

/-! ## The settings file -/

namespace SettingsStore

variable {defaults : Config} {store : SettingsStore}

/-- What the store holds is read back wherever it is read. -/
theorem Kept.rereads (hkept : Kept defaults store) (hlegible : store.cfg.Legible)
    (hvalid : store.cfg.validate = .ok ()) :
    ∀ s ∈ settings, store.stored.find s.text ≠ none → s.Rereads store.cfg := by
  intro s hs hstored cfg
  obtain ⟨value, hfound⟩ := Option.ne_none_iff_exists'.mp hstored
  obtain ⟨own, hown, htext, -, hrange⟩ := hkept.entries s.text value hfound
  rw [eq_of_text hown hs htext] at hrange
  have hduty : s = .dutyCycle → Binary64.minNormal ≤ store.cfg.radio.dutyCyclePct :=
    fun _ => hlegible.dutyCycle
  exact Setting.apply_format hs cfg hrange
    (readsBack_of_inRange hs hrange (hlegible.doubles s hs) hduty) (name_of_validate hvalid).1

/-- A start reads off the disk what the store holds. -/
def OnDisk (defaults : Config) (store : SettingsStore) (fs : FileSystem) : Prop :=
  ∃ loaded, (make defaults).load fs = .ok loaded ∧ loaded.cfg = store.cfg ∧
    loaded.stored = store.stored

theorem Kept.onDisk (hkept : Kept defaults store) (hlegible : store.cfg.Legible)
    (hvalid : store.cfg.validate = .ok ()) {fs : FileSystem}
    (hfile : fs store.path = some (settingsContent store.stored)) : OnDisk defaults store fs :=
  ⟨_, hkept.reload hvalid (hkept.rereads hlegible hvalid) hfile, rfl, rfl⟩

end SettingsStore

namespace App

variable {defaults cfg : Config} {app app' : App} {boot : Boot}

/-- What is in force is legible, and a start would read it. -/
structure Restorable (defaults : Config) (app : App) : Prop where
  force : InForce defaults app
  legible : app.settings.cfg.Legible
  disk : SettingsStore.OnDisk defaults app.settings app.node.files

theorem Restorable.aside (hrestorable : Restorable defaults app) (haside : Aside app app') :
    Restorable defaults app' where
  force := hrestorable.force.aside haside
  legible := by
    rw [haside.settings]
    exact hrestorable.legible
  disk := by
    obtain ⟨loaded, hload, hequal⟩ := hrestorable.disk
    rw [haside.settings]
    exact ⟨loaded, (hrestorable.force.kept.load_congr haside.file).trans hload, hequal⟩

/-- A save of the settings that gets through its rename gets all the way through. -/
def Event.Synced : Event → Prop
  | .frame out => out.io.Renames → out.io.SyncsDirectory
  | _ => True

theorem Restorable.changeSettings (hrestorable : Restorable defaults app) {out : Surroundings}
    (hsynced : out.io.Renames → out.io.SyncsDirectory) {changes : List Change}
    (hasked : Asked (some changes)) :
    Restorable defaults (app.changeSettings out (some changes)).2 := by
  have hforce := hrestorable.force.changeSettings out changes
  have hkept := hrestorable.force.attached
  -- Refused, the file is as it was.
  have hrefused : ∀ files : FileSystem,
      files app.settings.path = app.node.files app.settings.path →
      InForce defaults (app.withSettings app.attached files) →
      Restorable defaults (app.withSettings app.attached files) := by
    intro files hfile hforce
    obtain ⟨loaded, hload, hequal⟩ := hrestorable.disk
    exact ⟨hforce, hrestorable.legible,
      ⟨loaded, (hrestorable.force.kept.load_congr hfile).trans hload, hequal⟩⟩
  rcases app.changeSettings_cases out changes with
    (⟨-, hleft⟩ | ⟨next, stored, files, -, hsaved, hleft⟩) |
      ⟨next, stored, files, haccept, hsaved, hleft⟩
  · rw [hleft] at hforce ⊢
    exact hrefused _ rfl hforce
  · rw [hleft] at hforce ⊢
    obtain ⟨written, ⟨hrenames, hsave, -⟩ | ⟨-, hsave, hfile⟩⟩ :=
      SettingsStore.saved_cases hkept out.io app.node.files (settingsContent stored)
    · have hboth := hsaved.symm.trans hsave
      rw [decide_eq_true (hsynced hrenames)] at hboth
      simp at hboth
    · have hboth := hsaved.symm.trans hsave
      obtain rfl := (Prod.mk.inj hboth).2
      exact hrefused files hfile hforce
  · rw [hleft] at hforce ⊢
    have hlegible : next.Legible := by
      obtain ⟨hall, -⟩ := SettingsStore.accept_ok haccept
      exact hrestorable.legible.setAll (gentle_of_asked hasked) hall
    have hwritten : files app.settings.path = some (settingsContent stored) :=
      saveContent_installs hsaved
    exact ⟨hforce, hlegible, hforce.kept.onDisk hlegible hforce.valid hwritten⟩

variable {lib : Crypto.Library} {sign : Bytes → Bytes}

theorem Restorable.step (hrestorable : Restorable defaults app) (hplaced : Placed cfg app)
    {event : Event} (hown : event.Own) (hsynced : event.Synced) :
    Restorable defaults (app.step lib sign event) := by
  by_cases hframe : ∃ out, event = .frame out
  · obtain ⟨out, rfl⟩ := hframe
    rcases dispatchOne_settles lib sign app out with
      haside | ⟨changes, hasked, haside⟩
    · exact hrestorable.aside haside
    · exact (hrestorable.changeSettings hsynced hasked).aside haside
  · exact hrestorable.aside (hplaced.aside_step hown fun out heq => hframe ⟨out, heq⟩)

section

variable {name : Bytes}

/-- The loads of the contacts and of the channels, which come before the radio, write
under the names of these two. -/
theorem files_recovered (boot : Boot) (hname : Unstored name) :
    (channelStates.recover boot.channelsClock boot.freshChannels
      (contactStates.recover boot.contactsClock boot.freshContacts boot.files).2.2).2.2
        (boot.cfg.stateDir ++ name) = boot.files (boot.cfg.stateDir ++ name) := by
  have hcontacts : contactStates.path boot.freshContacts =
      boot.cfg.stateDir ++ utf8 "/contacts" := rfl
  have hchannels : channelStates.path boot.freshChannels =
      boot.cfg.stateDir ++ utf8 "/channels" := rfl
  have hfirst := recovered_elsewhere hcontacts hname.contacts boot.contactsClock boot.files
  have hsecond := recovered_elsewhere hchannels hname.channels boot.channelsClock
    (contactStates.recover boot.contactsClock boot.freshContacts boot.files).2.2
  exact hsecond.trans hfirst

/-- Startup writes under the names of the stores. -/
theorem files_start (hstart : start boot = some app) (hname : Unstored name) :
    app.node.files (boot.cfg.stateDir ++ name) = boot.files (boot.cfg.stateDir ++ name) := by
  obtain ⟨-, -, -, hfiles, -⟩ := start_eq hstart
  rw [hfiles]
  have hinbox : inboxStates.path boot.freshInbox = boot.cfg.stateDir ++ utf8 "/messages" := rfl
  have hthird := recovered_elsewhere hinbox hname.messages boot.messagesClock
    (channelStates.recover boot.channelsClock boot.freshChannels
      (contactStates.recover boot.contactsClock boot.freshContacts boot.files).2.2).2.2
  exact hthird.trans (files_recovered boot hname)

end

end App

end Coreletd.Daemon
