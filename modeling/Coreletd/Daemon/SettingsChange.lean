/-
# A refused settings change

A change is checked and written before anything in memory moves, so a refusal
leaves the store and what it runs alone. The file is another matter: a failure
behind the rename is reported as a refusal over a file that is already the new
one.
-/

import Coreletd.Daemon.SettingsRestart
import Coreletd.Radio.Sx1262Steps
import Coreletd.Mesh.DispatcherSteps

namespace Coreletd

/-- The save gets as far as the rename, and that succeeds. -/
def SaveIo.Renames (io : SaveIo) : Prop :=
  io.openStream = true ∧ io.flush = true ∧ io.close = true ∧ io.replace.openTmp = true ∧
    io.replace.fchmod = true ∧ io.replace.syncTmp = true ∧ io.replace.rename = true

/-- The directory is opened and synced. -/
def SaveIo.SyncsDirectory (io : SaveIo) : Prop :=
  io.replace.openDirectory = true ∧ io.replace.syncDirectory = true

instance (io : SaveIo) : Decidable io.Renames := inferInstanceAs (Decidable (_ ∧ _))

instance (io : SaveIo) : Decidable io.SyncsDirectory := inferInstanceAs (Decidable (_ ∧ _))

/-- A save that renames installs its content, and reports a success only if the
directory is synced too. -/
theorem saveContent_of_renames {io : SaveIo} (hrenames : io.Renames) (fs : FileSystem)
    {path : Bytes} (hpath : path ≠ []) (content : Bytes) :
    ∃ fs', saveContent io fs path content false = (decide io.SyncsDirectory, fs') ∧
      fs' path = some content := by
  obtain ⟨hopen, hflush, hclose, hopenTmp, hfchmod, hsync, hrename⟩ := hrenames
  have hreported : decide io.SyncsDirectory =
      (io.replace.openDirectory && io.replace.syncDirectory) :=
    Bool.eq_iff_iff.mpr (by rw [decide_eq_true_iff, Bool.and_eq_true]; rfl)
  refine ⟨((fs.set (path ++ tmpSuffix) (some content)).set (path ++ tmpSuffix) none).set path
    (some content), ?_, by simp⟩
  simp [saveContent, durableReplace, FileSystem.rename, hpath, hopen, hflush, hclose, hopenTmp,
    hfchmod, hsync, hrename, hreported]

/-- A save that does not get there reports a failure over the file as it was. -/
theorem saveContent_of_not_renames {io : SaveIo} (hrenames : ¬ io.Renames) (fs : FileSystem)
    {path : Bytes} (hpath : path ≠ []) (content : Bytes) :
    ∃ fs', saveContent io fs path content false = (false, fs') ∧ fs' path = fs path := by
  have hne : path ≠ path ++ tmpSuffix := (append_ne_self (by decide)).symm
  have hkept : ∀ content, fs.set (path ++ tmpSuffix) content path = fs path :=
    fun content => FileSystem.set_other fs content hne
  rw [saveContent, if_neg hpath]
  split
  · exact ⟨_, rfl, rfl⟩
  next hopen =>
    split
    · exact ⟨_, rfl, hkept _⟩
    next hstreamed =>
      rw [durableReplace]
      split
      · exact ⟨_, rfl, hkept _⟩
      next hopenTmp =>
        split
        · exact ⟨_, rfl, hkept _⟩
        next hsynced =>
          have hfailed : io.replace.rename = false := by
            by_contra hrename
            have hstream : io.flush = true ∧ io.close = true := by simpa using hstreamed
            have hsync : io.replace.fchmod = true ∧ io.replace.syncTmp = true := by
              simpa using hsynced
            have htmp : io.replace.openTmp = true := by
              simp only [Bool.or_eq_true, not_or, Bool.not_eq_true, Bool.not_eq_false'] at hopenTmp
              exact hopenTmp.1
            exact hrenames ⟨by simpa using hopen, hstream.1, hstream.2, htmp, hsync.1, hsync.2,
              by simpa using hrename⟩
          simp only [hfailed, Bool.false_eq_true, if_false]
          exact ⟨_, rfl, hkept _⟩

namespace Mesh.Dispatcher

open Coreletd.Radio

universe u v

/-- The pump leaves the budget's percentage alone. -/
theorem pump_percent {H : Type u} {σ : Type v} {call : Handler H σ} {radio : RadioView}
    (d : Dispatcher H σ) : (pump call radio d).duty.percent = d.duty.percent := by
  have hquietly : ∀ {d' d'' : Dispatcher H σ}, Quietly d' d'' →
      d''.duty.percent = d'.duty.percent := by
    intro d' d'' hquiet
    rcases hquiet.duty with hsame | hpruned
    · rw [hsame]
    · rw [hpruned]
      rfl
  refine pump_rule (P := fun d' => d'.duty.percent = d.duty.percent) (fun _ h => h) ?_ ?_ ?_ rfl
  · intro d' d'' hquiet hd'
    exact (hquietly hquiet).trans hd'
  · intro d' ahead q behind reason _ _ hd'
    rw [discard_duty]
    exact hd'
  · intro d' d'' ahead q behind _ hquiet _ hd'
    rw [transmit_duty, ← hd', ← hquietly hquiet]

end Mesh.Dispatcher

namespace Daemon

open Coreletd.Library
open Coreletd.Mesh
open Coreletd.Radio

/-! ## A spelling that is not empty -/

/-- What is in front of the point stays. -/
theorem stripZeros_ne_nil {before : Bytes} (hbefore : before ≠ []) (after : Bytes) :
    Numerals.stripZeros (before ++ 46 :: after) ≠ [] := by
  have hkept : ∃ rest, ((before ++ 46 :: after).reverse.dropWhile (· = 48)).reverse =
      before ++ 46 :: rest := by
    rw [List.reverse_append, List.reverse_cons, List.append_assoc, List.dropWhile_append]
    split
    · exact ⟨[], by simp⟩
    · exact ⟨(after.reverse.dropWhile (· = 48)).reverse, by simp⟩
  obtain ⟨rest, hrest⟩ := hkept
  rw [Numerals.stripZeros, hrest]
  have hlong : 2 ≤ (before ++ 46 :: rest).length := by
    have hpos := List.length_pos_iff.mpr hbefore
    rw [List.length_append, List.length_cons]
    omega
  split
  · refine List.ne_nil_of_length_pos ?_
    rw [List.length_dropLast]
    omega
  · exact List.ne_nil_of_length_pos (by omega)

theorem general17_ne_nil (v : ℚ) : Numerals.general17 v ≠ [] := by
  rw [Numerals.general17]
  split
  · simp
  generalize Numerals.significant17 |v| = rounded
  obtain ⟨n, exponent⟩ := rounded
  have htake : ∀ count, 0 < count → (Text.decimal n).take count ≠ [] := by
    intro count hcount hnil
    rcases List.take_eq_nil_iff.mp hnil with hzero | hempty
    · omega
    · exact Text.decimal_ne_nil n hempty
  dsimp only
  refine List.append_ne_nil_of_right_ne_nil _ ?_
  split
  · split
    · split
      · exact Text.decimal_ne_nil n
      · exact stripZeros_ne_nil (htake _ (by omega)) _
    · exact stripZeros_ne_nil (List.cons_ne_nil 48 []) _
  · exact List.append_ne_nil_of_left_ne_nil
      (List.append_ne_nil_of_left_ne_nil (stripZeros_ne_nil (htake 1 (by omega)) _) _) _

theorem formatReal_ne_nil (v : ℚ) : formatReal v ≠ [] := by
  rw [formatReal]
  cases hfound : fewestDecimals v 0 18 with
  | none => exact general17_ne_nil v
  | some text =>
      obtain ⟨-, -, hreads⟩ := Setting.of_fewestDecimals hfound
      exact Setting.ne_nil_of_strtod hreads

namespace Setting

theorem format_ne_nil {s : Setting} (hs : s ∈ settings) {cfg : Config}
    (hname : cfg.profile.name ≠ []) : s.format cfg ≠ [] := by
  simp only [settings, List.mem_cons, List.not_mem_nil, or_false] at hs
  rcases hs with rfl | rfl | rfl | rfl | rfl | rfl | rfl | rfl | rfl | rfl
  · exact formatReal_ne_nil _
  · exact formatReal_ne_nil _
  · exact decimalInt_ne_nil _
  · exact decimalInt_ne_nil _
  · exact decimalInt_ne_nil _
  · exact formatReal_ne_nil _
  · exact hname
  · exact formatReal_ne_nil _
  · exact formatReal_ne_nil _
  · show (if cfg.node.relay then utf8 "1" else utf8 "0") ≠ []
    cases cfg.node.relay <;> decide +kernel

/-- A real that is in the file is checked the same whatever the default. -/
theorem real_anywhere {ini : Ini} {text value : Bytes} (hfound : ini.find text = some value)
    {key requirement : String} {valid : ℚ → Bool} {first second : ℚ} {put : ℚ → Config}
    {cfg' : Config}
    (hput : (checkReal key valid requirement (ini.getDouble text first)).map put = .ok cfg') :
    ∃ v, cfg' = put v ∧ ∀ putOther : ℚ → Config,
      (checkReal key valid requirement (ini.getDouble text second)).map putOther =
        .ok (putOther v) := by
  obtain ⟨v, hchecked, rfl⟩ := exists_of_map_ok hput
  have hsame : ini.getDouble text second = ini.getDouble text first := by
    rw [Ini.getDouble, Ini.getDouble, hfound]
  refine ⟨v, rfl, fun putOther => ?_⟩
  rw [hsame, hchecked]
  rfl

/-- So is an integer. -/
theorem count_anywhere {ini : Ini} {text value : Bytes} (hfound : ini.find text = some value)
    {row : IntTarget} {first second : Int} {put : Int → Config} {cfg' : Config}
    (hput : (row.apply first (getInt64 ini text)).map put = .ok cfg') :
    ∃ v, cfg' = put v ∧ ∀ putOther : Int → Config,
      (row.apply second (getInt64 ini text)).map putOther = .ok (putOther v) := by
  obtain ⟨v, hchecked, rfl⟩ := exists_of_map_ok hput
  have hsame : row.apply second (getInt64 ini text) = row.apply first (getInt64 ini text) := by
    rw [getInt64, hfound]
    dsimp only
    cases Numerals.strtoll (Ini.cStr value) <;> rfl
  refine ⟨v, rfl, fun putOther => ?_⟩
  rw [hsame, hchecked]
  rfl

/-- What a row makes of a value that is not empty does not depend on the default. -/
theorem apply_anywhere {s : Setting} (hs : s ∈ settings) {value : Bytes} (hvalue : value ≠ [])
    {cfg cfg' : Config} (hok : s.apply (({} : Ini).set s.text value) cfg = .ok cfg')
    (other : Config) :
    ∃ other', s.apply (({} : Ini).set s.text value) other = .ok other' ∧ s.Same other' cfg' := by
  have hfound : (({} : Ini).set s.text value).find s.text = some value :=
    find_set (keys_lower s hs) hvalue
  have hstr : ∀ default, (({} : Ini).set s.text value).getStr s.text default = value := by
    intro default
    rw [Ini.getStr, hfound, Option.getD_some]
  have hbool : ∀ first second, (({} : Ini).set s.text value).getBool s.text first =
      (({} : Ini).set s.text value).getBool s.text second := by
    intro first second
    rw [Ini.getBool, Ini.getBool, hfound]
  simp only [settings, List.mem_cons, List.not_mem_nil, or_false] at hs
  rcases hs with rfl | rfl | rfl | rfl | rfl | rfl | rfl | rfl | rfl | rfl
  · obtain ⟨v, rfl, hother⟩ := real_anywhere hfound hok
    exact ⟨_, hother _, rfl⟩
  · obtain ⟨v, rfl, hother⟩ := real_anywhere hfound hok
    exact ⟨_, hother _, rfl⟩
  · obtain ⟨v, rfl, hother⟩ := count_anywhere hfound hok
    exact ⟨_, hother _, rfl⟩
  · obtain ⟨v, rfl, hother⟩ := count_anywhere hfound hok
    exact ⟨_, hother _, rfl⟩
  · obtain ⟨v, rfl, hother⟩ := count_anywhere hfound hok
    exact ⟨_, hother _, rfl⟩
  · obtain ⟨v, rfl, hother⟩ := real_anywhere hfound hok
    exact ⟨_, hother _, rfl⟩
  · refine ⟨_, rfl, ?_⟩
    obtain rfl := Except.ok.inj hok
    exact (hstr _).trans (hstr _).symm
  · obtain ⟨v, rfl, hother⟩ := real_anywhere hfound hok
    exact ⟨_, hother _, rfl⟩
  · obtain ⟨v, rfl, hother⟩ := real_anywhere hfound hok
    exact ⟨_, hother _, rfl⟩
  · obtain ⟨v, hread, rfl⟩ := apply_relay_iff.mp hok
    rw [hbool cfg.node.relay other.node.relay] at hread
    exact ⟨_, apply_relay_iff.mpr ⟨v, hread, rfl⟩, rfl⟩

end Setting

/-! ## What is read back -/

namespace SettingsStore

variable {defaults : Config}

theorem loadEntry_ok {s : Setting} (hs : s ∈ settings) {value : Bytes}
    {start middle : SettingsStore} (hok : start.loadEntry (s.text, value) = .ok middle) :
    s.apply (({} : Ini).set s.text value) start.cfg = .ok middle.cfg ∧
      ∀ other ∈ settings, other.text ≠ s.text → other.Same middle.cfg start.cfg := by
  rw [SettingsStore.loadEntry, (appKey_iff s.text).mpr ⟨s, hs, rfl⟩] at hok
  simp only [Bool.not_true, Bool.false_eq_true, if_false] at hok
  cases hset : start.cfg.set s.text value with
  | error why =>
      rw [hset] at hok
      simp at hok
  | ok cfg =>
      rw [hset] at hok
      obtain rfl := Except.ok.inj hok
      refine ⟨?_, fun other hother hne => ((Config.set_frame hset).2 other hother).2 hne⟩
      obtain ⟨own, hown, htext, happly⟩ := Config.set_ok hset
      rwa [eq_of_text hown hs htext] at happly

/-- Entries that are read as what they spell are each read back so anywhere. -/
theorem rereads_of_foldlM {source : Config} (hname : source.profile.name ≠ [])
    {entries : List (Bytes × Bytes)} (hdistinct : (entries.map (·.1)).Nodup)
    (hentries : ∀ entry ∈ entries, ∃ s ∈ settings, s.text = entry.1 ∧ entry.2 = s.format source)
    {start loaded : SettingsStore} (hfold : entries.foldlM loadEntry start = .ok loaded) :
    (∀ s ∈ settings, s.text ∉ entries.map (·.1) → s.Same loaded.cfg start.cfg) ∧
      ∀ s ∈ settings, s.text ∈ entries.map (·.1) → s.Same loaded.cfg source →
        s.Rereads source := by
  induction entries generalizing start with
  | nil =>
      obtain rfl := Except.ok.inj hfold
      exact ⟨fun s _ _ => Setting.Same.refl s _, by simp⟩
  | cons entry rest ih =>
      obtain ⟨key, value⟩ := entry
      obtain ⟨own, hown, rfl, rfl⟩ := hentries _ List.mem_cons_self
      rw [List.map_cons, List.nodup_cons] at hdistinct
      rw [List.foldlM_cons] at hfold
      cases hfirst : start.loadEntry (own.text, own.format source) with
      | error why =>
          rw [hfirst] at hfold
          simp [bind, Except.bind] at hfold
      | ok middle =>
          rw [hfirst] at hfold
          obtain ⟨happly, hothers⟩ := loadEntry_ok hown hfirst
          obtain ⟨hkept, hrest⟩ := ih hdistinct.2
            (fun entry hentry => hentries entry (List.mem_cons_of_mem _ hentry)) hfold
          refine ⟨fun s hs hnot => ?_, fun s hs hmem hsame cfg => ?_⟩
          · rw [List.map_cons, List.mem_cons, not_or] at hnot
            exact (hkept s hs hnot.2).trans (hothers s hs hnot.1)
          · rcases List.mem_cons.mp hmem with hthis | hrestMem
            · obtain rfl := eq_of_text hs hown hthis
              obtain ⟨cfg', hagain, hequal⟩ :=
                Setting.apply_anywhere hs (Setting.format_ne_nil hs hname) happly cfg
              exact ⟨cfg', hagain,
                hequal.trans ((hkept s hs hdistinct.1).symm.trans hsame)⟩
            · exact hrest s hs hrestMem hsame cfg

/-- What a start reads depends on the settings file only. -/
theorem load_congr {store : SettingsStore} {fs fs' : FileSystem}
    (hsame : fs' store.path = fs store.path) : store.load fs' = store.load fs := by
  rw [SettingsStore.load, SettingsStore.load, Ini.load, Ini.load, hsame]

/-! ## All or nothing -/

/-- The running node and its radio have the settings of a config. -/
structure RunsOn (cfg : Config) (running : Running) : Prop where
  name : running.profile.name = cfg.profile.name
  latE6 : running.profile.latE6 = cfg.profile.latE6
  lonE6 : running.profile.lonE6 = cfg.profile.lonE6
  relay : running.node.cfg.relay = cfg.node.relay
  dutyCycle : running.node.air.duty.percent = cfg.radio.dutyCyclePct
  radio : running.radio.params = cfg.radio

theorem runsOn_apply (met : Applying) (store : SettingsStore) :
    ∀ running ∈ (SettingsStore.apply met store).running, RunsOn store.cfg running := by
  intro running hrunning
  rw [SettingsStore.apply, Option.mem_def, Option.map_eq_some_iff] at hrunning
  obtain ⟨before, -, rfl⟩ := hrunning
  refine ⟨rfl, rfl, rfl, rfl, Dispatcher.pump_percent _, ?_⟩
  dsimp only
  split
  next hsame => exact hsame.symm
  next => exact Sx1262.params_reconfigure _ _

/-- A call of `set` on a store of a daemon with these defaults: refused, it
changes neither what is in memory and running nor what a start reads; accepted,
all of these have every change. -/
structure AllOrNothing (defaults : Config) (io : SaveIo) (met : Applying) (fs : FileSystem)
    (store : SettingsStore) (changes : List Change) : Prop where
  refused : ∀ {result after fs'}, store.set io met fs changes = (result, after, fs') →
    result ≠ .ok →
      after = store ∧ (make defaults).load fs' = (make defaults).load fs
  accepted : ∀ {after fs'}, store.set io met fs changes = (.ok, after, fs') →
    changes.foldlM (fun cfg change => cfg.set change.1 change.2) store.cfg = .ok after.cfg ∧
      (∀ change ∈ changes, after.stored.find change.1 = some (after.cfg.get change.1)) ∧
      (∀ running ∈ after.running, RunsOn after.cfg running) ∧
      ∃ loaded, (make defaults).load fs' = .ok loaded ∧ loaded.cfg = after.cfg ∧
        loaded.stored = after.stored

/-- When the checks let the changes through and the save gets through its rename,
one of two things: the directory is synced too, and what the file spells is read
back as what it stands for; or it is not, and a start reads from the new file what
it read from the old one. -/
def Sound (defaults : Config) (io : SaveIo) (fs : FileSystem) (store : SettingsStore)
    (changes : List Change) : Prop :=
  ∀ next stored, store.accept changes = some (next, stored) → io.Renames →
    (io.SyncsDirectory → ∀ s ∈ settings, stored.find s.text ≠ none → s.Rereads next) ∧
    (¬ io.SyncsDirectory →
      (make defaults).load (fs.set store.path (some (settingsContent stored))) =
        (make defaults).load fs)

variable {store : SettingsStore}

theorem accept_ok {changes : List Change} {next : Config} {stored : SortedMap Bytes Bytes}
    (haccept : store.accept changes = some (next, stored)) :
    changes.foldlM (fun cfg change => cfg.set change.1 change.2) store.cfg = .ok next ∧
      ∀ change ∈ changes, stored.find change.1 = some (next.get change.1) := by
  rw [SettingsStore.accept] at haccept
  split at haccept
  · simp at haccept
  next accepted hall =>
    split at haccept
    · simp at haccept
    · simp only [Option.some.injEq, Prod.mk.injEq] at haccept
      obtain ⟨rfl, rfl⟩ := haccept
      refine ⟨hall, fun change hchange => ?_⟩
      rw [find_assigned, if_pos (List.mem_map_of_mem hchange)]

/-- A file that is read back as the store it was written from spells values that
are read back. -/
theorem rereads_of_load (hkept : Kept defaults store) (hvalid : store.cfg.validate = .ok ())
    {fs : FileSystem} (hfile : fs store.path = some (settingsContent store.stored))
    {loaded : SettingsStore} (hload : (make defaults).load fs = .ok loaded)
    (hcfg : loaded.cfg = store.cfg) :
    ∀ s ∈ settings, store.stored.find s.text ≠ none → s.Rereads store.cfg := by
  have hname := (name_of_validate hvalid).1
  have hpath : (make defaults).path = store.path := hkept.path.symm
  have hspelled : ∀ entry ∈ store.stored.entries, ∃ s ∈ settings, s.text = entry.1 ∧
      entry.2 = s.format store.cfg := by
    rintro ⟨key, value⟩ hentry
    obtain ⟨s, hs, rfl, hvalue, -⟩ := hkept.entries key value (SortedMap.find_of_mem hentry)
    exact ⟨s, hs, rfl, hvalue⟩
  rw [SettingsStore.load, hpath, hfile, if_neg (by simp),
    load_settingsContent (hkept.readable hvalid) hfile] at hload
  dsimp only at hload
  split at hload
  · simp at hload
  next entered hfold =>
    split at hload
    · simp at hload
    · obtain rfl := Except.ok.inj hload
      intro s hs hstored
      obtain ⟨value, hfound⟩ := Option.ne_none_iff_exists'.mp hstored
      refine (rereads_of_foldlM hname store.stored.keys_nodup hspelled hfold).2 s hs ?_ ?_
      · exact List.mem_map_of_mem (f := (·.1)) (SortedMap.mem_entries_iff.mpr hfound)
      · rw [hcfg]
        exact Setting.Same.refl s _

/-- What the file of the store is like behind a save, and what the save says. -/
theorem saved_cases (hkept : Kept defaults store) (io : SaveIo) (fs : FileSystem)
    (content : Bytes) :
    ∃ fs', (io.Renames ∧
        saveContent io fs store.path content false = (decide io.SyncsDirectory, fs') ∧
        fs' store.path = some content) ∨
      ¬ io.Renames ∧ saveContent io fs store.path content false = (false, fs') ∧
        fs' store.path = fs store.path := by
  have hpath : store.path ≠ [] := by
    rw [hkept.path, Config.settingsPath]
    exact List.append_ne_nil_of_right_ne_nil _ (by decide +kernel)
  by_cases hrenames : io.Renames
  · obtain ⟨fs', hsave, hfile⟩ := saveContent_of_renames hrenames fs hpath content
    exact ⟨fs', .inl ⟨hrenames, hsave, hfile⟩⟩
  · obtain ⟨fs', hsave, hfile⟩ := saveContent_of_not_renames hrenames fs hpath content
    exact ⟨fs', .inr ⟨hrenames, hsave, hfile⟩⟩

/-- A start reads the same from the file of the store, whatever else is on disk. -/
theorem Kept.load_congr (hkept : Kept defaults store) {fs fs' : FileSystem}
    (hsame : fs' store.path = fs store.path) :
    (SettingsStore.make defaults).load fs' = (SettingsStore.make defaults).load fs := by
  refine SettingsStore.load_congr ?_
  rw [hkept.path] at hsame
  exact hsame

theorem allOrNothing_of_sound (hkept : Kept defaults store) {io : SaveIo} (met : Applying)
    {fs : FileSystem} {changes : List Change} (hsound : Sound defaults io fs store changes) :
    AllOrNothing defaults io met fs store changes := by
  rcases store.set_cases io met fs changes with
    ⟨-, hrefused⟩ | ⟨next, stored, haccept, hwritten⟩
  · refine ⟨fun hset hresult => ?_, fun hset => ?_⟩
    · rw [hrefused] at hset
      obtain ⟨rfl, rfl, rfl⟩ := hset
      exact ⟨rfl, rfl⟩
    · rw [hrefused] at hset
      simp at hset
  obtain ⟨hafter, hvalid⟩ := hkept.accept haccept
  obtain ⟨hall, hstored⟩ := accept_ok haccept
  obtain ⟨saved, hcase⟩ := saved_cases hkept io fs (settingsContent stored)
  rcases hwritten with ⟨fs', hsave, hfailed⟩ | ⟨fs', hsave, hdone⟩
  · refine ⟨fun hset hresult => ?_, fun hset => ?_⟩
    · rw [hfailed] at hset
      obtain ⟨rfl, rfl, rfl⟩ := hset
      refine ⟨rfl, ?_⟩
      rcases hcase with ⟨hrenames, hreported, hfile⟩ | ⟨-, hreported, hfile⟩
      · -- Behind the rename: the new file, which a start reads like the old one.
        rw [hsave, Prod.mk.injEq] at hreported
        obtain ⟨hnot, rfl⟩ := hreported
        rw [← (hsound next stored haccept hrenames).2 (of_decide_eq_false hnot.symm)]
        exact hkept.load_congr (by rw [hfile, FileSystem.set_same])
      · rw [hsave, Prod.mk.injEq] at hreported
        obtain ⟨-, rfl⟩ := hreported
        exact hkept.load_congr hfile
    · rw [hfailed] at hset
      simp at hset
  · refine ⟨fun hset hresult => ?_, fun hset => ?_⟩
    · rw [hdone] at hset
      exact absurd (Prod.mk.inj hset).1.symm hresult
    · rw [hdone] at hset
      obtain ⟨-, rfl, rfl⟩ := hset
      rcases hcase with ⟨hrenames, hreported, hfile⟩ | ⟨-, hreported, -⟩
      · rw [hsave, Prod.mk.injEq] at hreported
        obtain ⟨hsynced, rfl⟩ := hreported
        have hrereads := (hsound next stored haccept hrenames).1 (of_decide_eq_true hsynced.symm)
        exact ⟨hall, hstored, runsOn_apply met _, _, hafter.reload hvalid hrereads hfile, rfl, rfl⟩
      · rw [hsave] at hreported
        simp at hreported

theorem sound_of_allOrNothing (hkept : Kept defaults store) {io : SaveIo} {met : Applying}
    {fs : FileSystem} {changes : List Change}
    (hall : AllOrNothing defaults io met fs store changes) :
    Sound defaults io fs store changes := by
  intro next stored haccept hrenames
  obtain ⟨hafter, hvalid⟩ := hkept.accept haccept
  obtain ⟨saved, ⟨-, hsave, hfile⟩ | ⟨hnot, -⟩⟩ :=
    saved_cases hkept io fs (settingsContent stored)
  · refine ⟨fun hsynced => ?_, fun hnot => ?_⟩
    · have hset : store.set io met fs changes =
          (.ok, SettingsStore.apply met { store with cfg := next, stored }, saved) := by
        rw [SettingsStore.set, haccept]
        simp only [hsave, decide_eq_true hsynced]
      obtain ⟨-, -, -, loaded, hload, hcfg, -⟩ := hall.accepted hset
      exact rereads_of_load hafter hvalid hfile hload hcfg
    · have hset : store.set io met fs changes = (.ioError, store, saved) := by
        rw [SettingsStore.set, haccept]
        simp only [hsave, decide_eq_false hnot]
      rw [← (hall.refused hset (by simp)).2]
      exact hkept.load_congr (by rw [hfile, FileSystem.set_same])
  · exact absurd hrenames hnot

/-- **All or nothing.** In every state a daemon brings its settings store to, a
call of `set` is refused everywhere or accepted everywhere exactly if it is sound:
the checks refuse it, or the save fails before its rename, or it goes through and
what it wrote is read back, or it fails behind its rename over a file that a start
reads like the one before. -/
theorem allOrNothing_iff {first : FileSystem} {start : SettingsStore}
    (hstart : (make defaults).load first = .ok start) (events : List Event) (io : SaveIo)
    (met : Applying) (fs : FileSystem) (changes : List Change) :
    AllOrNothing defaults io met fs (run step start events) changes ↔
      Sound defaults io fs (run step start events) changes :=
  ⟨sound_of_allOrNothing (kept_run hstart events),
    allOrNothing_of_sound (kept_run hstart events) met⟩

/-- A full disk refuses a new name everywhere. -/
theorem allOrNothing_full_disk :
    AllOrNothing namedStore.cfg { flush := false } { view := .down } (fun _ => none) namedStore
      [(utf8 "node.advert_name", utf8 "hilltop")] := by
  have hstart : (make namedStore.cfg).load (fun _ => none) = .ok namedStore := rfl
  refine (allOrNothing_iff hstart [] { flush := false } { view := .down } (fun _ => none)
    [(utf8 "node.advert_name", utf8 "hilltop")]).mpr fun next stored _ hrenames => ?_
  exact absurd hrenames (by decide)

/-- A new name whose file is in place when the directory fails to sync. -/
def unsyncedName : SettingsResult × SettingsStore × FileSystem :=
  namedStore.set { replace := { syncDirectory := false } } { view := .down } (fun _ => none)
    [(utf8 "node.advert_name", utf8 "hilltop")]

/-- It is refused, and the next start has it. -/
theorem not_allOrNothing_unsynced :
    ¬ AllOrNothing namedStore.cfg { replace := { syncDirectory := false } } { view := .down }
      (fun _ => none) namedStore [(utf8 "node.advert_name", utf8 "hilltop")] := by
  intro hall
  have hresult : unsyncedName.1 ≠ .ok := by decide +kernel
  have hset : namedStore.set { replace := { syncDirectory := false } } { view := .down }
      (fun _ => none) [(utf8 "node.advert_name", utf8 "hilltop")] =
      (unsyncedName.1, unsyncedName.2.1, unsyncedName.2.2) := rfl
  have hread := (hall.refused hset hresult).2
  have hname : ((make namedStore.cfg).load unsyncedName.2.2).map (·.cfg.profile.name) ≠
      ((make namedStore.cfg).load fun _ => none).map (·.cfg.profile.name) := by
    decide +kernel
  exact hname (congrArg _ hread)

end SettingsStore

end Daemon

end Coreletd
