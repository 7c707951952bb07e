/-
# Settings survive a restart

The store keeps what it holds in memory and what it would write together: each
stored key spells its field as it stands, and a field without one is as the
defaults have it. So the file it last wrote, read over the same defaults, gives
the same settings again.
-/

import Coreletd.Daemon.SettingsFile

namespace Coreletd.Daemon

open Coreletd.Library

/-! ## Keys and rows -/

theorem texts_nodup : (settings.map Setting.text).Nodup := by
  decide +kernel

theorem appKeys_eq : kAppKeys.map utf8 = settings.map Setting.text := by
  decide +kernel

/-- A key names one row. -/
theorem row_of_mem {s : Setting} (hs : s ∈ settings) : Config.row s.text = some s := by
  rw [Config.row]
  cases hfound : settings.find? fun other => other.text = s.text with
  | none =>
      have hnone := List.find?_eq_none.mp hfound s hs
      simp at hnone
  | some other =>
      have hmem := List.mem_of_find?_eq_some hfound
      have htext := List.find?_some hfound
      rw [List.inj_on_of_nodup_map texts_nodup hmem hs (by simpa using htext)]

theorem eq_of_text {s other : Setting} (hs : s ∈ settings) (hother : other ∈ settings)
    (htext : s.text = other.text) : s = other :=
  List.inj_on_of_nodup_map texts_nodup hs hother htext

/-- An app's key is the key of a row. -/
theorem appKey_iff (key : Bytes) : Config.appKey key = true ↔ ∃ s ∈ settings, s.text = key := by
  have hmem : Config.appKey key = true ↔ key ∈ kAppKeys.map utf8 := by
    simp [Config.appKey]
  rw [hmem, appKeys_eq, List.mem_map]

namespace Config

theorem get_text {s : Setting} (hs : s ∈ settings) (cfg : Config) :
    cfg.get s.text = s.format cfg := by
  rw [get, (appKey_iff s.text).mpr ⟨s, hs, rfl⟩, row_of_mem hs]
  rfl

/-- What `set` accepts, a row does. -/
theorem set_ok {cfg cfg' : Config} {key value : Bytes} (hok : cfg.set key value = .ok cfg') :
    ∃ s ∈ settings, s.text = key ∧ s.apply (({} : Ini).set s.text value) cfg = .ok cfg' := by
  rw [set] at hok
  split at hok
  · simp at hok
  next happ =>
    rw [Bool.not_eq_true, Bool.not_eq_false'] at happ
    obtain ⟨s, hs, rfl⟩ := (appKey_iff key).mp happ
    rw [row_of_mem hs] at hok
    dsimp only at hok
    refine ⟨s, hs, rfl, ?_⟩
    cases happly : s.apply (({} : Ini).set s.text value) cfg with
    | error why =>
        rw [happly] at hok
        simp [Except.mapError] at hok
    | ok next =>
        rw [happly] at hok
        simpa [Except.mapError] using hok

theorem set_of_apply {s : Setting} (hs : s ∈ settings) {cfg cfg' : Config} {value : Bytes}
    (happly : s.apply (({} : Ini).set s.text value) cfg = .ok cfg') :
    cfg.set s.text value = .ok cfg' := by
  rw [set, (appKey_iff s.text).mpr ⟨s, hs, rfl⟩, row_of_mem hs]
  simp [happly, Except.mapError]

/-- What `set` does to the other rows and to its own. -/
theorem set_frame {cfg cfg' : Config} {key value : Bytes} (hok : cfg.set key value = .ok cfg') :
    cfg'.operatorPart = cfg.operatorPart ∧
      ∀ s ∈ settings, (s.text = key → s.InRange cfg') ∧ (s.text ≠ key → s.Same cfg' cfg) := by
  obtain ⟨own, hown, rfl, happly⟩ := set_ok hok
  obtain ⟨hoperator, hothers⟩ := Setting.wrote_frame hown (Setting.apply_wrote happly)
  refine ⟨hoperator, fun s hs => ⟨fun htext => ?_, fun htext => hothers s hs fun hkey => ?_⟩⟩
  · rw [eq_of_text hs hown htext]
    exact Setting.apply_inRange hown happly
  · exact htext (by rw [Setting.text, Setting.text, hkey])

/-- The same for a list of changes. -/
theorem setAll_frame {cfg next : Config} {changes : List Change}
    (hok : changes.foldlM (fun cfg change => cfg.set change.1 change.2) cfg = .ok next) :
    next.operatorPart = cfg.operatorPart ∧
      (∀ change ∈ changes, ∃ s ∈ settings, s.text = change.1) ∧
      ∀ s ∈ settings, (s.text ∈ changes.map (·.1) → s.InRange next) ∧
        (s.text ∉ changes.map (·.1) → s.Same next cfg) := by
  induction changes generalizing cfg with
  | nil =>
      obtain rfl := Except.ok.inj hok
      refine ⟨rfl, by simp, fun s hs => ⟨by simp, fun _ => ?_⟩⟩
      exact Setting.Same.refl s _
  | cons change rest ih =>
      obtain ⟨middle, hfirst, hlast⟩ := foldlM_cons_eq_ok.mp hok
      obtain ⟨hoperator, hrows⟩ := set_frame hfirst
      obtain ⟨hrest, hkeys, hlater⟩ := ih hlast
      obtain ⟨own, hown, htext, -⟩ := set_ok hfirst
      refine ⟨hrest.trans hoperator, ?_, fun s hs => ⟨fun hmem => ?_, fun hnot => ?_⟩⟩
      · intro other hother
        rcases List.mem_cons.mp hother with rfl | hrestMem
        · exact ⟨own, hown, htext⟩
        · exact hkeys other hrestMem
      · by_cases hagain : s.text ∈ rest.map (·.1)
        · exact (hlater s hs).1 hagain
        · rcases List.mem_cons.mp hmem with hthis | hrestMem
          · exact ((hlater s hs).2 hagain).symm.inRange ((hrows s hs).1 hthis)
          · exact absurd hrestMem hagain
      · rw [List.map_cons, List.mem_cons, not_or] at hnot
        exact ((hlater s hs).2 hnot.2).trans ((hrows s hs).2 hnot.1)

end Config

/-- A row makes of its own spelling of a value that value again. -/
def Setting.Rereads (s : Setting) (source : Config) : Prop :=
  ∀ cfg : Config, ∃ cfg', s.apply (({} : Ini).set s.text (s.format source)) cfg = .ok cfg' ∧
    s.Same cfg' source

namespace SettingsStore

/-! ## What every change keeps -/

/-- What the store holds in memory and what it would write agree, and together
they differ from the defaults in the stored keys only. -/
structure Kept (defaults : Config) (store : SettingsStore) : Prop where
  path : store.path = defaults.settingsPath
  entries : ∀ key value, store.stored.find key = some value →
    ∃ s ∈ settings, s.text = key ∧ value = s.format store.cfg ∧ s.InRange store.cfg
  unset : ∀ s ∈ settings, store.stored.find s.text = none → s.Same store.cfg defaults
  operator : store.cfg.operatorPart = defaults.operatorPart

variable {defaults : Config} {store : SettingsStore}

theorem Kept.make (defaults : Config) : Kept defaults (make defaults) where
  path := rfl
  entries := by
    intro key value hfound
    simp [SettingsStore.make, SortedMap.find, SortedMap.findEntry] at hfound
  unset := fun s _ _ => Setting.Same.refl s defaults
  operator := rfl

/-- Storing under each of some keys what the config spells there. -/
theorem find_assigned (next : Config) (changes : List Change) (stored : SortedMap Bytes Bytes)
    (key : Bytes) :
    (changes.foldl (fun stored change => stored.assign change.1 (next.get change.1)) stored).find
        key =
      if key ∈ changes.map (·.1) then some (next.get key) else stored.find key := by
  induction changes generalizing stored with
  | nil => simp
  | cons change rest ih =>
      rw [List.foldl_cons, ih, List.map_cons]
      by_cases hrest : key ∈ rest.map (·.1)
      · rw [if_pos hrest, if_pos (List.mem_cons_of_mem _ hrest)]
      · rw [if_neg hrest]
        by_cases hthis : key = change.1
        · rw [hthis, SortedMap.find_assign_self, if_pos List.mem_cons_self]
        · rw [SortedMap.find_assign_of_ne _ hthis, if_neg]
          exact fun hmem => (List.mem_cons.mp hmem).elim hthis hrest

theorem Kept.change (hkept : Kept defaults store) {changes : List Change} {next : Config}
    (hok : changes.foldlM (fun cfg change => cfg.set change.1 change.2) store.cfg = .ok next) :
    Kept defaults { store with
      cfg := next
      stored := changes.foldl
        (fun stored change => stored.assign change.1 (next.get change.1)) store.stored } := by
  obtain ⟨hoperator, hkeys, hrows⟩ := Config.setAll_frame hok
  refine ⟨hkept.path, ?_, ?_, hoperator.trans hkept.operator⟩
  · intro key value hfound
    rw [find_assigned] at hfound
    split at hfound
    next hmem =>
      obtain ⟨change, hchange, rfl⟩ := List.mem_map.mp hmem
      obtain ⟨s, hs, htext⟩ := hkeys change hchange
      obtain rfl := Option.some.inj hfound
      rw [← htext] at hmem ⊢
      exact ⟨s, hs, rfl, Config.get_text hs next, (hrows s hs).1 hmem⟩
    next hnot =>
      obtain ⟨s, hs, rfl, rfl, hrange⟩ := hkept.entries key value hfound
      have hsame := (hrows s hs).2 hnot
      exact ⟨s, hs, rfl, hsame.symm.format, hsame.symm.inRange hrange⟩
  · intro s hs hnone
    rw [find_assigned] at hnone
    split at hnone
    · simp at hnone
    next hnot => exact ((hrows s hs).2 hnot).trans (hkept.unset s hs hnone)

theorem Kept.accept (hkept : Kept defaults store) {changes : List Change} {next : Config}
    {stored : SortedMap Bytes Bytes} (haccept : store.accept changes = some (next, stored)) :
    Kept defaults { store with cfg := next, stored } ∧ next.validate = .ok () := by
  rw [SettingsStore.accept] at haccept
  split at haccept
  · simp at haccept
  next accepted hall =>
    split at haccept
    · simp at haccept
    next hvalid =>
      simp only [Option.some.injEq, Prod.mk.injEq] at haccept
      obtain ⟨rfl, rfl⟩ := haccept
      exact ⟨hkept.change hall, hvalid⟩

theorem Kept.loadEntry (hkept : Kept defaults store) {entry : Bytes × Bytes}
    {next : SettingsStore} (hok : store.loadEntry entry = .ok next) : Kept defaults next := by
  rw [SettingsStore.loadEntry] at hok
  split at hok
  · obtain rfl := Except.ok.inj hok
    exact hkept
  · split at hok
    · simp at hok
    next cfg hset =>
      obtain rfl := Except.ok.inj hok
      have hone : [entry].foldlM (fun cfg change => cfg.set change.1 change.2) store.cfg =
          .ok cfg := by
        rw [List.foldlM_cons, hset]
        rfl
      exact hkept.change hone

/-- Whatever file is loaded at startup. -/
theorem Kept.load (hkept : Kept defaults store) {fs : FileSystem} {loaded : SettingsStore}
    (hok : store.load fs = .ok loaded) : Kept defaults loaded := by
  rw [SettingsStore.load] at hok
  split at hok
  · obtain rfl := Except.ok.inj hok
    exact hkept
  · split at hok
    · simp at hok
    · split at hok
      · simp at hok
      next entered hfold =>
        split at hok
        · simp at hok
        · obtain rfl := Except.ok.inj hok
          exact foldlM_invariant (Kept defaults) (fun _ _ _ _ hbefore => hbefore.loadEntry) hkept
            hfold

/-! ## Reading the file back -/

/-- The entries of a file that spells some config's fields put those fields over
what was there. -/
theorem foldl_loadEntry {source : Config} {entries : List (Bytes × Bytes)}
    (hentries : ∀ entry ∈ entries, ∃ s ∈ settings, s.text = entry.1 ∧
      entry.2 = s.format source ∧ s.Rereads source) (start : SettingsStore) :
    ∃ cfg, entries.foldlM loadEntry start =
        .ok { start with cfg, stored := start.stored.assignAll entries } ∧
      cfg.operatorPart = start.cfg.operatorPart ∧
      ∀ s ∈ settings, (s.text ∈ entries.map (·.1) → s.Same cfg source) ∧
        (s.text ∉ entries.map (·.1) → s.Same cfg start.cfg) := by
  induction entries generalizing start with
  | nil => exact ⟨start.cfg, rfl, rfl, fun s _ => ⟨by simp, fun _ => Setting.Same.refl s _⟩⟩
  | cons entry rest ih =>
      obtain ⟨key, value⟩ := entry
      obtain ⟨own, hown, rfl, rfl, hrereads⟩ := hentries _ List.mem_cons_self
      obtain ⟨middle, happly, hsame⟩ := hrereads start.cfg
      have hset := Config.set_of_apply hown happly
      obtain ⟨hoperator, hrows⟩ := Config.set_frame hset
      have hspelled : middle.get own.text = own.format source := by
        rw [Config.get_text hown, hsame.format]
      have hfirst : start.loadEntry (own.text, own.format source) =
          .ok { start with
            cfg := middle, stored := start.stored.assign own.text (own.format source) } := by
        rw [SettingsStore.loadEntry, (appKey_iff own.text).mpr ⟨own, hown, rfl⟩]
        simp only [Bool.not_true, Bool.false_eq_true, if_false]
        rw [hset]
        simp only [hspelled]
      obtain ⟨cfg, hfold, hafter, hfields⟩ :=
        ih (fun entry hentry => hentries entry (List.mem_cons_of_mem _ hentry))
          { start with
            cfg := middle, stored := start.stored.assign own.text (own.format source) }
      refine ⟨cfg, ?_, hafter.trans hoperator, fun s hs => ⟨fun hmem => ?_, fun hnot => ?_⟩⟩
      · rw [List.foldlM_cons, hfirst]
        exact hfold
      · by_cases hagain : s.text ∈ rest.map (·.1)
        · exact (hfields s hs).1 hagain
        · rcases List.mem_cons.mp hmem with hthis | hrestMem
          · rw [eq_of_text hs hown hthis] at hagain ⊢
            exact ((hfields own hown).2 hagain).trans hsame
          · exact absurd hrestMem hagain
      · rw [List.map_cons, List.mem_cons, not_or] at hnot
        exact ((hfields s hs).2 hnot.2).trans ((hrows s hs).2 hnot.1)

theorem dottedKey_text {s : Setting} (hs : s ∈ settings) : DottedKey s.text := by
  have hall : ∀ text ∈ settings.map Setting.text,
      ((splitKey text).1 ≠ [] ∧ ∀ c ∈ (splitKey text).1, isWord c = true) ∧
      ((splitKey text).2 ≠ [] ∧ ∀ c ∈ (splitKey text).2, isWord c = true) ∧
      text = (splitKey text).1 ++ Ini.dot :: (splitKey text).2 := by
    decide +kernel
  obtain ⟨hsec, hname, hjoined⟩ := hall s.text (List.mem_map_of_mem hs)
  exact ⟨_, _, hsec, hname, hjoined⟩

theorem isControl_of_numeric {byte : UInt8} (hbyte : Numerals.isNumeric byte = true) :
    Config.isControl byte = false := by
  simp only [Numerals.isNumeric, Text.isDigit, Bool.or_eq_true, Bool.and_eq_true,
    decide_eq_true_eq] at hbyte
  rcases hbyte with (((hdigit | rfl) | rfl) | rfl) | rfl
  · simp only [Config.isControl, Bool.or_eq_false_iff, decide_eq_false_iff_not, UInt8.not_lt,
      UInt8.le_iff_toNat_le, ← UInt8.toNat_inj]
    simp only [UInt8.reduceToNat]
    omega
  all_goals rfl

/-- What `validate` lets through. -/
theorem name_of_validate {cfg : Config} (hvalid : cfg.validate = .ok ()) :
    cfg.profile.name ≠ [] ∧ Printable cfg.profile.name ∧
      cfg.profile.name.length ≤
        kMaxAdvertAppDataSize - (1 + if cfg.profile.hasLocation then 8 else 0) := by
  rw [Config.validate] at hvalid
  split at hvalid
  · simp at hvalid
  next hne =>
    split at hvalid
    · simp at hvalid
    next hcontrol =>
      refine ⟨hne, fun byte hbyte => ?_, Nat.le_of_not_lt fun hlong => ?_⟩
      · rw [Bool.not_eq_true, List.any_eq_false] at hcontrol
        exact Bool.eq_false_iff.mpr (hcontrol byte hbyte)
      · dsimp only at hvalid
        rw [if_pos hlong] at hvalid
        simp at hvalid

/-- Every value of a config that passed is written in one line. -/
theorem printable_format {s : Setting} (hs : s ∈ settings) {cfg : Config}
    (hname : Printable cfg.profile.name) : Printable (s.format cfg) := by
  simp only [settings, List.mem_cons, List.not_mem_nil, or_false] at hs
  have hreal : ∀ v : ℚ, Printable (formatReal v) := fun _ _ hmem =>
    isControl_of_numeric (Setting.numeric_formatReal hmem)
  have hint : ∀ v : Int, Printable (Text.decimalInt v) := fun _ _ hmem =>
    isControl_of_numeric (Numerals.numeric_decimalInt hmem)
  rcases hs with rfl | rfl | rfl | rfl | rfl | rfl | rfl | rfl | rfl | rfl
  · exact hreal _
  · exact hreal _
  · exact hint _
  · exact hint _
  · exact hint _
  · exact hreal _
  · exact hname
  · exact hreal _
  · exact hreal _
  · show Printable (if cfg.node.relay then utf8 "1" else utf8 "0")
    have hone : ∀ byte ∈ utf8 "1", Config.isControl byte = false := by decide +kernel
    have hzero : ∀ byte ∈ utf8 "0", Config.isControl byte = false := by decide +kernel
    split
    · exact hone
    · exact hzero

/-- The file that spells what the store holds is the file of its map. -/
theorem Kept.readable (hkept : Kept defaults store) (hvalid : store.cfg.validate = .ok ()) :
    ∀ entry ∈ store.stored.entries, DottedKey entry.1 ∧ Printable entry.2 := by
  rintro ⟨key, value⟩ hentry
  obtain ⟨s, hs, rfl, rfl, -⟩ := hkept.entries key value (SortedMap.find_of_mem hentry)
  exact ⟨dottedKey_text hs, printable_format hs (name_of_validate hvalid).2.1⟩

/-- Read over the same defaults, the file of a store gives what the store holds. -/
theorem Kept.reload (hkept : Kept defaults store) (hvalid : store.cfg.validate = .ok ())
    (hrereads : ∀ s ∈ settings, store.stored.find s.text ≠ none → s.Rereads store.cfg)
    {fs : FileSystem} (hfile : fs store.path = some (settingsContent store.stored)) :
    (SettingsStore.make defaults).load fs =
      .ok { SettingsStore.make defaults with cfg := store.cfg, stored := store.stored } := by
  have hpath : (SettingsStore.make defaults).path = store.path := hkept.path.symm
  have hspelled : ∀ entry ∈ store.stored.entries, ∃ s ∈ settings, s.text = entry.1 ∧
      entry.2 = s.format store.cfg ∧ s.Rereads store.cfg := by
    rintro ⟨key, value⟩ hentry
    have hfound := SortedMap.find_of_mem hentry
    obtain ⟨s, hs, rfl, hvalue, -⟩ := hkept.entries key value hfound
    exact ⟨s, hs, rfl, hvalue, hrereads s hs (by rw [hfound]; simp)⟩
  obtain ⟨cfg, hfold, hoperator, hfields⟩ :=
    foldl_loadEntry hspelled (SettingsStore.make defaults)
  -- The config that is read differs from the store's in no field.
  have hcfg : cfg = store.cfg := by
    refine Setting.config_ext (hoperator.trans hkept.operator.symm) fun s hs => ?_
    by_cases hmem : s.text ∈ store.stored.entries.map (·.1)
    · exact (hfields s hs).1 hmem
    · have hnone : store.stored.find s.text = none := by
        cases hfound : store.stored.find s.text with
        | none => rfl
        | some value =>
            exact absurd (List.mem_map_of_mem (SortedMap.mem_entries_iff.mpr hfound)) hmem
      exact ((hfields s hs).2 hmem).trans (hkept.unset s hs hnone).symm
  have hini := load_settingsContent (hkept.readable hvalid) hfile
  have hstored : (SettingsStore.make defaults).stored.assignAll store.stored.entries =
      store.stored := SortedMap.assignAll_entries store.stored
  rw [SettingsStore.load, hpath, hfile, if_neg (by simp), hini]
  dsimp only
  rw [hfold, hcfg, hstored]
  dsimp only
  rw [hvalid]

/-! ## Runs -/

/-- What happens to the store while the daemon is up: the node and its radio are
attached or have gone on to another state, and the app makes changes. The disk is
whatever it is at each of them. -/
inductive Event where
  | attached (running : Running)
  | set (io : SaveIo) (met : Applying) (fs : FileSystem) (changes : List Change)

def step (store : SettingsStore) : Event → SettingsStore
  | .attached running => store.attach running
  | .set io met fs changes => (store.set io met fs changes).2.1

/-- What a call of `set` comes to: refused, checked but not written, or written
and applied. -/
theorem set_cases (io : SaveIo) (met : Applying) (fs : FileSystem) (store : SettingsStore)
    (changes : List Change) :
    (store.accept changes = none ∧ store.set io met fs changes = (.invalid, store, fs)) ∨
    ∃ next stored, store.accept changes = some (next, stored) ∧
      ((∃ fs', saveContent io fs store.path (settingsContent stored) false = (false, fs') ∧
        store.set io met fs changes = (.ioError, store, fs')) ∨
      ∃ fs', saveContent io fs store.path (settingsContent stored) false = (true, fs') ∧
        store.set io met fs changes =
          (.ok, SettingsStore.apply met { store with cfg := next, stored }, fs')) := by
  rw [SettingsStore.set]
  split
  next hrefused => exact .inl ⟨hrefused, rfl⟩
  next next' stored haccept =>
    refine .inr ⟨next', stored, haccept, ?_⟩
    split
    next fs' hsave => exact .inl ⟨fs', hsave, rfl⟩
    next fs' hsave => exact .inr ⟨fs', hsave, rfl⟩

theorem Kept.apply (hkept : Kept defaults store) (met : Applying) :
    Kept defaults (SettingsStore.apply met store) :=
  ⟨hkept.path, hkept.entries, hkept.unset, hkept.operator⟩

theorem Kept.step (hkept : Kept defaults store) (event : Event) :
    Kept defaults (store.step event) := by
  cases event with
  | attached running => exact ⟨hkept.path, hkept.entries, hkept.unset, hkept.operator⟩
  | set io met fs changes =>
      rw [SettingsStore.step]
      rcases store.set_cases io met fs changes with
        ⟨-, hset⟩ | ⟨next, stored, haccept, ⟨fs', -, hset⟩ | ⟨fs', -, hset⟩⟩
      · rw [hset]
        exact hkept
      · rw [hset]
        exact hkept
      · rw [hset]
        exact (hkept.accept haccept).1.apply met

/-- A store as the daemon starts with and every run of changes leaves it. -/
theorem kept_run {first : FileSystem} {start : SettingsStore}
    (hstart : (SettingsStore.make defaults).load first = .ok start) (events : List Event) :
    Kept defaults (run step start events) :=
  run_invariant (fun _ event hkept => hkept.step event) ((Kept.make defaults).load hstart) events

/-- **Settings survive a restart.** The daemon starts from some defaults and some
settings file or none, and the app makes any changes. The file a successful change
wrote, read over the same defaults, gives every app key the value it had and the
same stored map. That `strtod` reads back the doubles in the file is assumed. -/
theorem settings_survive_restart {first : FileSystem} {start : SettingsStore}
    (hstart : (SettingsStore.make defaults).load first = .ok start) {events : List Event}
    {io : SaveIo} {met : Applying} {fs fs' : FileSystem} {changes : List Change}
    {after : SettingsStore}
    (hset : (run step start events).set io met fs changes = (.ok, after, fs'))
    (hreads : ∀ s ∈ settings, after.stored.find s.text ≠ none → s.ReadsBack after.cfg)
    {disk : FileSystem} (hdisk : disk defaults.settingsPath = fs' defaults.settingsPath) :
    ∃ loaded, (SettingsStore.make defaults).load disk = .ok loaded ∧
      (∀ key, Config.appKey key = true → loaded.cfg.get key = after.cfg.get key) ∧
      loaded.stored = after.stored := by
  have hkept := kept_run hstart events
  rcases (run step start events).set_cases io met fs changes with
    ⟨-, hrefused⟩ | ⟨next, stored, haccept, ⟨_, -, hfailed⟩ | ⟨written, hsave, hdone⟩⟩
  · rw [hset] at hrefused
    simp at hrefused
  · rw [hset] at hfailed
    simp at hfailed
  · rw [hset] at hdone
    simp only [Prod.mk.injEq, true_and] at hdone
    obtain ⟨rfl, rfl⟩ := hdone
    obtain ⟨hafter, hvalid⟩ := hkept.accept haccept
    have hrereads : ∀ s ∈ settings, stored.find s.text ≠ none → s.Rereads next := by
      intro s hs hstored cfg
      obtain ⟨value, hfound⟩ := Option.ne_none_iff_exists'.mp hstored
      obtain ⟨own, hown, htext, -, hrange⟩ := hafter.entries s.text value hfound
      rw [eq_of_text hown hs htext] at hrange
      exact Setting.apply_format hs cfg hrange (hreads s hs hstored) (name_of_validate hvalid).1
    have hfile : disk (run step start events).path = some (settingsContent stored) := by
      rw [hkept.path, hdisk, ← hkept.path]
      exact saveContent_installs hsave
    exact ⟨_, hafter.reload hvalid hrereads hfile, fun _ _ => rfl, rfl⟩

/-- A first start, and an app that sets a frequency and a name that only quotes keep. -/
def namedStore : SettingsStore := .make { profile := { name := utf8 "4FD099CC" } }

def awkwardName : SettingsResult × SettingsStore × FileSystem :=
  namedStore.set {} { view := .down } (fun _ => none)
    [(utf8 "radio.lora_freq", utf8 "869.618"), (utf8 "node.advert_name", utf8 " [a] = \"é\" #;' ")]

/-- Both come back. -/
theorem settings_survive_restart_awkward :
    ∃ loaded, namedStore.load awkwardName.2.2 = .ok loaded ∧
      (∀ key, Config.appKey key = true → loaded.cfg.get key = awkwardName.2.1.cfg.get key) ∧
      loaded.stored = awkwardName.2.1.stored := by
  have hok : awkwardName.1 = .ok := by decide +kernel
  have hset : (run step namedStore []).set {} { view := .down } (fun _ => none)
      [(utf8 "radio.lora_freq", utf8 "869.618"),
        (utf8 "node.advert_name", utf8 " [a] = \"é\" #;' ")] =
      (.ok, awkwardName.2.1, awkwardName.2.2) := Prod.ext hok rfl
  have hfreq : Setting.loraFreq.ReadsBack awkwardName.2.1.cfg := by
    show Numerals.strtod (formatReal awkwardName.2.1.cfg.radio.freqMhz) =
      some awkwardName.2.1.cfg.radio.freqMhz
    decide +kernel
  have hothers : ∀ text ∈ (settings.drop 1).map Setting.text, text ≠ Setting.advertName.text →
      awkwardName.2.1.stored.find text = none := by
    decide +kernel
  have hstart : namedStore.load (fun _ => none) = .ok namedStore := rfl
  refine settings_survive_restart hstart hset (fun s hs hstored => ?_) rfl
  rcases List.mem_cons.mp hs with rfl | hrest
  · exact hfreq
  · by_cases hname : s.text = Setting.advertName.text
    · rw [eq_of_text hs (by simp [settings]) hname]
      trivial
    · exact absurd (hothers s.text (List.mem_map_of_mem hrest) hname) hstored

end SettingsStore

end Coreletd.Daemon
