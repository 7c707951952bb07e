/-
# Stores behind a dirty flag

The contacts, the channels and the inbox keep themselves alike: a change sets a
flag, a save that is through clears it, and at startup `load_state` reads the file
or a copy of it. What may be relied on is the same for each of them. While the flag
is clear the file is what a save would write, or what the store was loaded from, or
it is not there and the store is as it was made.
-/

import Coreletd.Daemon.LoadState
import Coreletd.Mesh.StateWriter

namespace Coreletd.Daemon

open Coreletd.Library
open Coreletd.Mesh

universe u

/-- A store with a file of its own. -/
structure StateStore (σ : Type u) where
  path : σ → Bytes
  dirty : σ → Bool
  /-- What a save would write. -/
  content : σ → Bytes
  /-- The flag cleared. -/
  cleaned : σ → σ
  save : SaveIo → σ → FileSystem → Bool × σ × FileSystem
  /-- A read error strikes behind that many lines, if one does. -/
  load : Option Nat → σ → FileSystem → LoadResult × σ
  path_cleaned : ∀ s, path (cleaned s) = path s
  dirty_cleaned : ∀ s, dirty (cleaned s) = false
  content_cleaned : ∀ s, content (cleaned s) = content s
  save_eq : ∀ io s fs, save io s fs =
    match saveContent io fs (path s) (content s) true with
    | (true, fs) => (true, cleaned s, fs)
    | (false, fs) => (false, s, fs)
  load_congr : ∀ io s fs fs', fs (path s) = fs' (path s) → load io s fs = load io s fs'
  load_cases : ∀ io s fs,
    (load io s fs = (.missing, s) ∧ (path s = [] ∨ fs (path s) = none)) ∨
    load io s fs = (.corrupt, s) ∨
    ∃ s', load io s fs = (.loaded, s') ∧ path s' = path s

namespace StateStore

variable {σ : Type u} (P : StateStore σ) {initial s s' : σ} {fs fs' : FileSystem}

/-- A clear flag means that the file has what the store has. -/
def Saved (initial s : σ) (fs : FileSystem) : Prop :=
  P.dirty s = false →
    fs (P.path s) = some (P.content s) ∨
    P.load none initial fs = (.loaded, s) ∨
    (fs (P.path s) = none ∧ s = initial)

/-- What an operation may do to a store and its file: flag the store, save it, or
leave the two alone. -/
def Keeps (s : σ) (fs : FileSystem) (s' : σ) (fs' : FileSystem) : Prop :=
  P.path s' = P.path s ∧
    (P.dirty s' = true ∨ fs' (P.path s') = some (P.content s') ∨
      (s' = s ∧ fs' (P.path s) = fs (P.path s)))

variable {P}

theorem Keeps.of_dirty (hpath : P.path s' = P.path s) (hdirty : P.dirty s' = true) :
    P.Keeps s fs s' fs' := ⟨hpath, .inl hdirty⟩

theorem Keeps.of_eq (hfile : fs' (P.path s) = fs (P.path s)) : P.Keeps s fs s fs' :=
  ⟨rfl, .inr (.inr ⟨rfl, hfile⟩)⟩

theorem Keeps.trans {s'' : σ} {fs'' : FileSystem} (hfirst : P.Keeps s fs s' fs')
    (hsecond : P.Keeps s' fs' s'' fs'') : P.Keeps s fs s'' fs'' := by
  obtain ⟨hpath, hfirst⟩ := hfirst
  obtain ⟨hpath', hdirty | hinstalled | ⟨rfl, hfile⟩⟩ := hsecond
  · exact ⟨hpath'.trans hpath, .inl hdirty⟩
  · exact ⟨hpath'.trans hpath, .inr (.inl hinstalled)⟩
  · refine ⟨hpath, ?_⟩
    rcases hfirst with hdirty | hinstalled | ⟨rfl, hfile'⟩
    · exact .inl hdirty
    · exact .inr (.inl (hfile.trans hinstalled))
    · exact .inr (.inr ⟨rfl, hfile.trans hfile'⟩)

/-- So the meaning of a clear flag is kept. -/
theorem Saved.keeps (hsaved : P.Saved initial s fs) (hinitial : P.path s = P.path initial)
    (hkeeps : P.Keeps s fs s' fs') : P.Saved initial s' fs' := by
  obtain ⟨hpath, hdirty | hinstalled | ⟨rfl, hfile⟩⟩ := hkeeps
  · intro hclean
    rw [hdirty] at hclean
    cases hclean
  · exact fun _ => .inl hinstalled
  · intro hclean
    rcases hsaved hclean with hinstalled | hloaded | ⟨habsent, hfresh⟩
    · exact .inl (hfile.trans hinstalled)
    · refine .inr (.inl ?_)
      rw [← hloaded]
      exact P.load_congr none initial fs' fs (hinitial ▸ hfile)
    · exact .inr (.inr ⟨hfile.trans habsent, hfresh⟩)

/-! ## Saves -/

theorem keeps_save (P : StateStore σ) (io : SaveIo) (s : σ) (fs : FileSystem) :
    P.dirty s = true → P.Keeps s fs (P.save io s fs).2.1 (P.save io s fs).2.2 := by
  intro hdirty
  rw [P.save_eq]
  split
  next fs' hok =>
    refine ⟨P.path_cleaned s, .inr (.inl ?_)⟩
    rw [P.path_cleaned, P.content_cleaned]
    exact saveContent_installs hok
  next => exact .of_dirty rfl hdirty

/-- A save that fails leaves the flag; one that is through clears it. -/
theorem dirty_save (P : StateStore σ) (io : SaveIo) (s : σ) (fs : FileSystem) :
    P.dirty (P.save io s fs).2.1 = (P.dirty s && !(P.save io s fs).1) := by
  rw [P.save_eq]
  split
  · simp [P.dirty_cleaned]
  · simp

theorem dirty_of_failed (P : StateStore σ) (io : SaveIo) (s : σ) (fs : FileSystem)
    (hfailed : (P.save io s fs).1 = false) : P.dirty (P.save io s fs).2.1 = P.dirty s := by
  rw [P.dirty_save, hfailed, Bool.not_false, Bool.and_true]

/-- It touches no file but its own. -/
theorem save_other (P : StateStore σ) (io : SaveIo) (s : σ) (fs : FileSystem) {name : Bytes}
    (hname : ¬ P.path s <+: name) : (P.save io s fs).2.2 name = fs name := by
  rw [P.save_eq]
  have hother := saveContent_other io fs hname (P.content s) true
  split
  next hsaved => rwa [hsaved] at hother
  next hsaved => rwa [hsaved] at hother

/-- One store's part of a flush. -/
def flushed (P : StateStore σ) (io : SaveIo) (s : σ) (fs : FileSystem) : Bool × σ × FileSystem :=
  if P.dirty s then P.save io s fs else (true, s, fs)

variable (P) in
theorem keeps_flushed (io : SaveIo) (s : σ) (fs : FileSystem) :
    P.Keeps s fs (P.flushed io s fs).2.1 (P.flushed io s fs).2.2 := by
  rw [flushed]
  split
  next hdirty => exact P.keeps_save io s fs hdirty
  next => exact .of_eq rfl

variable (P) in
theorem dirty_flushed (io : SaveIo) (s : σ) (fs : FileSystem) :
    P.dirty (P.flushed io s fs).2.1 = !(P.flushed io s fs).1 := by
  rw [flushed]
  split
  next hdirty => rw [P.dirty_save, hdirty, Bool.true_and]
  next hclean => simpa using hclean

variable (P) in
theorem flushed_other (io : SaveIo) (s : σ) (fs : FileSystem) {name : Bytes}
    (hname : ¬ P.path s <+: name) : (P.flushed io s fs).2.2 name = fs name := by
  rw [flushed]
  split
  · exact P.save_other io s fs hname
  · rfl

/-! ## Startup -/

variable (P) in
/-- `load_state` of a store that was just made. -/
def recover (clock : Nat × Nat) (initial : σ) (fs : FileSystem) : LoadResult × σ × FileSystem :=
  loadState P.load (P.path initial) (none, none) clock initial fs

/-- A load finds no file, or one that is corrupt, or leaves a store of which a clear
flag can be believed. -/
theorem saved_load (hpath : P.path initial ≠ []) (fs : FileSystem) :
    P.load none initial fs = (.corrupt, initial) ∨
      ((P.load none initial fs).1 ≠ .corrupt ∧
        P.Saved initial (P.load none initial fs).2 fs ∧
        P.path (P.load none initial fs).2 = P.path initial) := by
  rcases P.load_cases none initial fs with
    ⟨hload, hnone⟩ | hcorrupt | ⟨loaded, hload, hplace⟩
  · rw [hload]
    exact .inr ⟨by simp, fun _ => .inr (.inr ⟨hnone.resolve_left hpath, rfl⟩), rfl⟩
  · exact .inl hcorrupt
  · rw [hload]
    exact .inr ⟨by simp, fun _ => .inr (.inl hload), hplace⟩

/-- Moving the file aside leaves none. -/
theorem quarantine_path (fs : FileSystem) (path : Bytes) (now : Nat) :
    quarantine fs path now path = none := by
  cases hfile : fs path with
  | none => simp [quarantine, FileSystem.rename, hfile]
  | some content =>
      rw [StateFile.quarantine_eq_set hfile, FileSystem.set_other _ _
        (append_ne_self (quarantineSuffix_ne_nil now)).symm, FileSystem.set_same]

theorem saved_recover (hpath : P.path initial ≠ []) (clock : Nat × Nat) (fs : FileSystem) :
    P.Saved initial (P.recover clock initial fs).2.1 (P.recover clock initial fs).2.2 ∧
      P.path (P.recover clock initial fs).2.1 = P.path initial := by
  have hempty : ∀ fs' : FileSystem, fs' (P.path initial) = none → P.Saved initial initial fs' :=
    fun fs' habsent _ => .inr (.inr ⟨habsent, rfl⟩)
  have hread : ∀ fs' result store, P.load none initial fs' = (result, store) →
      (result = .corrupt ∧ store = initial) ∨
        (result ≠ .corrupt ∧ P.Saved initial store fs' ∧ P.path store = P.path initial) := by
    intro fs' result store hload
    have hcases := saved_load hpath fs'
    rw [hload] at hcases
    exact hcases.imp_left fun hequal => Prod.mk.inj hequal
  rw [recover, loadState]
  split
  next store hload =>
    obtain ⟨-, rfl⟩ | ⟨hsound, -⟩ := hread _ _ _ hload
    · dsimp only
      split
      next hrename => exact ⟨hempty _ (quarantine_path fs _ clock.1), rfl⟩
      next restored hrename =>
        split
        next store hload' =>
          obtain ⟨-, rfl⟩ | ⟨hsound, -⟩ := hread _ _ _ hload'
          · exact ⟨hempty _ (quarantine_path restored _ clock.2), rfl⟩
          · exact absurd rfl hsound
        next result store hsound hload' =>
          obtain ⟨rfl, -⟩ | ⟨-, hsaved⟩ := hread _ _ _ hload'
          · exact absurd rfl hsound
          · exact hsaved
    · exact absurd rfl hsound
  next result store hsound hload =>
    obtain ⟨rfl, -⟩ | ⟨-, hsaved⟩ := hread _ _ _ hload
    · exact absurd rfl hsound
    · exact hsaved

/-- Recovery touches no file but its own. -/
theorem recover_other (P : StateStore σ) (clock : Nat × Nat) (initial : σ) (fs : FileSystem)
    {name : Bytes} (hname : ¬ P.path initial <+: name) :
    (P.recover clock initial fs).2.2 name = fs name := by
  have hown : name ≠ P.path initial := fun hequal => hname (hequal ▸ List.prefix_rfl)
  have hbackup : name ≠ P.path initial ++ bakSuffix := fun hequal =>
    hname (hequal ▸ List.prefix_append _ _)
  rw [recover, loadState]
  split
  · dsimp only
    split
    · exact quarantine_other fs hname clock.1
    next restored hrename =>
      have hrestored := (FileSystem.rename_other hrename hbackup hown).trans
        (quarantine_other fs hname clock.1)
      split
      · exact (quarantine_other restored hname clock.2).trans hrestored
      · exact hrestored
  · rfl

end StateStore

/-! ## The three stores -/

/-- The contacts. -/
def contactStates : StateStore ContactStore where
  path := (·.path)
  dirty := (·.dirty)
  content := ContactStore.fileContent
  cleaned s := { s with dirty := false }
  save := ContactStore.save
  load badAfter s fs := s.load fs badAfter
  path_cleaned _ := rfl
  dirty_cleaned _ := rfl
  content_cleaned _ := rfl
  save_eq _ _ _ := rfl
  load_congr badAfter s fs fs' hfile := by
    rw [ContactStore.load, hfile]
    rfl
  load_cases badAfter s fs := by
    rw [ContactStore.load]
    split
    next hnone => exact .inl ⟨rfl, .inl hnone⟩
    · split
      next habsent => exact .inl ⟨rfl, .inr habsent⟩
      · dsimp only
        split
        · exact .inr (.inl rfl)
        · split
          · exact .inr (.inl rfl)
          · split
            · exact .inr (.inl rfl)
            · exact .inr (.inr ⟨_, rfl, rfl⟩)

/-- The channel slots. -/
def channelStates : StateStore ChannelStore where
  path := (·.path)
  dirty := (·.dirty)
  content := ChannelStore.fileContent
  cleaned s := { s with dirty := false }
  save := ChannelStore.save
  load badAfter s fs := s.load fs badAfter
  path_cleaned _ := rfl
  dirty_cleaned _ := rfl
  content_cleaned _ := rfl
  save_eq _ _ _ := rfl
  load_congr badAfter s fs fs' hfile := by
    rw [ChannelStore.load, hfile]
    rfl
  load_cases badAfter s fs := by
    rw [ChannelStore.load]
    split
    next hnone => exact .inl ⟨rfl, .inl hnone⟩
    · split
      next habsent => exact .inl ⟨rfl, .inr habsent⟩
      · dsimp only
        split
        · exact .inr (.inl rfl)
        · split
          · exact .inr (.inl rfl)
          · split
            · exact .inr (.inl rfl)
            · exact .inr (.inr ⟨_, rfl, rfl⟩)

/-- The inbox. -/
def inboxStates : StateStore MessageInbox where
  path := (·.path)
  dirty := (·.dirty)
  content := MessageInbox.fileContent
  cleaned q := { q with dirty := false }
  save := MessageInbox.save
  load badAfter q fs := q.load fs badAfter
  path_cleaned _ := rfl
  dirty_cleaned _ := rfl
  content_cleaned _ := rfl
  save_eq _ _ _ := rfl
  load_congr badAfter q fs fs' hfile := by
    rw [MessageInbox.load, hfile]
    rfl
  load_cases badAfter q fs := by
    rw [MessageInbox.load]
    split
    next hnone => exact .inl ⟨rfl, .inl hnone⟩
    · split
      next habsent => exact .inl ⟨rfl, .inr habsent⟩
      · dsimp only
        split
        · exact .inr (.inl rfl)
        · split
          · exact .inr (.inl rfl)
          · exact .inr (.inr ⟨_, rfl, rfl⟩)

/-- A flush is a save of each store that is dirty. -/
theorem flush_eq (io : FlushIo) (w : StateWriter) (n : Node) :
    let contacts := contactStates.flushed io.contacts n.contacts n.files
    let channels := channelStates.flushed io.channels n.channels contacts.2.2
    let inbox := inboxStates.flushed io.inbox n.inbox channels.2.2
    let ok := contacts.1 && channels.1 && inbox.1
    w.flush io n = (ok, { w with healthy := ok },
      { n with
        contacts := contacts.2.1
        channels := channels.2.1
        inbox := inbox.2.1
        files := inbox.2.2 }) := rfl

end Coreletd.Daemon
