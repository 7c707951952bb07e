/-
# Loading a state file at start

`load_state` reads a store's file and, when it cannot be parsed, moves it aside
and falls back on the copy the previous save left behind. What a parser says
about a content is left open; the results are about the two quarantines and the
one restoring rename, which run over names that carry a clock of one-second
resolution.
-/

import Coreletd.Mesh.ContactFile
import Coreletd.Util.Persist

namespace Coreletd.Daemon

open Coreletd.Library
open Coreletd.Mesh

universe u v

variable {ι : Type u} {σ : Type v}

/-- `load_state` over any store's `load`. Each of the two loads meets its own
input conditions and each of the two quarantines its own wall clock. -/
def loadState (load : ι → σ → FileSystem → LoadResult × σ) (path : Bytes) (io : ι × ι)
    (clock : Nat × Nat) (store : σ) (fs : FileSystem) : LoadResult × σ × FileSystem :=
  match load io.1 store fs with
  | (.corrupt, store) =>
      let fs := quarantine fs path clock.1
      match fs.rename (path ++ bakSuffix) path with
      | none => (.corrupt, store, fs)
      | some fs =>
          match load io.2 store fs with
          | (.corrupt, store) => (.corrupt, store, quarantine fs path clock.2)
          | (result, store) => (result, store, fs)
  | (result, store) => (result, store, fs)

/-- A store about to be loaded: its `load` depends on the file system only
through the content of its own file, and changes the store only by a content
that parses. -/
structure StateFile (ι : Type u) (σ : Type v) where
  path : Bytes
  store : σ
  load : ι → σ → FileSystem → LoadResult × σ
  /-- The store a content turns into, when the parser takes it. -/
  parse : ι → Bytes → Option σ
  load_absent : ∀ io (fs : FileSystem), fs path = none → load io store fs = (.missing, store)
  load_unparsed : ∀ io (fs : FileSystem) content, fs path = some content →
    parse io content = none → load io store fs = (.corrupt, store)
  load_parsed : ∀ io (fs : FileSystem) content loaded, fs path = some content →
    parse io content = some loaded → load io store fs = (.loaded, loaded)

namespace StateFile

variable (file : StateFile ι σ) (io : ι × ι) (clock : Nat × Nat) (fs : FileSystem)

/-- `load_state` on this store. -/
def recover : LoadResult × σ × FileSystem :=
  loadState file.load file.path io clock file.store fs

/-- The primary was found corrupt, with this content. -/
def PrimaryCorrupt (content : Bytes) : Prop :=
  fs file.path = some content ∧ file.parse io.1 content = none

/-- The primary is corrupt, and the backup, with this content, is read next. -/
def BackupRead (backup : Bytes) : Prop :=
  (∃ content, file.PrimaryCorrupt io fs content) ∧ fs (file.path ++ bakSuffix) = some backup

/-- Recovery destroys no evidence: every content reported as corrupt is still
that of some file, and a backup that parses is what the store then holds. -/
structure KeepsEvidence : Prop where
  primary : ∀ content, file.PrimaryCorrupt io fs content →
    (file.recover io clock fs).2.2.Holds content
  backup : ∀ content, file.BackupRead io fs content → file.parse io.2 content = none →
    (file.recover io clock fs).2.2.Holds content
  restored : ∀ content loaded, file.BackupRead io fs content →
    file.parse io.2 content = some loaded → (file.recover io clock fs).2.1 = loaded

/-- Both generations are corrupt, the clock shows the same second for both, and
only the first quarantine's file would have kept the primary's content. -/
def Collides : Prop :=
  ∃ content backup, file.PrimaryCorrupt io fs content ∧
    fs (file.path ++ bakSuffix) = some backup ∧ file.parse io.2 backup = none ∧
    clock.1 = clock.2 ∧ content ≠ backup ∧
    ∀ name, fs name = some content →
      name = file.path ∨ name = file.path ++ quarantineSuffix clock.1

/-! ## The three ways recovery ends -/

variable {file io clock fs}

private theorem backup_ne_path : file.path ++ bakSuffix ≠ file.path :=
  append_ne_self (by decide)

private theorem quarantined_ne_path (now : Nat) :
    file.path ++ quarantineSuffix now ≠ file.path :=
  append_ne_self (quarantineSuffix_ne_nil now)

private theorem quarantined_ne_backup (now : Nat) :
    file.path ++ quarantineSuffix now ≠ file.path ++ bakSuffix :=
  append_injective_right (quarantineSuffix_ne_bak now)

theorem quarantine_eq_set {path content : Bytes} (hfile : fs path = some content) (now : Nat) :
    quarantine fs path now =
      (fs.set path none).set (path ++ quarantineSuffix now) (some content) := by
  rw [quarantine, FileSystem.rename, hfile]

/-- The first quarantine leaves the backup where it was. -/
private theorem quarantine_backup {content : Bytes}
    (hprimary : file.PrimaryCorrupt io fs content) (now : Nat) :
    quarantine fs file.path now (file.path ++ bakSuffix) = fs (file.path ++ bakSuffix) := by
  rw [quarantine_eq_set hprimary.1, FileSystem.set_other _ _ (quarantined_ne_backup now).symm,
    FileSystem.set_other _ _ backup_ne_path]

/-- A file that is not corrupt is not touched. -/
theorem recover_of_sound (hsound : ∀ content, ¬ file.PrimaryCorrupt io fs content) :
    (file.recover io clock fs).2.2 = fs := by
  rw [recover, loadState]
  cases hfile : fs file.path with
  | none => rw [file.load_absent io.1 fs hfile]
  | some content =>
      cases hparse : file.parse io.1 content with
      | none => exact absurd ⟨hfile, hparse⟩ (hsound content)
      | some loaded => rw [file.load_parsed io.1 fs content loaded hfile hparse]

/-- Without a backup the quarantine is all that happens. -/
theorem recover_without_backup {content : Bytes} (hprimary : file.PrimaryCorrupt io fs content)
    (hbackup : fs (file.path ++ bakSuffix) = none) :
    file.recover io clock fs = (.corrupt, file.store, quarantine fs file.path clock.1) := by
  rw [recover, loadState, file.load_unparsed io.1 fs content hprimary.1 hprimary.2]
  simp only [FileSystem.rename, quarantine_backup hprimary, hbackup]

/-- The directory once the primary is quarantined and the backup is in its
place. -/
def restored (file : StateFile ι σ) (now : Nat) (fs : FileSystem) (backup : Bytes) : FileSystem :=
  ((quarantine fs file.path now).set (file.path ++ bakSuffix) none).set file.path (some backup)

/-- A backup that parses is loaded and stays in the primary's place. -/
theorem recover_from_backup {content backup : Bytes} {loaded : σ}
    (hprimary : file.PrimaryCorrupt io fs content)
    (hbackup : fs (file.path ++ bakSuffix) = some backup)
    (hparse : file.parse io.2 backup = some loaded) :
    file.recover io clock fs = (.loaded, loaded, file.restored clock.1 fs backup) := by
  rw [recover, loadState, file.load_unparsed io.1 fs content hprimary.1 hprimary.2]
  simp only [FileSystem.rename, quarantine_backup hprimary, hbackup]
  rw [file.load_parsed io.2 _ backup loaded (by simp) hparse]
  rfl

/-- A backup that does not parse is quarantined in its turn. -/
theorem recover_both_corrupt {content backup : Bytes} (hprimary : file.PrimaryCorrupt io fs content)
    (hbackup : fs (file.path ++ bakSuffix) = some backup)
    (hparse : file.parse io.2 backup = none) :
    file.recover io clock fs =
      (.corrupt, file.store, quarantine (file.restored clock.1 fs backup) file.path clock.2) := by
  rw [recover, loadState, file.load_unparsed io.1 fs content hprimary.1 hprimary.2]
  simp only [FileSystem.rename, quarantine_backup hprimary, hbackup]
  rw [file.load_unparsed io.2 _ backup (by simp) hparse]
  rfl

/-! ## What survives -/

private theorem quarantine_restored (backup : Bytes) :
    quarantine (file.restored clock.1 fs backup) file.path clock.2 =
      ((file.restored clock.1 fs backup).set file.path none).set
        (file.path ++ quarantineSuffix clock.2) (some backup) :=
  quarantine_eq_set (FileSystem.set_same _ _ _) clock.2

/-- Besides the store's own two names and the two quarantine names nothing in
the directory changes. -/
theorem both_corrupt_other {content backup name : Bytes}
    (hprimary : file.PrimaryCorrupt io fs content)
    (hpath : name ≠ file.path) (hbak : name ≠ file.path ++ bakSuffix)
    (hfirst : name ≠ file.path ++ quarantineSuffix clock.1)
    (hsecond : name ≠ file.path ++ quarantineSuffix clock.2) :
    quarantine (file.restored clock.1 fs backup) file.path clock.2 name = fs name := by
  rw [quarantine_restored, FileSystem.set_other _ _ hsecond, FileSystem.set_other _ _ hpath,
    restored,
    FileSystem.set_other _ _ hpath, FileSystem.set_other _ _ hbak, quarantine_eq_set hprimary.1,
    FileSystem.set_other _ _ hfirst, FileSystem.set_other _ _ hpath]

/-- In another second the first quarantine's file is left alone. -/
theorem both_corrupt_first {content backup : Bytes}
    (hprimary : file.PrimaryCorrupt io fs content) (hticked : clock.1 ≠ clock.2) :
    quarantine (file.restored clock.1 fs backup) file.path clock.2
      (file.path ++ quarantineSuffix clock.1) = some content := by
  have hnames : file.path ++ quarantineSuffix clock.1 ≠ file.path ++ quarantineSuffix clock.2 :=
    append_injective_right fun hequal => hticked (quarantineSuffix_injective hequal)
  rw [quarantine_restored, FileSystem.set_other _ _ hnames,
    FileSystem.set_other _ _ (quarantined_ne_path clock.1),
    restored, FileSystem.set_other _ _ (quarantined_ne_path clock.1),
    FileSystem.set_other _ _ (quarantined_ne_backup clock.1), quarantine_eq_set hprimary.1,
    FileSystem.set_same]

/-- The backup's content always ends up under the second quarantine's name. -/
theorem both_corrupt_second (backup : Bytes) :
    quarantine (file.restored clock.1 fs backup) file.path clock.2
      (file.path ++ quarantineSuffix clock.2) = some backup := by
  rw [quarantine_restored, FileSystem.set_same]

theorem both_corrupt_path (backup : Bytes) :
    quarantine (file.restored clock.1 fs backup) file.path clock.2 file.path = none := by
  rw [quarantine_restored,
    FileSystem.set_other _ _ (quarantined_ne_path clock.2).symm, FileSystem.set_same]

theorem both_corrupt_bak (backup : Bytes) :
    quarantine (file.restored clock.1 fs backup) file.path clock.2
      (file.path ++ bakSuffix) = none := by
  rw [quarantine_restored,
    FileSystem.set_other _ _ (quarantined_ne_backup clock.2).symm,
    FileSystem.set_other _ _ backup_ne_path, restored, FileSystem.set_other _ _ backup_ne_path,
    FileSystem.set_same]

/-- With both generations corrupt the primary's content survives exactly when
the names or the contents differ or another file has it too. -/
theorem both_corrupt_holds_primary_iff {content backup : Bytes}
    (hprimary : file.PrimaryCorrupt io fs content)
    (hbackup : fs (file.path ++ bakSuffix) = some backup) :
    (quarantine (file.restored clock.1 fs backup) file.path clock.2).Holds content ↔
      clock.1 ≠ clock.2 ∨ content = backup ∨
        ∃ name, fs name = some content ∧ name ≠ file.path ∧
          name ≠ file.path ++ quarantineSuffix clock.1 := by
  constructor
  · rintro ⟨name, hname⟩
    by_contra hnone
    push Not at hnone
    obtain ⟨hsame, hdiffer, honly⟩ := hnone
    -- Each name of the directory is one recovery has written, or holds what it held before.
    by_cases hpath : name = file.path
    · rw [hpath, both_corrupt_path] at hname
      simp at hname
    · by_cases hbak : name = file.path ++ bakSuffix
      · rw [hbak, both_corrupt_bak] at hname
        simp at hname
      · by_cases hdest : name = file.path ++ quarantineSuffix clock.2
        · rw [hdest, both_corrupt_second] at hname
          exact hdiffer (Option.some.inj hname).symm
        · have hfirst : name ≠ file.path ++ quarantineSuffix clock.1 := by
            rw [hsame]
            exact hdest
          rw [both_corrupt_other hprimary hpath hbak hfirst hdest] at hname
          exact hfirst (honly name hname hpath)
  · rintro (hticked | rfl | ⟨name, hname, hpath, hdest⟩)
    · exact ⟨_, both_corrupt_first hprimary hticked⟩
    · exact ⟨_, both_corrupt_second content⟩
    · by_cases hticked : clock.1 = clock.2
      · by_cases hbak : name = file.path ++ bakSuffix
        · have hsame : content = backup := by
            rw [hbak, hbackup] at hname
            exact (Option.some.inj hname).symm
          rw [hsame]
          exact ⟨_, both_corrupt_second backup⟩
        · refine ⟨name, ?_⟩
          rw [both_corrupt_other hprimary hpath hbak hdest (by rw [← hticked]; exact hdest), hname]
      · exact ⟨_, both_corrupt_first hprimary hticked⟩

/-- Whatever stands in the primary's place at the end, the quarantined primary
is kept when there was no second quarantine. -/
private theorem restored_first {content : Bytes} (hprimary : file.PrimaryCorrupt io fs content)
    (backup : Bytes) :
    file.restored clock.1 fs backup (file.path ++ quarantineSuffix clock.1) = some content := by
  rw [restored, FileSystem.set_other _ _ (quarantined_ne_path clock.1),
    FileSystem.set_other _ _ (quarantined_ne_backup clock.1), quarantine_eq_set hprimary.1,
    FileSystem.set_same]

/-- A collision loses the primary's content. -/
theorem Collides.loses_evidence (hcollides : file.Collides io clock fs) :
    ¬ file.KeepsEvidence io clock fs := by
  obtain ⟨content, backup, hprimary, hbackup, hparse, hsame, hdiffer, honly⟩ := hcollides
  intro hkeeps
  have hholds := hkeeps.primary content hprimary
  rw [recover_both_corrupt hprimary hbackup hparse,
    both_corrupt_holds_primary_iff hprimary hbackup] at hholds
  rcases hholds with hticked | hequal | ⟨name, hname, hpath, hdest⟩
  · exact hticked hsame
  · exact hdiffer hequal
  · exact (honly name hname).elim hpath hdest

/-- **Recovery keeps all evidence unless two quarantines meet in one second.** -/
theorem keepsEvidence_iff_not_collides (file : StateFile ι σ) (io : ι × ι) (clock : Nat × Nat)
    (fs : FileSystem) : file.KeepsEvidence io clock fs ↔ ¬ file.Collides io clock fs := by
  constructor
  · exact fun hkeeps hcollides => hcollides.loses_evidence hkeeps
  · intro hclear
    refine ⟨?_, ?_, ?_⟩
    · intro content hprimary
      cases hbackup : fs (file.path ++ bakSuffix) with
      | none =>
          rw [recover_without_backup hprimary hbackup]
          exact ⟨file.path ++ quarantineSuffix clock.1, by rw [quarantine_eq_set hprimary.1]; simp⟩
      | some backup =>
          cases hparse : file.parse io.2 backup with
          | some loaded =>
              rw [recover_from_backup hprimary hbackup hparse]
              exact ⟨_, restored_first hprimary backup⟩
          | none =>
              rw [recover_both_corrupt hprimary hbackup hparse,
                both_corrupt_holds_primary_iff hprimary hbackup]
              by_contra hlost
              push Not at hlost
              obtain ⟨hsame, hdiffer, honly⟩ := hlost
              refine hclear ⟨content, backup, hprimary, hbackup, hparse, hsame, hdiffer, ?_⟩
              intro name hname
              exact or_iff_not_imp_left.mpr (honly name hname)
    · rintro backup ⟨⟨content, hprimary⟩, hbackup⟩ hparse
      rw [recover_both_corrupt hprimary hbackup hparse]
      exact ⟨_, both_corrupt_second backup⟩
    · rintro backup loaded ⟨⟨content, hprimary⟩, hbackup⟩ hparse
      rw [recover_from_backup hprimary hbackup hparse]

end StateFile

/-! ## The contacts file -/

/-- The contact store's file; the input condition is where a read error
strikes. -/
def contactsFile (s : ContactStore) (hpath : s.path ≠ []) :
    StateFile (Option Nat) ContactStore where
  path := s.path
  store := s
  load := fun badAfter s fs => s.load fs badAfter
  parse := fun badAfter content =>
    match s.load (fun _ => some content) badAfter with
    | (.loaded, loaded) => some loaded
    | _ => none
  load_absent := by
    intro io fs hfile
    rw [ContactStore.load, if_neg hpath, hfile]
  load_unparsed := by
    intro io fs content hfile hparse
    simp only [ContactStore.load, if_neg hpath, hfile] at hparse ⊢
    split at hparse
    · simp at hparse
    · rename_i hother
      split
      · rfl
      · split
        · rfl
        · split
          · rfl
          · simp_all
  load_parsed := by
    intro io fs content loaded hfile hparse
    simp only [ContactStore.load, if_neg hpath, hfile] at hparse ⊢
    split at hparse
    · rename_i hload
      rw [hload, Option.some.inj hparse]
    · simp at hparse

/-- Two unreadable generations of the contacts file, met in one second. -/
def wreckage (path : Bytes) : FileSystem :=
  FileSystem.set (FileSystem.set (fun _ => none) path (some (Text.ascii "wreckage\n")))
    (path ++ bakSuffix) (some (Text.ascii "older wreckage\n"))

/-- The store the daemon loads before anything is known. -/
def emptyContacts : ContactStore := { path := Text.ascii "contacts", maxContacts := 100 }

/-- The second quarantine of a second overwrites the first: the primary's
content is gone. -/
theorem evidence_lost_within_a_second :
    ¬ (contactsFile emptyContacts (by decide)).KeepsEvidence (none, none)
      (1700000000, 1700000000) (wreckage emptyContacts.path) := by
  apply StateFile.Collides.loses_evidence
  refine ⟨Text.ascii "wreckage\n", Text.ascii "older wreckage\n", ⟨?_, ?_⟩, ?_, ?_, rfl, ?_, ?_⟩
  · decide
  · decide
  · decide
  · decide
  · decide
  · intro name hname
    left
    change wreckage emptyContacts.path name = _ at hname
    rw [wreckage, FileSystem.set] at hname
    split at hname
    · exact absurd hname (by decide)
    · by_contra hother
      change name ≠ emptyContacts.path at hother
      rw [FileSystem.set_other _ _ hother] at hname
      exact absurd hname (by simp)

end Coreletd.Daemon
