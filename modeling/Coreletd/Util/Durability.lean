/-
# Saves that may be cut off

The system calls that one `save` makes of a disk, up to the one that fails. What
they leave for a reader is what `saveContent` says. Cut off anywhere, by a failure
or by a loss of power, they leave the path with a version it had before or with
the new one; and once the save has reported success, with the new one only.

A file's content may carry more than its bytes; the calls see the bytes.
-/

import Coreletd.Library.Disk
import Coreletd.Util.Persist

namespace Coreletd

open Coreletd.Library

universe v

variable {β : Type v}

/-- The calls of `keepBackup`. -/
def keepBackupOps (io : DurableIo) (path : Bytes) : List (DiskOp Bytes β) :=
  (if io.unlinkBackup then [.unlink (path ++ bakSuffix)] else []) ++
    if io.linkBackup then [.link path (path ++ bakSuffix)] else []

/-- The calls from the rename on. -/
def installOps (io : DurableIo) (tmpPath path : Bytes) : List (DiskOp Bytes β) :=
  if io.rename then
    .rename tmpPath path ::
      if io.openDirectory && io.syncDirectory then [.syncDirectory] else []
  else []

/-- The calls of `durableReplace`. -/
def durableReplaceOps (io : DurableIo) (tmpPath path : Bytes) (backup : Bool) :
    List (DiskOp Bytes β) :=
  if !io.openTmp || !io.fchmod || !io.syncTmp then []
  else
    .sync tmpPath :: ((if backup then keepBackupOps io path else []) ++ installOps io tmpPath path)

/-- The calls of `saveContent`; `torn` is what a failing stream leaves. -/
def saveOps (io : SaveIo) (path : Bytes) (content torn : β) (backup : Bool) :
    List (DiskOp Bytes β) :=
  if path = [] then []
  else if !io.openStream then []
  else if !io.flush || !io.close then [.write (path ++ tmpSuffix) torn]
  else
    .write (path ++ tmpSuffix) content ::
      durableReplaceOps io.replace (path ++ tmpSuffix) path backup

/-- The bytes that a reader of the disk sees. -/
def fileSystemOf (bytes : β → Bytes) (d : Disk Bytes β) : FileSystem :=
  fun name => (d.live name).map bytes

/-! ## What a reader sees -/

section View

variable (bytes : β → Bytes) (d : Disk Bytes β)

theorem fileSystemOf_update (directory : Bytes → Option (File β)) (name : Bytes)
    (file : Option (File β)) :
    fileSystemOf bytes (d.change (Function.update directory name file)) =
      (fileSystemOf bytes (d.change directory)).set name
        (file.map fun file => bytes file.content) := by
  funext other
  by_cases hname : other = name
  · subst hname
    simp [fileSystemOf, Disk.live, Disk.change, Function.comp_def]
  · simp [fileSystemOf, Disk.live, Disk.change, FileSystem.set, hname]

theorem fileSystemOf_write (name : Bytes) (content : β) :
    fileSystemOf bytes (d.apply (.write name content)) =
      (fileSystemOf bytes d).set name (some (bytes content)) :=
  fileSystemOf_update bytes d d.directory name (some { content })

theorem fileSystemOf_sync (name : Bytes) :
    fileSystemOf bytes (d.apply (.sync name)) = fileSystemOf bytes d := by
  rw [Disk.apply, fileSystemOf_update]
  funext other
  by_cases hname : other = name
  · subst hname
    simp [fileSystemOf, Disk.live, Function.comp_def]
  · rw [FileSystem.set_other _ _ hname]
    rfl

theorem fileSystemOf_unlink (name : Bytes) :
    fileSystemOf bytes (d.apply (.unlink name)) = (fileSystemOf bytes d).set name none :=
  fileSystemOf_update bytes d d.directory name none

theorem fileSystemOf_link (source dest : Bytes) :
    fileSystemOf bytes (d.apply (.link source dest)) =
      if (fileSystemOf bytes d source).isSome ∧ fileSystemOf bytes d dest = none then
        (fileSystemOf bytes d).set dest (fileSystemOf bytes d source)
      else fileSystemOf bytes d := by
  rw [Disk.apply]
  split
  next file hsource hdest =>
    rw [if_pos (by simp [fileSystemOf, Disk.live, hsource, hdest]), fileSystemOf_update]
    simp only [fileSystemOf, Disk.live, hsource]
    rfl
  next hnot =>
    rw [if_neg]
    rintro ⟨hsource, hdest⟩
    simp only [fileSystemOf, Disk.live, Option.isSome_map] at hsource
    simp only [fileSystemOf, Disk.live, Option.map_eq_none_iff] at hdest
    obtain ⟨file, hfile⟩ := Option.isSome_iff_exists.mp hsource
    exact hnot file hfile hdest

theorem fileSystemOf_rename (source dest : Bytes) :
    fileSystemOf bytes (d.apply (.rename source dest)) =
      ((fileSystemOf bytes d).rename source dest).getD (fileSystemOf bytes d) := by
  cases hsource : d.directory source with
  | none => simp [Disk.apply, FileSystem.rename, fileSystemOf, Disk.live, hsource]
  | some file =>
      simp only [Disk.apply, hsource, fileSystemOf_update]
      simp only [FileSystem.rename, fileSystemOf, Disk.live, hsource]
      rfl

theorem fileSystemOf_syncDirectory :
    fileSystemOf bytes (d.apply .syncDirectory) = fileSystemOf bytes d := rfl

/-- What `keepBackup` does is what its calls do. -/
theorem fileSystemOf_keepBackupOps (io : DurableIo) (path : Bytes) :
    fileSystemOf bytes (run Disk.apply d (keepBackupOps io path)) =
      keepBackup io (fileSystemOf bytes d) path := by
  cases hunlink : io.unlinkBackup <;> cases hlink : io.linkBackup <;>
    simp [keepBackupOps, keepBackup, linkBackup, hunlink, hlink, fileSystemOf_unlink,
      fileSystemOf_link]

theorem fileSystemOf_installOps (io : DurableIo) (tmpPath path : Bytes) :
    fileSystemOf bytes (run Disk.apply d (installOps io tmpPath path)) =
      (if io.rename then (fileSystemOf bytes d).rename tmpPath path else none).getD
        (fileSystemOf bytes d) := by
  cases hrename : io.rename with
  | false => simp [installOps, hrename]
  | true =>
      cases hsync : io.openDirectory && io.syncDirectory <;>
        simp [installOps, hrename, hsync, fileSystemOf_rename, fileSystemOf_syncDirectory]

theorem durableReplace_snd (io : DurableIo) (fs : FileSystem) {tmpPath : Bytes} (path : Bytes)
    (backup : Bool) (htmp : (fs tmpPath).isSome = true) :
    (durableReplace io fs tmpPath path backup).2 =
      if !io.openTmp || !io.fchmod || !io.syncTmp then fs
      else
        (if io.rename then (if backup then keepBackup io fs path else fs).rename tmpPath path
          else none).getD (if backup then keepBackup io fs path else fs) := by
  have hisNone : (fs tmpPath).isNone = false := by simpa using htmp
  rw [durableReplace, hisNone, Bool.or_false]
  cases io.openTmp with
  | false => rfl
  | true =>
      cases hprepared : !io.fchmod || !io.syncTmp with
      | true => simp [hprepared]
      | false =>
          simp only [Bool.not_true, Bool.false_or, Bool.false_eq_true, if_false, hprepared]
          split
          next hinstalled => rw [hinstalled]; rfl
          next hinstalled => rw [hinstalled]; rfl

theorem fileSystemOf_durableReplaceOps (io : DurableIo) {tmpPath : Bytes} (path : Bytes)
    (backup : Bool) (htmp : (fileSystemOf bytes d tmpPath).isSome = true) :
    fileSystemOf bytes (run Disk.apply d (durableReplaceOps io tmpPath path backup)) =
      (durableReplace io (fileSystemOf bytes d) tmpPath path backup).2 := by
  rw [durableReplace_snd io _ path backup htmp, durableReplaceOps]
  split
  · rfl
  · rw [run_cons, run_append, fileSystemOf_installOps]
    cases backup with
    | false => simp [fileSystemOf_sync]
    | true => simp [fileSystemOf_sync, fileSystemOf_keepBackupOps]

/-- The calls of a save leave for a reader what `saveContent` does. -/
theorem fileSystemOf_saveOps (io : SaveIo) (path : Bytes) {content torn : β} (backup : Bool)
    (htorn : bytes torn = (bytes content).take io.written) :
    fileSystemOf bytes (run Disk.apply d (saveOps io path content torn backup)) =
      (saveContent io (fileSystemOf bytes d) path (bytes content) backup).2 := by
  rw [saveOps, saveContent]
  split
  · rfl
  · split
    · rfl
    · split
      · rw [run_cons, run_nil, fileSystemOf_write, htorn]
      · rw [run_cons, fileSystemOf_durableReplaceOps bytes _ io.replace path backup
          (by simp [fileSystemOf_write]), fileSystemOf_write]

end View

/-! ## What a loss of power leaves -/

theorem keepBackupOps_other {io : DurableIo} {path name : Bytes} {op : DiskOp Bytes β}
    (hname : name ≠ path ++ bakSuffix) (hop : op ∈ keepBackupOps io path) :
    ¬ Disk.Touches name op := by
  rw [keepBackupOps, List.mem_append] at hop
  rcases hop with hop | hop
  · split at hop
    · obtain rfl := List.mem_singleton.mp hop
      exact hname
    · cases hop
  · split at hop
    · obtain rfl := List.mem_singleton.mp hop
      exact hname
    · cases hop

/-- The calls between the sync of the temporary and its rename. -/
theorem backupOps_other {io : DurableIo} {path name : Bytes} {backup : Bool}
    (hname : name ≠ path ++ bakSuffix) :
    ∀ op ∈ (if backup then keepBackupOps (β := β) io path else []), ¬ Disk.Touches name op := by
  intro op hop
  split at hop
  · exact keepBackupOps_other hname hop
  · cases hop

/-- The temporary as the rename finds it. -/
theorem tmp_ready (d : Disk Bytes β) (io : DurableIo) (path : Bytes) (content : β)
    (backup : Bool) :
    (run Disk.apply ((d.apply (.write (path ++ tmpSuffix) content)).apply
        (.sync (path ++ tmpSuffix)))
      (if backup then keepBackupOps io path else [])).directory (path ++ tmpSuffix) =
        some { content, synced := true } := by
  rw [Disk.run_other _ (backupOps_other (append_injective_right (by decide)))]
  simp [Disk.apply, Disk.change]

theorem installOps_replaces {d : Disk Bytes β} {tmpPath path : Bytes} {content : β}
    (io : DurableIo) (hready : d.directory tmpPath = some { content, synced := true }) :
    Along Disk.apply (Disk.Replaces path content) d (installOps io tmpPath path) := by
  rw [installOps]
  split
  · refine ⟨.inr ⟨tmpPath, rfl, hready⟩, ?_⟩
    split
    · exact ⟨.inl not_false, trivial⟩
    · trivial
  · trivial

/-- No call of a save touches the path, but for the rename of the synced
temporary. -/
theorem saveOps_replaces (d : Disk Bytes β) (io : SaveIo) (path : Bytes) (content torn : β)
    (backup : Bool) :
    Along Disk.apply (Disk.Replaces path content) d (saveOps io path content torn backup) := by
  have htmp : path ≠ path ++ tmpSuffix := (append_ne_self (by decide)).symm
  rw [saveOps]
  split
  · trivial
  · split
    · trivial
    · split
      · exact ⟨.inl htmp, trivial⟩
      · refine ⟨.inl htmp, ?_⟩
        rw [durableReplaceOps]
        split
        · trivial
        · refine ⟨.inl htmp, (along_append _ _ _ _ _).mpr ⟨?_, ?_⟩⟩
          · refine along_of_forall (fun op hop _ => .inl ?_) _
            exact backupOps_other (append_ne_self (by decide)).symm op hop
          · exact installOps_replaces io.replace (tmp_ready d io.replace path content backup)

theorem durableReplace_success {io : DurableIo} {fs : FileSystem} {tmpPath path : Bytes}
    {backup : Bool} (hok : (durableReplace io fs tmpPath path backup).1 = true) :
    (!io.openTmp || !io.fchmod || !io.syncTmp) = false ∧ io.rename = true ∧
      (io.openDirectory && io.syncDirectory) = true := by
  rw [durableReplace] at hok
  split at hok
  · cases hok
  next hopened =>
    split at hok
    · cases hok
    next hprepared =>
      simp only at hok
      split at hok
      · cases hok
      next hinstalled =>
        refine ⟨by simp_all, ?_, hok⟩
        by_contra hrename
        rw [if_neg hrename] at hinstalled
        cases hinstalled

/-- A save that reports success has made all its calls. -/
theorem saveOps_of_success {io : SaveIo} {fs : FileSystem} {path bytes : Bytes} {content torn : β}
    {backup : Bool} (hok : (saveContent io fs path bytes backup).1 = true) :
    saveOps io path content torn backup =
      .write (path ++ tmpSuffix) content :: .sync (path ++ tmpSuffix) ::
        ((if backup then keepBackupOps io.replace path else []) ++
          [.rename (path ++ tmpSuffix) path, .syncDirectory]) := by
  rw [saveContent] at hok
  rw [saveOps]
  split at hok
  · cases hok
  next hpath =>
    rw [if_neg hpath]
    split at hok
    · cases hok
    next hopen =>
      rw [if_neg hopen]
      split at hok
      · cases hok
      next hclosed =>
        obtain ⟨hprepared, hrename, hsync⟩ := durableReplace_success hok
        rw [if_neg hclosed, durableReplaceOps, installOps, hprepared, hrename, hsync]
        rfl

/-- After a save that reported success the path can only hold what was saved. -/
theorem saveOps_installs {io : SaveIo} {fs : FileSystem} {path bytes : Bytes} {content torn : β}
    {backup : Bool} (d : Disk Bytes β) (hok : (saveContent io fs path bytes backup).1 = true) :
    (run Disk.apply d (saveOps io path content torn backup)).Keeps path (· = some content) := by
  have hready := tmp_ready d io.replace path content backup
  rw [saveOps_of_success hok, run_cons, run_cons, run_append]
  generalize run Disk.apply _ (if backup then keepBackupOps io.replace path else []) = d' at *
  exact Disk.keeps_syncDirectory (Disk.apply_rename hready)

end Coreletd
