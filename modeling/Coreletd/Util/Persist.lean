/-
# State files on disk

A directory is a map from names to contents, with POSIX `rename`: the
destination is replaced and the source disappears. `durable_replace` and the
stores' `save` run against a script that says which of their system calls
succeed, so that a failure at any step can be looked at.
-/

import Coreletd.Library.Calendar
import Coreletd.Util.Bytes

namespace Coreletd

open Coreletd.Library

/-- The files of a directory by name. -/
abbrev FileSystem : Type := Bytes → Option Bytes

namespace FileSystem

def set (fs : FileSystem) (name : Bytes) (content : Option Bytes) : FileSystem :=
  fun other => if other = name then content else fs other

@[simp]
theorem set_same (fs : FileSystem) (name : Bytes) (content : Option Bytes) :
    fs.set name content name = content := by
  simp [set]

theorem set_other (fs : FileSystem) {name other : Bytes} (content : Option Bytes)
    (hne : other ≠ name) : fs.set name content other = fs other := by
  simp [set, hne]

/-- POSIX `rename`, failing only when the source is absent. -/
def rename (fs : FileSystem) (source dest : Bytes) : Option FileSystem :=
  match fs source with
  | none => none
  | some content => some ((fs.set source none).set dest (some content))

theorem rename_other {fs fs' : FileSystem} {source dest name : Bytes}
    (hrename : fs.rename source dest = some fs') (hsource : name ≠ source) (hdest : name ≠ dest) :
    fs' name = fs name := by
  rw [rename] at hrename
  split at hrename
  · cases hrename
  · obtain rfl := Option.some.inj hrename
    rw [set_other _ _ hdest, set_other _ _ hsource]

/-- Some file of the directory holds `content`. -/
def Holds (fs : FileSystem) (content : Bytes) : Prop := ∃ name, fs name = some content

end FileSystem

def bakSuffix : Bytes := Text.ascii ".bak"
def tmpSuffix : Bytes := Text.ascii ".tmp"
def corruptSuffix : Bytes := Text.ascii ".corrupt-"

/-- Which system calls of one `durable_replace` succeed. -/
structure DurableIo where
  openTmp : Bool := true
  fchmod : Bool := true
  syncTmp : Bool := true
  unlinkBackup : Bool := true
  linkBackup : Bool := true
  rename : Bool := true
  openDirectory : Bool := true
  syncDirectory : Bool := true

/-- `link(path, backup)`, which wants the file there and the name free. -/
def linkBackup (io : DurableIo) (fs : FileSystem) (path backup : Bytes) : FileSystem :=
  if io.linkBackup ∧ (fs path).isSome ∧ fs backup = none then fs.set backup (fs path) else fs

/-- Keep the file being replaced as `path.bak`: unlink, then hard-link. Neither
failure stops the save. -/
def keepBackup (io : DurableIo) (fs : FileSystem) (path : Bytes) : FileSystem :=
  let backup := path ++ bakSuffix
  linkBackup io (if io.unlinkBackup then fs.set backup none else fs) path backup

/-- Sync the temporary, keep the backup, rename it into place, sync the
directory. A failure after the rename is still reported as one. -/
def durableReplace (io : DurableIo) (fs : FileSystem) (tmpPath path : Bytes)
    (backup : Bool := false) : Bool × FileSystem :=
  if !io.openTmp || (fs tmpPath).isNone then (false, fs)
  else if !io.fchmod || !io.syncTmp then (false, fs)
  else
    let fs := if backup then keepBackup io fs path else fs
    match if io.rename then fs.rename tmpPath path else none with
    | none => (false, fs)
    | some fs => (io.openDirectory && io.syncDirectory, fs)

theorem keepBackup_other (io : DurableIo) (fs : FileSystem) {path name : Bytes}
    (hname : name ≠ path ++ bakSuffix) : keepBackup io fs path name = fs name := by
  rw [keepBackup, linkBackup]
  split <;> split <;> simp [FileSystem.set_other, hname]

theorem append_injective_right {path first second : Bytes} (hne : first ≠ second) :
    path ++ first ≠ path ++ second :=
  fun hequal => hne (List.append_cancel_left hequal)

theorem append_ne_self {path suffix : Bytes} (hne : suffix ≠ []) : path ++ suffix ≠ path :=
  fun hequal => hne (List.append_right_eq_self.mp hequal)

/-- A replacement that reports success has put the temporary's content at
`path`. -/
theorem durableReplace_installs {io : DurableIo} {fs fs' : FileSystem} {path content : Bytes}
    {backup : Bool} (htmp : fs (path ++ tmpSuffix) = some content)
    (hok : durableReplace io fs (path ++ tmpSuffix) path backup = (true, fs')) :
    fs' path = some content := by
  have hkept : (if backup then keepBackup io fs path else fs) (path ++ tmpSuffix) =
      some content := by
    split
    · rw [keepBackup_other io fs (append_injective_right (by decide)), htmp]
    · exact htmp
  rw [durableReplace] at hok
  split at hok
  · simp at hok
  · split at hok
    · simp at hok
    · simp only at hok
      split at hok
      · simp at hok
      · rename_i hrename
        obtain ⟨-, rfl⟩ := Prod.mk.inj hok
        split at hrename
        · rw [FileSystem.rename, hkept] at hrename
          obtain rfl := Option.some.inj hrename
          simp
        · simp at hrename

/-- How far one `save` of a store gets before its `durable_replace`. -/
structure SaveIo where
  openStream : Bool := true
  flush : Bool := true
  close : Bool := true
  /-- How much of the content a failing stream left in the temporary. -/
  written : Nat := 0
  replace : DurableIo := {}

/-- The common shape of the stores' `save`: stream the content to `path.tmp` and
install it. -/
def saveContent (io : SaveIo) (fs : FileSystem) (path content : Bytes) (backup : Bool) :
    Bool × FileSystem :=
  if path = [] then (false, fs)
  else if !io.openStream then (false, fs)
  else if !io.flush || !io.close then
    (false, fs.set (path ++ tmpSuffix) (some (content.take io.written)))
  else
    durableReplace io.replace (fs.set (path ++ tmpSuffix) (some content))
      (path ++ tmpSuffix) path backup

/-- A save that reports success has installed exactly the streamed content. -/
theorem saveContent_installs {io : SaveIo} {fs fs' : FileSystem} {path content : Bytes}
    {backup : Bool} (hok : saveContent io fs path content backup = (true, fs')) :
    fs' path = some content := by
  rw [saveContent] at hok
  split at hok
  · simp at hok
  · split at hok
    · simp at hok
    · split at hok
      · simp at hok
      · exact durableReplace_installs (by simp) hok

/-- With every system call succeeding a save succeeds. -/
theorem saveContent_succeeds (fs : FileSystem) {path : Bytes} (hpath : path ≠ [])
    (content : Bytes) (backup : Bool) : (saveContent {} fs path content backup).1 = true := by
  have htmp : ∀ fs' : FileSystem, fs' (path ++ tmpSuffix) = some content →
      (if backup then keepBackup {} fs' path else fs') (path ++ tmpSuffix) = some content := by
    intro fs' hcontent
    split
    · rw [keepBackup_other {} fs' (append_injective_right (by decide)), hcontent]
    · exact hcontent
  have hkept := htmp (fs.set (path ++ tmpSuffix) (some content)) (by simp)
  simp only [saveContent, if_neg hpath, durableReplace, FileSystem.rename]
  simp [hkept]

/-- A save touches the names that begin with its path, and no others. -/
theorem saveContent_other (io : SaveIo) (fs : FileSystem) {path name : Bytes}
    (hname : ¬ path <+: name) (content : Bytes) (backup : Bool) :
    (saveContent io fs path content backup).2 name = fs name := by
  have hsuffixed : ∀ suffix : Bytes, name ≠ path ++ suffix := fun suffix hequal =>
    hname (hequal ▸ List.prefix_append path suffix)
  have hpath : name ≠ path := fun hequal => hname (hequal ▸ List.prefix_rfl)
  have hstreamed : ∀ written : Bytes, fs.set (path ++ tmpSuffix) (some written) name = fs name :=
    fun written => FileSystem.set_other _ _ (hsuffixed tmpSuffix)
  rw [saveContent]
  split
  · rfl
  · split
    · rfl
    · split
      · exact hstreamed _
      · rw [durableReplace]
        split
        · exact hstreamed _
        · split
          · exact hstreamed _
          · have hkept : ∀ fs' : FileSystem, fs' name = fs name →
                (if backup then keepBackup io.replace fs' path else fs') name = fs name := by
              intro fs' hfs'
              split
              · rw [keepBackup_other io.replace fs' (hsuffixed bakSuffix), hfs']
              · exact hfs'
            have hready := hkept _ (hstreamed content)
            generalize (if backup then keepBackup io.replace _ path else _) = ready at hready ⊢
            dsimp only
            split
            · exact hready
            next installed hinstalled =>
              split at hinstalled
              · exact (FileSystem.rename_other hinstalled (hsuffixed tmpSuffix) hpath).trans hready
              · cases hinstalled

/-! ## Quarantine -/

/-- `.corrupt-%Y%m%d-%H%M%S` of a wall-clock reading in seconds. The buffer in
the source holds every year below 10^11. -/
def quarantineSuffix (now : Nat) : Bytes :=
  corruptSuffix ++ Calendar.stamp (Calendar.gmtime now)

/-- Rename an unparsable file out of the way; nothing happens when it is not
there. -/
def quarantine (fs : FileSystem) (path : Bytes) (now : Nat) : FileSystem :=
  match fs.rename path (path ++ quarantineSuffix now) with
  | some fs => fs
  | none => fs

theorem quarantine_other (fs : FileSystem) {path name : Bytes} (hname : ¬ path <+: name)
    (now : Nat) : quarantine fs path now name = fs name := by
  rw [quarantine]
  cases hrename : fs.rename path (path ++ quarantineSuffix now) with
  | none => rfl
  | some moved =>
      exact FileSystem.rename_other hrename (fun hequal => hname (hequal ▸ List.prefix_rfl))
        fun hequal => hname (hequal ▸ List.prefix_append path _)

theorem quarantineSuffix_injective : Function.Injective quarantineSuffix :=
  fun _ _ hequal => Calendar.stamp_gmtime_injective (List.append_cancel_left hequal)

theorem quarantineSuffix_ne_nil (now : Nat) : quarantineSuffix now ≠ [] := by
  intro hnil
  have hfront := congrArg (List.take 1) hnil
  rw [quarantineSuffix, List.take_append_of_le_length (by decide)] at hfront
  exact absurd hfront (by decide)

theorem quarantineSuffix_ne_bak (now : Nat) : quarantineSuffix now ≠ bakSuffix := by
  intro hequal
  have hfront := congrArg (List.take 2) hequal
  rw [quarantineSuffix, List.take_append_of_le_length (by decide)] at hfront
  exact absurd hfront (by decide)

end Coreletd
