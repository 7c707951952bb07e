/-
# A directory behind a cache

What is written is seen at once and is on the medium only later. A file's content
is safe once the file is synced, its name once the directory is. After a loss of
power each name is what it was at some moment since the directory's last sync, and
a file that was not synced may hold anything.

The rule at the end is the one for replacing a file: a name that is only ever
renamed onto, and only from synced files, holds nothing else after a loss of
power.
-/

import Coreletd.Library.Runs
import Mathlib.Logic.Function.Basic

namespace Coreletd.Library

universe u v

/-- A file's content, and whether it has been synced since it was written. -/
structure File (β : Type v) where
  content : β
  synced : Bool := false

structure Disk (ν : Type u) (β : Type v) where
  directory : ν → Option (File β)
  /-- The directory before each of the changes since its last sync. -/
  past : List (ν → Option (File β)) := []

/-- What can be asked of a disk, as far as it succeeds. -/
inductive DiskOp (ν : Type u) (β : Type v) where
  | write (name : ν) (content : β)
  | sync (name : ν)
  | unlink (name : ν)
  | link (source dest : ν)
  | rename (source dest : ν)
  | syncDirectory

namespace Disk

variable {ν : Type u} {β : Type v}

/-- What a reader sees. -/
def live (d : Disk ν β) (name : ν) : Option β := (d.directory name).map File.content

/-- The directory at every moment since its last sync. -/
def history (d : Disk ν β) : List (ν → Option (File β)) := d.directory :: d.past

def change (d : Disk ν β) (directory : ν → Option (File β)) : Disk ν β :=
  { directory, past := d.history }

/-- What a loss of power may leave of a file. -/
inductive Recovers : Option (File β) → Option β → Prop
  | absent : Recovers none none
  | intact (file : File β) : Recovers (some file) (some file.content)
  | torn (file : File β) (content : β) (hsynced : file.synced = false) :
      Recovers (some file) (some content)

/-- What a loss of power may leave of the directory. -/
def Leaves (d : Disk ν β) (found : ν → Option β) : Prop :=
  ∀ name, ∃ directory ∈ d.history, Recovers (directory name) (found name)

/-- The disk that is found when power is back. -/
def ofFound (found : ν → Option β) : Disk ν β where
  directory name := (found name).map fun content => { content, synced := true }

/-- Every moment since the last sync has the name with a safe content, or without
one, and as `P` says. -/
def Keeps (d : Disk ν β) (name : ν) (P : Option β → Prop) : Prop :=
  ∀ directory ∈ d.history,
    (∀ file, directory name = some file → file.synced = true) ∧
      P ((directory name).map File.content)

/-- Power may come back to all that a reader saw. -/
theorem leaves_live (d : Disk ν β) : d.Leaves d.live := by
  intro name
  refine ⟨d.directory, List.mem_cons_self, ?_⟩
  rw [live]
  cases d.directory name with
  | none => exact .absent
  | some file => exact .intact file

section Keeps

variable {d : Disk ν β} {name : ν} {P Q : Option β → Prop}

theorem Keeps.mono (hkeeps : d.Keeps name P) (himp : ∀ content, P content → Q content) :
    d.Keeps name Q :=
  fun directory hdirectory =>
    ⟨(hkeeps directory hdirectory).1, himp _ (hkeeps directory hdirectory).2⟩

theorem Keeps.live (hkeeps : d.Keeps name P) : P (d.live name) :=
  (hkeeps d.directory List.mem_cons_self).2

/-- A loss of power does not break what is kept. -/
theorem Keeps.found {found : ν → Option β} (hkeeps : d.Keeps name P) (hleaves : d.Leaves found) :
    P (found name) := by
  obtain ⟨directory, hdirectory, hrecovers⟩ := hleaves name
  obtain ⟨hsynced, hholds⟩ := hkeeps directory hdirectory
  generalize hfile : directory name = file, hcontent : found name = content at *
  cases hrecovers with
  | absent => exact hholds
  | intact file => exact hholds
  | torn file content htorn =>
      rw [hsynced file rfl] at htorn
      cases htorn

theorem Keeps.ofFound {found : ν → Option β} (hfound : P (found name)) :
    (ofFound found).Keeps name P := by
  intro directory hdirectory
  obtain rfl := List.mem_singleton.mp hdirectory
  refine ⟨fun file hfile => ?_, ?_⟩
  · obtain ⟨content, -, rfl⟩ := Option.map_eq_some_iff.mp hfile
    rfl
  · simpa [Disk.ofFound, Function.comp_def] using hfound

end Keeps

variable [DecidableEq ν]

def apply (d : Disk ν β) : DiskOp ν β → Disk ν β
  | .write name content => d.change (Function.update d.directory name (some { content }))
  | .sync name =>
      d.change (Function.update d.directory name
        ((d.directory name).map fun file => { file with synced := true }))
  | .unlink name => d.change (Function.update d.directory name none)
  | .link source dest =>
      match d.directory source, d.directory dest with
      | some file, none => d.change (Function.update d.directory dest (some file))
      | _, _ => d
  | .rename source dest =>
      match d.directory source with
      | some file =>
          d.change (Function.update (Function.update d.directory source none) dest (some file))
      | none => d
  | .syncDirectory => { d with past := [] }

/-- The operation may change what the name stands for. -/
def Touches (name : ν) : DiskOp ν β → Prop
  | .write other _ => name = other
  | .sync other => name = other
  | .unlink other => name = other
  | .link _ dest => name = dest
  | .rename source dest => name = source ∨ name = dest
  | .syncDirectory => False

theorem apply_other (d : Disk ν β) {op : DiskOp ν β} {name : ν} (huntouched : ¬ Touches name op) :
    (d.apply op).directory name = d.directory name := by
  cases op with
  | write other content => exact Function.update_of_ne huntouched _ _
  | sync other => exact Function.update_of_ne huntouched _ _
  | unlink other => exact Function.update_of_ne huntouched _ _
  | link source dest =>
      rw [apply]
      split
      · exact Function.update_of_ne huntouched _ _
      · rfl
  | rename source dest =>
      obtain ⟨hsource, hdest⟩ := not_or.mp huntouched
      rw [apply]
      split
      · simp only [change]
        rw [Function.update_of_ne hdest, Function.update_of_ne hsource]
      · rfl
  | syncDirectory => rfl

theorem run_other (d : Disk ν β) {ops : List (DiskOp ν β)} {name : ν}
    (huntouched : ∀ op ∈ ops, ¬ Touches name op) :
    (run apply d ops).directory name = d.directory name := by
  induction ops generalizing d with
  | nil => rfl
  | cons op ops ih =>
      rw [run_cons, ih _ fun other hother => huntouched other (List.mem_cons_of_mem _ hother),
        apply_other d (huntouched op List.mem_cons_self)]

/-- An operation adds at most the directory it leaves to the history. -/
theorem mem_history_apply {d : Disk ν β} {op : DiskOp ν β} {directory : ν → Option (File β)}
    (hdirectory : directory ∈ (d.apply op).history) :
    directory = (d.apply op).directory ∨ directory ∈ d.history := by
  cases op with
  | write name content => exact List.mem_cons.mp hdirectory
  | sync name => exact List.mem_cons.mp hdirectory
  | unlink name => exact List.mem_cons.mp hdirectory
  | link source dest =>
      rw [apply] at hdirectory ⊢
      split at hdirectory
      · exact List.mem_cons.mp hdirectory
      · exact .inr hdirectory
  | rename source dest =>
      rw [apply] at hdirectory ⊢
      split at hdirectory
      · exact List.mem_cons.mp hdirectory
      · exact .inr hdirectory
  | syncDirectory => exact .inl (List.mem_singleton.mp hdirectory)

/-- The operation leaves the name alone, or puts there a synced file with this
content. -/
def Replaces (name : ν) (content : β) (d : Disk ν β) (op : DiskOp ν β) : Prop :=
  ¬ Touches name op ∨
    ∃ source, op = .rename source name ∧ d.directory source = some { content, synced := true }

theorem apply_rename {d : Disk ν β} {source dest : ν} {file : File β}
    (hsource : d.directory source = some file) :
    (d.apply (.rename source dest)).directory dest = some file := by
  simp [apply, hsource, change]

section Replacement

variable {d : Disk ν β} {name : ν} {content : β} {P : Option β → Prop}

theorem Keeps.apply {op : DiskOp ν β} (hkeeps : d.Keeps name P) (hcontent : P (some content))
    (hop : Replaces name content d op) : (d.apply op).Keeps name P := by
  intro directory hdirectory
  rcases mem_history_apply hdirectory with rfl | hbefore
  · rcases hop with huntouched | ⟨source, rfl, hsource⟩
    · rw [apply_other d huntouched]
      exact hkeeps d.directory List.mem_cons_self
    · rw [apply_rename hsource]
      refine ⟨fun file hfile => ?_, hcontent⟩
      obtain rfl := Option.some.inj hfile
      rfl
  · exact hkeeps directory hbefore

/-- A name that is only renamed onto, from synced files, keeps what it kept. -/
theorem Keeps.run {ops : List (DiskOp ν β)} (hkeeps : d.Keeps name P)
    (hcontent : P (some content)) (hops : Along Disk.apply (Replaces name content) d ops) :
    (Library.run Disk.apply d ops).Keeps name P := by
  have hstep : ∀ (d : Disk ν β) (op : DiskOp ν β), d.Keeps name P → Replaces name content d op →
      (d.apply op).Keeps name P :=
    fun d op hbefore hop => hbefore.apply hcontent hop
  exact Along.invariant hstep hkeeps hops

/-- Once the directory is synced there is only what a reader sees. -/
theorem keeps_syncDirectory (hname : d.directory name = some { content, synced := true }) :
    (d.apply .syncDirectory).Keeps name (· = some content) := by
  intro directory hdirectory
  obtain rfl := List.mem_singleton.mp hdirectory
  have hafter : (d.apply .syncDirectory).directory name = some { content, synced := true } := hname
  rw [hafter]
  refine ⟨fun file hfile => ?_, rfl⟩
  obtain rfl := Option.some.inj hfile
  rfl

end Replacement

end Disk

end Coreletd.Library
