/-
# Maps kept in the order of their keys

`std::map` as the list of its entries, smallest key first. Assigning under a key
keeps the order, and a map is rebuilt by assigning its entries one after the
other.
-/

import Mathlib.Data.List.Basic
import Mathlib.Data.List.Pairwise

set_option linter.unusedSectionVars false

namespace Coreletd.Library

universe u v

/-- Entries with ascending keys. -/
structure SortedMap (κ : Type u) [LT κ] (ν : Type v) where
  entries : List (κ × ν) := []
  sorted : entries.Pairwise (fun a b => a.1 < b.1) := by exact List.Pairwise.nil

namespace SortedMap

variable {κ : Type u} {ν : Type v} [LT κ]

def empty : SortedMap κ ν := {}

@[simp]
theorem entries_empty : (empty : SortedMap κ ν).entries = [] := rfl

theorem key_eq_of_not_lt [Std.Trichotomous (α := κ) (· < ·)] {a b : κ} (hab : ¬ a < b)
    (hba : ¬ b < a) : a = b :=
  Std.Trichotomous.trichotomous a b hab hba

theorem key_lt_irrefl [Std.Irrefl (α := κ) (· < ·)] (a : κ) : ¬ a < a :=
  Std.Irrefl.irrefl a

variable [DecidableLT κ]

/-- The entries with a value assigned under a key. -/
def assignEntry (key : κ) (value : ν) : List (κ × ν) → List (κ × ν)
  | [] => [(key, value)]
  | entry :: rest =>
      if key < entry.1 then (key, value) :: entry :: rest
      else if entry.1 < key then entry :: assignEntry key value rest
      else (key, value) :: rest

/-- The value of the first entry whose key is neither smaller nor larger. -/
def findEntry (key : κ) : List (κ × ν) → Option ν
  | [] => none
  | entry :: rest =>
      if key < entry.1 ∨ entry.1 < key then findEntry key rest else some entry.2

def find (map : SortedMap κ ν) (key : κ) : Option ν := findEntry key map.entries

theorem mem_assignEntry {key : κ} {value : ν} {entries : List (κ × ν)} {entry : κ × ν}
    (hmem : entry ∈ assignEntry key value entries) : entry = (key, value) ∨ entry ∈ entries := by
  induction entries with
  | nil => exact .inl (List.mem_singleton.mp hmem)
  | cons first rest ih =>
      rw [assignEntry] at hmem
      split at hmem
      · exact List.mem_cons.mp hmem
      · split at hmem
        · rcases List.mem_cons.mp hmem with rfl | hrest
          · exact .inr List.mem_cons_self
          · exact (ih hrest).imp_right (List.mem_cons_of_mem _)
        · exact (List.mem_cons.mp hmem).imp_right (List.mem_cons_of_mem _)

section

variable [Std.Trichotomous (α := κ) (· < ·)]

theorem exists_mem_of_findEntry {key : κ} {value : ν}
    {entries : List (κ × ν)} (hfind : findEntry key entries = some value) :
    (key, value) ∈ entries := by
  induction entries with
  | nil => simp [findEntry] at hfind
  | cons first rest ih =>
      rw [findEntry] at hfind
      split at hfind
      · exact List.mem_cons_of_mem _ (ih hfind)
      next hnot =>
        have hkey : key = first.1 :=
          key_eq_of_not_lt (fun h => hnot (.inl h)) fun h => hnot (.inr h)
        obtain rfl := Option.some.inj hfind
        rw [hkey]
        exact List.mem_cons_self

variable [Trans (α := κ) (β := κ) (γ := κ) (· < ·) (· < ·) (· < ·)]

theorem sorted_assignEntry {key : κ} {value : ν} {entries : List (κ × ν)}
    (hsorted : entries.Pairwise fun a b => a.1 < b.1) :
    (assignEntry key value entries).Pairwise fun a b => a.1 < b.1 := by
  induction entries with
  | nil => exact List.pairwise_singleton _ _
  | cons first rest ih =>
      obtain ⟨hfirst, hrest⟩ := List.pairwise_cons.mp hsorted
      rw [assignEntry]
      split
      next hbefore =>
        refine List.pairwise_cons.mpr ⟨fun other hother => ?_, hsorted⟩
        rcases List.mem_cons.mp hother with rfl | hmem
        · exact hbefore
        · exact Trans.trans hbefore (hfirst other hmem)
      next hbefore =>
        split
        next hafter =>
          refine List.pairwise_cons.mpr ⟨fun other hother => ?_, ih hrest⟩
          rcases mem_assignEntry hother with rfl | hmem
          · exact hafter
          · exact hfirst other hmem
        next hafter =>
          have hkey : key = first.1 := key_eq_of_not_lt hbefore hafter
          exact List.pairwise_cons.mpr ⟨fun other hother => hkey ▸ hfirst other hother, hrest⟩

/-- `map[key] = value`. -/
def assign (map : SortedMap κ ν) (key : κ) (value : ν) : SortedMap κ ν :=
  { entries := assignEntry key value map.entries, sorted := sorted_assignEntry map.sorted }

/-- Assign a list of entries, first to last. -/
def assignAll (map : SortedMap κ ν) (entries : List (κ × ν)) : SortedMap κ ν :=
  entries.foldl (fun map entry => map.assign entry.1 entry.2) map

variable [Std.Irrefl (α := κ) (· < ·)]

theorem findEntry_assignEntry_self (key : κ) (value : ν) (entries : List (κ × ν)) :
    findEntry key (assignEntry key value entries) = some value := by
  have hself : ¬ (key < key ∨ key < key) := fun h => key_lt_irrefl key (h.elim id id)
  induction entries with
  | nil =>
      rw [assignEntry, findEntry]
      exact if_neg hself
  | cons first rest ih =>
      rw [assignEntry]
      split
      · rw [findEntry]
        exact if_neg hself
      · split
        next hafter =>
          rw [findEntry, if_pos (.inr hafter)]
          exact ih
        next =>
          rw [findEntry]
          exact if_neg hself

theorem findEntry_assignEntry_of_ne {key other : κ} (hne : other ≠ key) (value : ν)
    (entries : List (κ × ν)) :
    findEntry other (assignEntry key value entries) = findEntry other entries := by
  have hapart : other < key ∨ key < other := by
    by_contra hnot
    exact hne (key_eq_of_not_lt (fun h => hnot (.inl h)) fun h => hnot (.inr h))
  induction entries with
  | nil =>
      rw [assignEntry, findEntry]
      exact if_pos hapart
  | cons first rest ih =>
      rw [assignEntry]
      split
      · rw [findEntry]
        exact if_pos hapart
      · split
        · rw [findEntry, findEntry, ih]
        next hbefore hafter =>
          have hkey : key = first.1 := key_eq_of_not_lt hbefore hafter
          have hfirst : other < first.1 ∨ first.1 < other := hkey ▸ hapart
          rw [findEntry, findEntry, if_pos hfirst]
          exact if_pos hapart

@[simp]
theorem find_assign_self (map : SortedMap κ ν) (key : κ) (value : ν) :
    (map.assign key value).find key = some value :=
  findEntry_assignEntry_self key value map.entries

theorem find_assign_of_ne (map : SortedMap κ ν) {key other : κ} (hne : other ≠ key)
    (value : ν) : (map.assign key value).find other = map.find other :=
  findEntry_assignEntry_of_ne hne value map.entries

theorem find_of_mem {map : SortedMap κ ν} {entry : κ × ν} (hmem : entry ∈ map.entries) :
    map.find entry.1 = some entry.2 := by
  obtain ⟨entries, hsorted⟩ := map
  rw [find]
  dsimp only at hmem ⊢
  induction entries with
  | nil => exact absurd hmem List.not_mem_nil
  | cons first rest ih =>
      obtain ⟨hfirst, hrest⟩ := List.pairwise_cons.mp hsorted
      rw [findEntry]
      rcases List.mem_cons.mp hmem with rfl | hlater
      · rw [if_neg (fun h => key_lt_irrefl _ (h.elim id id))]
      · rw [if_pos (.inr (hfirst entry hlater))]
        exact ih hrest hlater

/-- The entries are those that are found. -/
theorem keys_nodup (map : SortedMap κ ν) : (map.entries.map (·.1)).Nodup := by
  refine List.Pairwise.map _ (fun a b hless hequal => ?_) map.sorted
  rw [hequal] at hless
  exact key_lt_irrefl _ hless

theorem mem_entries_iff {map : SortedMap κ ν} {key : κ} {value : ν} :
    (key, value) ∈ map.entries ↔ map.find key = some value :=
  ⟨fun hmem => find_of_mem hmem, exists_mem_of_findEntry⟩

theorem assignEntry_of_last {key : κ} {value : ν} {entries : List (κ × ν)}
    (hlast : ∀ entry ∈ entries, entry.1 < key) :
    assignEntry key value entries = entries ++ [(key, value)] := by
  induction entries with
  | nil => rfl
  | cons first rest ih =>
      have hfirst := hlast first List.mem_cons_self
      have hnot : ¬ key < first.1 := fun h => key_lt_irrefl _ (Trans.trans h hfirst)
      rw [assignEntry, if_neg hnot, if_pos hfirst, List.cons_append,
        ih fun entry hentry => hlast entry (List.mem_cons_of_mem _ hentry)]

theorem entries_assignAll {map : SortedMap κ ν} {entries : List (κ × ν)}
    (hsorted : (map.entries ++ entries).Pairwise fun a b => a.1 < b.1) :
    (map.assignAll entries).entries = map.entries ++ entries := by
  induction entries generalizing map with
  | nil => simp [assignAll]
  | cons first rest ih =>
      have hlast : ∀ entry ∈ map.entries, entry.1 < first.1 := fun entry hentry =>
        (List.pairwise_append.mp hsorted).2.2 entry hentry first List.mem_cons_self
      have hentries : (map.assign first.1 first.2).entries = map.entries ++ [first] :=
        assignEntry_of_last hlast
      have hrest := @ih (map.assign first.1 first.2)
        (by rw [hentries, List.append_assoc]; exact hsorted)
      rw [assignAll, List.foldl_cons]
      rw [assignAll, hentries, List.append_assoc] at hrest
      exact hrest

/-- Assigning its entries to nothing rebuilds a map. -/
theorem assignAll_entries (map : SortedMap κ ν) :
    (({} : SortedMap κ ν).assignAll map.entries) = map := by
  have hentries : (({} : SortedMap κ ν).assignAll map.entries).entries = map.entries :=
    entries_assignAll map.sorted
  obtain ⟨entries, hsorted⟩ := map
  generalize ({} : SortedMap κ ν).assignAll entries = built at hentries ⊢
  obtain ⟨entries', hsorted'⟩ := built
  obtain rfl : entries' = entries := hentries
  rfl

end

end SortedMap

end Coreletd.Library
