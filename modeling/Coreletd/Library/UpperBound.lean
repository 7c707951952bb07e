/-
# Insertion at the upper bound

`std::upper_bound` is a binary search: it halves a window and asks of the middle
element whether the value goes before it. On a list where the answers are all
"no" and then all "yes" it finds the border, and inserting there keeps a list
sorted. On any other list it finds some position, and inserting only permutes.
-/

import Mathlib.Data.List.Basic
import Mathlib.Data.List.Perm.Basic

namespace Coreletd.Library

universe u

variable {α : Type u}

/-- The search over a window that starts at `first` and has `len` elements;
`before` says whether the value goes before an element. -/
def upperBoundFrom (before : α → Bool) (xs : List α) : Nat → Nat → Nat → Nat
  | 0, first, _ => first
  | fuel + 1, first, len =>
      if len = 0 then first
      else
        match xs[first + len / 2]? with
        | none => first
        | some middle =>
            if before middle then upperBoundFrom before xs fuel first (len / 2)
            else upperBoundFrom before xs fuel (first + len / 2 + 1) (len - len / 2 - 1)

/-- The position `std::upper_bound` returns. -/
def upperBound (before : α → Bool) (xs : List α) : Nat :=
  upperBoundFrom before xs xs.length 0 xs.length

/-- `insert` at that position. -/
def insertAtUpperBound (before : α → Bool) (x : α) (xs : List α) : List α :=
  xs.take (upperBound before xs) ++ x :: xs.drop (upperBound before xs)

theorem insertAtUpperBound_perm (before : α → Bool) (x : α) (xs : List α) :
    (insertAtUpperBound before x xs).Perm (x :: xs) := by
  rw [insertAtUpperBound]
  refine List.perm_middle.trans ?_
  rw [List.take_append_drop]

theorem mem_insertAtUpperBound {before : α → Bool} {x y : α} {xs : List α} :
    y ∈ insertAtUpperBound before x xs ↔ y = x ∨ y ∈ xs := by
  rw [(insertAtUpperBound_perm before x xs).mem_iff, List.mem_cons]

/-- Everything left of the window answers no, everything right of it yes. -/
structure Bracketed (before : α → Bool) (xs : List α) (first len : Nat) : Prop where
  within : first + len ≤ xs.length
  left : ∀ i x, i < first → xs[i]? = some x → before x = false
  right : ∀ i x, first + len ≤ i → xs[i]? = some x → before x = true

/-- On a partitioned list each turn keeps the border inside the window. -/
theorem upperBoundFrom_spec {before : α → Bool} {xs : List α}
    (hmono : ∀ (i j : Nat) x y, i ≤ j → xs[i]? = some x → xs[j]? = some y → before x = true →
      before y = true) :
    ∀ {fuel first len : Nat}, len ≤ fuel → Bracketed before xs first len →
      Bracketed before xs (upperBoundFrom before xs fuel first len) 0 := by
  intro fuel
  induction fuel with
  | zero =>
      intro first len hfuel hwindow
      obtain rfl : len = 0 := by omega
      exact hwindow
  | succ fuel ih =>
      intro first len hfuel hwindow
      rw [upperBoundFrom]
      split
      · rename_i hempty
        subst hempty
        exact hwindow
      · rename_i hnonempty
        have hhalf : len / 2 < len := Nat.div_lt_self (by omega) (by omega)
        have hmiddle : first + len / 2 < xs.length := by
          have hwithin := hwindow.within
          omega
        rw [List.getElem?_eq_getElem hmiddle]
        simp only
        have hget := List.getElem?_eq_getElem hmiddle
        split
        · rename_i hyes
          refine ih (by omega) ⟨by omega, hwindow.left, fun i x hi hx => ?_⟩
          exact hmono (first + len / 2) i _ x hi hget hx hyes
        · rename_i hno
          have hwithin := hwindow.within
          refine ih (by omega) ⟨by omega, fun i x hi hx => ?_, fun i x hi hx => ?_⟩
          · by_contra hbefore
            have hyes : before x = true := by simpa using hbefore
            exact hno (hmono i (first + len / 2) x _ (by omega) hx hget hyes)
          · exact hwindow.right i x (by omega) hx

/-- Inserting at the upper bound keeps a sorted list sorted. `lt` orders the
list, `before` is the comparison of the new element made by the search. -/
theorem pairwise_insertAtUpperBound {lt : α → α → Prop} {before : α → Bool} {x : α}
    {xs : List α} (hsorted : xs.Pairwise lt)
    (hbefore : ∀ y ∈ xs, before y = true → lt x y)
    (hafter : ∀ y ∈ xs, before y = false → lt y x)
    (hmono : ∀ y ∈ xs, ∀ z ∈ xs, lt y z → before y = true → before z = true) :
    (insertAtUpperBound before x xs).Pairwise lt := by
  have hpartition : ∀ (i j : Nat) y z, i ≤ j → xs[i]? = some y → xs[j]? = some z → before y = true →
      before z = true := by
    intro i j y z hij hy hz hyes
    obtain ⟨hi, rfl⟩ := List.getElem?_eq_some_iff.mp hy
    obtain ⟨hj, rfl⟩ := List.getElem?_eq_some_iff.mp hz
    rcases Nat.eq_or_lt_of_le hij with rfl | hlt
    · exact hyes
    · exact hmono _ (List.getElem_mem hi) _ (List.getElem_mem hj)
        (List.pairwise_iff_getElem.mp hsorted i j hi hj hlt) hyes
  have hborder : Bracketed before xs (upperBound before xs) 0 :=
    upperBoundFrom_spec hpartition (Nat.le_refl _)
      ⟨by omega, fun i y hi => by omega, fun i y hi hy => by
        rw [List.getElem?_eq_none (by omega)] at hy
        simp at hy⟩
  have hleft : ∀ y ∈ xs.take (upperBound before xs), before y = false := by
    intro y hy
    obtain ⟨i, hi⟩ := List.mem_iff_getElem?.mp hy
    rw [List.getElem?_take] at hi
    split at hi
    · rename_i hlt
      exact hborder.left i y hlt hi
    · simp at hi
  have hright : ∀ y ∈ xs.drop (upperBound before xs), before y = true := by
    intro y hy
    obtain ⟨i, hi⟩ := List.mem_iff_getElem?.mp hy
    rw [List.getElem?_drop] at hi
    exact hborder.right _ y (by omega) hi
  rw [insertAtUpperBound, List.pairwise_append]
  refine ⟨hsorted.sublist (List.take_sublist _ _), List.pairwise_cons.mpr ⟨?_, ?_⟩, ?_⟩
  · exact fun y hy => hbefore y (List.mem_of_mem_drop hy) (hright y hy)
  · exact hsorted.sublist (List.drop_sublist _ _)
  · intro y hy z hz
    rcases List.mem_cons.mp hz with rfl | hz
    · exact hafter y (List.mem_of_mem_take hy) (hleft y hy)
    · have hsplit := hsorted
      rw [← List.take_append_drop (upperBound before xs) xs, List.pairwise_append] at hsplit
      exact hsplit.2.2 y hy z hz

end Coreletd.Library
