/-
# The newest wins

A register that takes what is offered only when it is stamped later than what it holds.
Whatever the order of the offers and however often each is made, it ends with the one
stamped last, or with what it held when none is later. Offers are a set here, so that
nothing about their order can be said.
-/

import Mathlib.Data.Set.Function
import Mathlib.Order.Basic

namespace Coreletd.Library

universe u v

variable {β : Type u} {τ : Type v} [LinearOrder τ] (stamp : β → τ)

/-- What the register holds after one offer. -/
def adopt (held : Option β) (offered : β) : Option β :=
  match held with
  | none => some offered
  | some current => if stamp offered ≤ stamp current then some current else some offered

/-- The last-stamped of what was held and what was offered; what was held stays when
nothing is later. -/
inductive Newest (held : Option β) (offers : Set β) : Option β → Prop
  | kept (hlate : ∀ offered ∈ offers, ∃ current, held = some current ∧
    stamp offered ≤ stamp current) :
      Newest held offers held
  | taken {winner : β} (hmem : winner ∈ offers)
      (hlater : ∀ current, held = some current → stamp current < stamp winner)
      (hlast : ∀ offered ∈ offers, stamp offered ≤ stamp winner) :
      Newest held offers (some winner)

namespace Newest

variable {stamp} {held result : Option β} {offers : Set β}

theorem of_no_offers (held : Option β) : Newest stamp held ∅ held :=
  .kept fun _ hoffered => absurd hoffered (Set.notMem_empty _)

/-- One more offer: the register still holds the newest. -/
theorem adopt (hresult : Newest stamp held offers result) (offered : β) :
    Newest stamp held (insert offered offers) (Library.adopt stamp result offered) := by
  cases hresult with
  | kept hlate =>
    cases held with
    | none =>
      refine .taken (Set.mem_insert _ _) (by simp) ?_
      rintro other (rfl | hother)
      · exact le_rfl
      · obtain ⟨current, hcurrent, -⟩ := hlate other hother
        cases hcurrent
    | some current =>
      rw [Library.adopt]
      split
      next hle =>
        refine .kept ?_
        rintro other (rfl | hother)
        · exact ⟨current, rfl, hle⟩
        · exact hlate other hother
      next hlt =>
        refine .taken (Set.mem_insert _ _) ?_ ?_
        · intro other hother
          exact Option.some.inj hother ▸ not_le.mp hlt
        · rintro other (rfl | hother)
          · exact le_rfl
          · obtain ⟨_, hcurrent, hle⟩ := hlate other hother
            exact hle.trans (Option.some.inj hcurrent ▸ (not_le.mp hlt).le)
  | @taken winner hmem hlater hlast =>
    rw [Library.adopt]
    split
    next hle =>
      refine .taken (Set.mem_insert_of_mem _ hmem) hlater ?_
      rintro other (rfl | hother)
      · exact hle
      · exact hlast other hother
    next hlt =>
      refine .taken (Set.mem_insert _ _) ?_ ?_
      · exact fun current hcurrent => (hlater current hcurrent).trans (not_le.mp hlt)
      · rintro other (rfl | hother)
        · exact le_rfl
        · exact (hlast other hother).trans (not_le.mp hlt).le

/-- Offers that differ in their stamps leave no choice. -/
theorem unique (hstamps : Set.InjOn stamp offers) {other : Option β}
    (hresult : Newest stamp held offers result) (hother : Newest stamp held offers other) :
    result = other := by
  cases hresult with
  | kept hlate =>
    cases hother with
    | kept => rfl
    | taken hmem hlater =>
      obtain ⟨current, hcurrent, hle⟩ := hlate _ hmem
      exact absurd hle (not_le.mpr (hlater current hcurrent))
  | taken hmem hlater hlast =>
    cases hother with
    | kept hlate =>
      obtain ⟨current, hcurrent, hle⟩ := hlate _ hmem
      exact absurd hle (not_le.mpr (hlater current hcurrent))
    | taken hmem' _ hlast' =>
      exact congrArg some (hstamps hmem hmem' (le_antisymm (hlast' _ hmem) (hlast _ hmem')))

end Newest

/-- The register after any list of offers. -/
theorem newest_foldl (held : Option β) (offered : List β) :
    Newest stamp held {offer | offer ∈ offered} (offered.foldl (adopt stamp) held) := by
  have hgeneral : ∀ (offers : Set β) (result : Option β), Newest stamp held offers result →
      Newest stamp held (offers ∪ {offer | offer ∈ offered})
        (offered.foldl (adopt stamp) result) := by
    induction offered with
    | nil =>
      intro offers result hresult
      simpa using hresult
    | cons offer rest ih =>
      intro offers result hresult
      have hrest := ih (insert offer offers) _ (hresult.adopt offer)
      have hsame : offers ∪ {other | other ∈ offer :: rest} =
          insert offer offers ∪ {other | other ∈ rest} := by
        ext other
        simp only [Set.mem_union, Set.mem_insert_iff, Set.mem_ofPred_eq, List.mem_cons]
        tauto
      rw [hsame]
      exact hrest
  simpa using hgeneral ∅ held (.of_no_offers held)

end Coreletd.Library
