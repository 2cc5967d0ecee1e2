import PromptDraw.Draw.Shuffle
import PromptDraw.Prompt.Expand

/-!
Carrying out a plan is the same for items of every kind: it moves positions. So
a plan has an order, the order into which it brings the positions, and this order
holds every position once. Distinct positions are all that shuffling promises of
items, which may themselves be equal.
-/

namespace PromptDraw

namespace Plan

variable {α β : Type}

theorem swapIfInBounds_perm (items : Array α) (i j : Nat) :
    (items.swapIfInBounds i j).toList.Perm items.toList := by
  rw [Array.swapIfInBounds_def]
  split
  · split
    · exact (Array.swap_perm _ _).toList
    · exact .refl _
  · exact .refl _

private theorem map_swapIfInBounds (f : α → β) (items : Array α) (i j : Nat) :
    (items.map f).swapIfInBounds i j = (items.swapIfInBounds i j).map f := by
  apply Array.ext
  · simp
  · intro k hk hk'
    simp only [Array.getElem_swapIfInBounds, Array.getElem_map, Array.size_map]
    split
    · rfl
    · split <;> rfl

theorem permute_perm (n : Nat) (plan : Plan n) (items : Array α) :
    (permute n plan items).toList.Perm items.toList := by
  induction n generalizing items with
  | zero => exact .refl _
  | succ n ih =>
      obtain ⟨position, rest⟩ := plan
      exact (ih rest _).trans (swapIfInBounds_perm items n position)

theorem permute_map (f : α → β) (n : Nat) (plan : Plan n) (items : Array α) :
    permute n plan (items.map f) = (permute n plan items).map f := by
  induction n generalizing items with
  | zero => rfl
  | succ n ih =>
      obtain ⟨position, rest⟩ := plan
      simp only [permute]
      rw [map_swapIfInBounds, ih]

/-- The order into which a plan brings the positions. -/
def order {n : Nat} (plan : Plan n) : List Nat :=
  (permute n plan (Array.range n)).toList

theorem order_perm {n : Nat} (plan : Plan n) : plan.order.Perm (List.range n) := by
  simpa [order] using permute_perm n plan (Array.range n)

theorem nodup_order {n : Nat} (plan : Plan n) : plan.order.Nodup :=
  plan.order_perm.nodup_iff.2 List.nodup_range

theorem map_apply (items : List α) (plan : Plan items.length) :
    (apply items plan).map some = plan.order.map (items[·]?) := by
  have hitems : items.toArray.map some = (Array.range items.length).map (items[·]?) := by
    apply Array.ext
    · simp
    · intro k hk hk'
      simp at hk ⊢
  have h := congrArg Array.toList (congrArg (permute items.length plan) hitems)
  rw [permute_map, permute_map, Array.toList_map, Array.toList_map] at h
  exact h

theorem apply_perm (items : List α) (plan : Plan items.length) :
    (apply items plan).Perm items := by
  simpa [apply] using permute_perm items.length plan items.toArray

end Plan

end PromptDraw
