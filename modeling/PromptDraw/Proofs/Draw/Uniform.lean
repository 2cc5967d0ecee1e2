import Mathlib.Algebra.BigOperators.Fin
import Mathlib.Data.Fintype.BigOperators
import Mathlib.Data.List.Permutation
import Mathlib.Data.Nat.Factorial.BigOperators
import Mathlib.Data.Set.Function
import PromptDraw.Proofs.Prompt.Draws

/-!
Shuffling favours no order. The item that a plan brings to the last position shows
which position was drawn for it, and so on down to the first, so distinct items come
into a different order by each plan. There are as many plans as orders; hence each
order comes from one plan, and each selection of the first few items from as many
plans as there are orders of the others.
-/

namespace PromptDraw

namespace Plan

variable {α : Type}

/-- Positions that a plan does not reach keep their items. -/
theorem getElem?_permute_of_le {n i : Nat} (h : n ≤ i) (plan : Plan n) (items : Array α) :
    (permute n plan items)[i]? = items[i]? := by
  induction n generalizing items with
  | zero => rfl
  | succ n ih =>
      obtain ⟨position, rest⟩ := plan
      have hposition := position.isLt
      rw [permute, ih (by omega)]
      by_cases hi : i < items.size
      · have hswap : i < (items.swapIfInBounds n position).size := by simpa using hi
        rw [Array.getElem?_eq_getElem hswap, Array.getElem?_eq_getElem hi,
          Array.getElem_swapIfInBounds_of_ne_of_ne (by omega) (by omega)]
      · simp [hi]

/-- The last position that a plan reaches gets the item of the position drawn for it. -/
theorem getElem?_permute_last {n : Nat} (position : Fin (n + 1)) (rest : Plan n)
    {items : Array α} (h : n < items.size) :
    (permute (n + 1) (position, rest) items)[n]? = items[position.val]? := by
  have hposition : position.val < items.size := by omega
  have hswap : n < (items.swapIfInBounds n position).size := by simpa using h
  rw [permute, getElem?_permute_of_le (Nat.le_refl n), Array.getElem?_eq_getElem hswap,
    Array.getElem_swapIfInBounds_left hposition, Array.getElem?_eq_getElem hposition]

theorem permute_injective {n : Nat} {items : Array α} (hnodup : items.toList.Nodup)
    (hsize : n ≤ items.size) {plan plan' : Plan n}
    (h : permute n plan items = permute n plan' items) : plan = plan' := by
  induction n generalizing items with
  | zero => rfl
  | succ n ih =>
      obtain ⟨position, rest⟩ := plan
      obtain ⟨position', rest'⟩ := plan'
      -- No later draw reaches the last position, so its item tells the first draw.
      have hlast : items[position.val]? = items[position'.val]? := by
        rw [← getElem?_permute_last position rest hsize, h,
          getElem?_permute_last position' rest' hsize]
      have hposition : position = position' := by
        have hlt : position.val < items.size := by omega
        have hlt' : position'.val < items.size := by omega
        rw [Array.getElem?_eq_getElem hlt, Array.getElem?_eq_getElem hlt', Option.some.injEq,
          ← Array.getElem_toList, ← Array.getElem_toList, hnodup.getElem_inj_iff] at hlast
        exact Fin.ext hlast
      subst hposition
      have hswapped : (items.swapIfInBounds n position).toList.Nodup :=
        (swapIfInBounds_perm items n position).nodup_iff.2 hnodup
      have hrest : rest = rest' := ih hswapped (by simpa using Nat.le_of_succ_le hsize) h
      rw [hrest]

theorem apply_injective {items : List α} (hnodup : items.Nodup) :
    Function.Injective (apply items) := by
  intro plan plan' h
  exact permute_injective hnodup (Nat.le_refl _) (Array.toList_inj.1 h)

theorem run_draw_succ {σ : Type} [IndexSource σ] {n : Nat} {g g' g'' : σ}
    {position : Fin (n + 2)} {rest : Plan (n + 1)}
    (hposition : (IndexSource.draw (n + 1)).run g = (position, g'))
    (hrest : (draw (n + 1)).run g' = (rest, g'')) :
    (draw (n + 2)).run g = ((position, rest), g'') := by
  obtain ⟨rfl, rfl⟩ := Prod.mk.inj hposition
  obtain ⟨rfl, rfl⟩ := Prod.mk.inj hrest
  rfl

end Plan

/-- The positions drawn for shuffling `n` items: one for each position from the second
on, and none of them behind the position that it is drawn for. -/
abbrev Draws (n : Nat) : Type := (i : Fin (n - 1)) → Fin (i.val + 2)

namespace Draws

theorem card_eq (n : Nat) : Fintype.card (Draws n) = n.factorial := by
  cases n with
  | zero => rfl
  | succ n =>
      rw [Fintype.card_pi, ← Finset.prod_range_add_one_eq_factorial, Finset.prod_range_succ']
      simp [Fin.prod_univ_eq_prod_range (· + 2) n]

/-- The draws in the order in which they are made, from the last position down to the
second. -/
def script {n : Nat} (draws : Draws n) : List Nat :=
  ((List.finRange (n - 1)).map fun i => (draws i).val).reverse

/-- The draws without the one for the last position. -/
def rest {n : Nat} (draws : Draws (n + 2)) : Draws (n + 1) :=
  fun i => draws i.castSucc

theorem script_succ {n : Nat} (draws : Draws (n + 2)) :
    draws.script = (draws (Fin.last n)).val :: draws.rest.script := by
  simp [script, rest, List.finRange_succ_last, Function.comp_def]

/-- The plan that is drawn by these draws. -/
def plan : {n : Nat} → Draws n → Plan n
  | 0, _ => ()
  | 1, _ => (0, ())
  | _ + 2, draws => (draws (Fin.last _), draws.rest.plan)

theorem plan_injective {n : Nat} : Function.Injective (plan : Draws n → Plan n) := by
  intro draws draws' h
  match n with
  | 0 => exact funext fun i => i.elim0
  | 1 => exact funext fun i => i.elim0
  | n + 2 =>
      obtain ⟨hlast, hrest⟩ := Prod.mk.inj h
      have hinit : draws.rest = draws'.rest := plan_injective hrest
      funext i
      cases i using Fin.lastCases with
      | last => exact hlast
      | cast i => exact congrFun hinit i

end Draws

/-- A source that hands out given positions one after the other. -/
structure Script where
  positions : List Nat

instance : IndexSource Script where
  draw last := do
    let script ← get
    set (Script.mk script.positions.tail)
    return ⟨script.positions.headD 0 % (last + 1), Nat.mod_lt _ last.succ_pos⟩

namespace Script

theorem run_draw_cons {last : Nat} (position : Fin (last + 1)) (positions : List Nat) :
    (IndexSource.draw last : StateM Script _).run ⟨position.val :: positions⟩ =
      (position, ⟨positions⟩) :=
  Prod.ext (Fin.ext (Nat.mod_eq_of_lt position.isLt)) rfl

/-- A plan takes each draw of its script once, in their order. -/
theorem run_plan {n : Nat} (draws : Draws n) :
    (Plan.draw n).run (Script.mk draws.script) = (draws.plan, ⟨[]⟩) := by
  match n with
  | 0 | 1 => rfl
  | n + 2 =>
      rw [Draws.script_succ]
      exact Plan.run_draw_succ (run_draw_cons _ _) (run_plan draws.rest)

end Script

/-- Of the orders of some distinct items, as many begin with a given selection of them
as there are orders of the others. -/
theorem card_orders_take {items picked : List Text} (hnodup : items.Nodup)
    (hpicked : picked.Nodup) (hmem : ∀ item ∈ picked, item ∈ items) :
    (items.permutations.toFinset.filter fun order => order.take picked.length = picked).card =
      (items.length - picked.length).factorial := by
  obtain ⟨found, hfound, hsublist⟩ := List.subperm_of_subset hpicked hmem
  obtain ⟨others, hothers⟩ := hsublist.exists_perm_append
  have hperm : items.Perm (picked ++ others) := hothers.trans (hfound.append_right others)
  have hrest : others.Nodup := (List.nodup_append.1 (hperm.nodup_iff.1 hnodup)).2.1
  have hlength : others.length = items.length - picked.length := by
    rw [hperm.length_eq, List.length_append, Nat.add_sub_cancel_left]
  have horders :
      (items.permutations.toFinset.filter fun order => order.take picked.length = picked) =
        others.permutations.toFinset.image (picked ++ ·) := by
    ext order
    simp only [Finset.mem_filter, Finset.mem_image, List.mem_toFinset, List.mem_permutations]
    constructor
    · rintro ⟨horder, htake⟩
      have hsplit : picked ++ order.drop picked.length = order := by
        calc picked ++ order.drop picked.length
            = order.take picked.length ++ order.drop picked.length := by rw [htake]
          _ = order := List.take_append_drop _ _
      refine ⟨order.drop picked.length, ?_, hsplit⟩
      rw [← hsplit] at horder
      exact (List.perm_append_left_iff picked).1 (horder.trans hperm)
    · rintro ⟨tail, htail, rfl⟩
      exact ⟨(htail.append_left picked).trans hperm.symm, List.take_left⟩
  rw [horders, Finset.card_image_of_injective _ (List.append_right_injective picked),
    List.toFinset_card_of_nodup (List.nodup_permutations others hrest),
    List.length_permutations, hlength]

namespace Picker

theorem run_random_script (candidates : List Text) (count : Nat)
    (draws : Draws candidates.length) :
    (random candidates count).run (Script.mk draws.script) =
      (draws.plan.apply.take count, ⟨[]⟩) := by
  rw [random, run_state_bind, shuffle, run_state_bind, Script.run_plan]
  rfl

theorem apply_plan_injective {candidates : List Text} (hnodup : candidates.Nodup) :
    Function.Injective fun draws : Draws candidates.length => draws.plan.apply :=
  (Plan.apply_injective hnodup).comp Draws.plan_injective

/-- There are as many draws as orders, and different draws give different orders, so
every order is drawn. -/
theorem image_apply_plan {candidates : List Text} (hnodup : candidates.Nodup) :
    Finset.univ.image (fun draws : Draws candidates.length => draws.plan.apply) =
      candidates.permutations.toFinset := by
  refine Finset.eq_of_subset_of_card_le ?_ ?_
  · intro order horder
    obtain ⟨draws, -, rfl⟩ := Finset.mem_image.1 horder
    exact List.mem_toFinset.2 (List.mem_permutations.2 draws.plan.apply_perm)
  · rw [Finset.card_image_of_injective _ (apply_plan_injective hnodup), Finset.card_univ,
      Draws.card_eq, List.toFinset_card_of_nodup (List.nodup_permutations candidates hnodup),
      List.length_permutations]

theorem card_draws_take {candidates picked : List Text} (hnodup : candidates.Nodup)
    (hpicked : picked.Nodup) (hmem : ∀ item ∈ picked, item ∈ candidates) :
    (Finset.univ.filter fun draws : Draws candidates.length =>
      draws.plan.apply.take picked.length = picked).card =
        (candidates.length - picked.length).factorial := by
  rw [← card_orders_take hnodup hpicked hmem, ← image_apply_plan hnodup, Finset.filter_image,
    Finset.card_image_of_injective _ (apply_plan_injective hnodup)]

/-- Random picking is unbiased. Of the `n!` ways in which the positions for shuffling
`n` distinct candidates can be drawn, each of which is used up draw by draw, exactly
`(n - k)!` pick any given `k` of them in a given order, where `k` is how many are
wanted and there; and if all are wanted, each order is picked in exactly one way. -/
theorem random_is_unbiased {candidates : List Text} (hnodup : candidates.Nodup) (count : Nat) :
    Fintype.card (Draws candidates.length) = candidates.length.factorial ∧
    (∀ draws : Draws candidates.length,
      ((random candidates count).run (Script.mk draws.script)).2 = ⟨[]⟩) ∧
    (∀ picked : List Text, picked.Nodup → (∀ item ∈ picked, item ∈ candidates) →
      picked.length = min count candidates.length →
      (Finset.univ.filter fun draws : Draws candidates.length =>
        ((random candidates count).run (Script.mk draws.script)).1 = picked).card =
          (candidates.length - min count candidates.length).factorial) ∧
    (candidates.length ≤ count →
      Set.BijOn (fun draws : Draws candidates.length =>
        ((random candidates count).run (Script.mk draws.script)).1)
        Set.univ {order | order.Perm candidates}) := by
  have hlength : ∀ draws : Draws candidates.length,
      draws.plan.apply.length = candidates.length := fun draws => draws.plan.apply_perm.length_eq
  refine ⟨Draws.card_eq _, ?_, ?_, ?_⟩
  · intro draws
    rw [run_random_script]
  · intro picked hpicked hmem hk
    have htake : ∀ draws : Draws candidates.length,
        ((random candidates count).run (Script.mk draws.script)).1 =
          draws.plan.apply.take picked.length := by
      intro draws
      rw [run_random_script, List.take_eq_take_min, hlength, hk]
    simp only [htake]
    rw [card_draws_take hnodup hpicked hmem, hk]
  · intro hcount
    have hall : ∀ draws : Draws candidates.length,
        ((random candidates count).run (Script.mk draws.script)).1 = draws.plan.apply := by
      intro draws
      rw [run_random_script, List.take_of_length_le (by rw [hlength]; exact hcount)]
    simp only [hall]
    refine ⟨fun draws _ => draws.plan.apply_perm, (apply_plan_injective hnodup).injOn, ?_⟩
    intro order horder
    have hmem := List.mem_toFinset.2 (List.mem_permutations.2 horder)
    rw [← image_apply_plan hnodup] at hmem
    obtain ⟨draws, -, rfl⟩ := Finset.mem_image.1 hmem
    exact ⟨draws, Set.mem_univ _, rfl⟩

/-- Two of four candidates, in an order other than the written one. -/
theorem random_is_unbiased_two_of_four :
    let candidates : List Text := [['a'], ['b'], ['c'], ['d']]
    let picked : List Text := [['c'], ['a']]
    candidates.Nodup ∧
      (Finset.univ.filter fun draws : Draws candidates.length =>
        ((random candidates 2).run (Script.mk draws.script)).1 = picked).card = 2 := by
  intro candidates picked
  have hnodup : candidates.Nodup := by decide
  have hpicked := (random_is_unbiased hnodup 2).2.2.1 picked (by decide) (by decide) (by decide)
  exact ⟨hnodup, hpicked⟩

end Picker

end PromptDraw
