import PromptDraw.Proofs.Draw.Shuffle
import PromptDraw.Proofs.Prompt.Splice

/-!
Random expansion draws lawful selections only. Whatever the source of positions
gives, each substituted block is replaced by as many of its candidates as are
wanted and there, from positions that are all different.
-/

namespace PromptDraw

variable {σ : Type}

/-- Items taken from a list at positions that are all different. Equal items at
different positions count as different. -/
def TakenFrom (candidates picked : List Text) : Prop :=
  ∃ positions : List Nat, positions.Nodup ∧
    positions.map (candidates[·]?) = picked.map some

theorem TakenFrom.mem {candidates picked : List Text} (h : TakenFrom candidates picked)
    {item : Text} (hitem : item ∈ picked) : item ∈ candidates := by
  obtain ⟨positions, -, hmap⟩ := h
  have hsome : some item ∈ positions.map (candidates[·]?) := by
    rw [hmap]
    exact List.mem_map_of_mem hitem
  obtain ⟨i, -, hi⟩ := List.mem_map.1 hsome
  exact List.mem_of_getElem? hi

theorem map_getElem?_range (candidates : List Text) :
    (List.range candidates.length).map (candidates[·]?) = candidates.map some := by
  refine List.ext_getElem (by simp) ?_
  intro i hi hi'
  simp at hi ⊢

/-- Looking up some positions gives the items found there, if each is a position
of the list. -/
theorem filterMap_getElem?_of_map {candidates items : List Text} {positions : List Nat}
    (h : positions.map (candidates[·]?) = items.map some) :
    positions.filterMap (candidates[·]?) = items := by
  have hfilter := congrArg (List.filterMap id) h
  rw [List.filterMap_map, List.filterMap_map] at hfilter
  exact hfilter.trans List.filterMap_some

namespace Picker

variable [IndexSource σ]

theorem run_random (candidates : List Text) (count : Nat) (g : σ) :
    ∃ plan : Plan candidates.length,
      ((random candidates count).run g).1 = (plan.apply).take count :=
  ⟨((Plan.draw candidates.length : StateM σ _).run g).1, rfl⟩

theorem takenFrom_random (candidates : List Text) (count : Nat) (g : σ) :
    TakenFrom candidates ((random candidates count).run g).1 := by
  obtain ⟨plan, hrun⟩ := run_random candidates count g
  refine ⟨plan.order.take count, plan.nodup_order.take, ?_⟩
  rw [hrun, List.map_take, List.map_take, plan.map_apply]

theorem length_random (candidates : List Text) (count : Nat) (g : σ) :
    ((random candidates count).run g).1.length = min count candidates.length := by
  obtain ⟨plan, hrun⟩ := run_random candidates count g
  rw [hrun, List.length_take, (plan.apply_perm).length_eq]

theorem random_perm {candidates : List Text} {count : Nat} (h : candidates.length ≤ count)
    (g : σ) : ((random candidates count).run g).1.Perm candidates := by
  obtain ⟨plan, hrun⟩ := run_random candidates count g
  have hlength := (plan.apply_perm).length_eq
  rw [hrun, List.take_of_length_le (by omega)]
  exact plan.apply_perm

end Picker

/-- What may take the place of a reported block at random. -/
def Report.MayDraw (r : Report) (text : Text) : Prop :=
  match r.outcome with
  | .unchanged => text = r.text
  | .empty => text = []
  | .substituted => ∃ picked, text = r.separator.intercalate picked ∧
      TakenFrom r.candidates picked ∧ picked.length = min r.count r.candidates.length ∧
      (r.candidates.length ≤ r.count → picked.Perm r.candidates)

theorem Report.mayDraw_replacement [IndexSource σ] (r : Report) (g : σ) :
    r.MayDraw ((r.replacement Picker.random).run g).1 := by
  unfold MayDraw replacement
  cases r.outcome with
  | unchanged => rfl
  | empty => rfl
  | substituted =>
      exact ⟨_, rfl, Picker.takenFrom_random r.candidates r.count g,
        Picker.length_random r.candidates r.count g, fun h => Picker.random_perm h g⟩

/-- From a single candidate there is nothing to choose. -/
theorem Report.MayDraw.eq_firstText {r : Report} {text : Text} (h : r.MayDraw text)
    (hsingle : r.outcome = .substituted → r.candidates.length = 1) : text = r.firstText := by
  unfold MayDraw at h
  unfold firstText
  cases houtcome : r.outcome with
  | unchanged | empty =>
      rw [houtcome] at h
      exact h
  | substituted =>
      rw [houtcome] at h
      obtain ⟨picked, rfl, htaken, hlength, -⟩ := h
      obtain ⟨c, hc⟩ := List.length_eq_one_iff.1 (hsingle houtcome)
      have hpicked : picked = List.replicate picked.length c :=
        List.eq_replicate_of_mem fun item hitem => by simpa [hc] using htaken.mem hitem
      have hfirst : [c].take (min r.count [c].length) =
          List.replicate (min r.count [c].length) c := by
        rw [List.length_singleton, ← List.replicate_one, List.take_replicate,
          Nat.min_eq_left (Nat.min_le_right _ _)]
      rw [hpicked, hlength, hc, hfirst]

theorem Report.eq_firstTexts {reports : List Report} {texts : List Text}
    (h : List.Forall₂ MayDraw reports texts)
    (hsingle : ∀ r ∈ reports, r.outcome = .substituted → r.candidates.length = 1) :
    texts = reports.map firstText := by
  induction h with
  | nil => rfl
  | cons hdraw _ ih =>
      have hhead := hdraw.eq_firstText (hsingle _ List.mem_cons_self)
      have htail := ih fun r hr => hsingle r (List.mem_cons_of_mem _ hr)
      rw [hhead, htail, List.map_cons]

namespace Text

/-- Random expansion, from every state of every source of positions, replaces
each substituted block by as many of its candidates as are wanted and there, taken
from different positions, so by all of them in some order if enough are wanted;
blocks without candidates stay, empty ones go, and all else is copied. Where every
substituted block has one candidate, nothing is left to chance. -/
theorem expand_draws_different_positions [IndexSource σ] (s : Text) (g : σ) :
    (∃ texts, List.Forall₂ Report.MayDraw s.reports texts ∧
      (s.expand.run g).1 = s.splice 0 (s.reports.zip texts)) ∧
    ((∀ r ∈ s.reports, r.outcome = .substituted → r.candidates.length = 1) →
      (s.expand.run g).1 = s.preview) := by
  have htexts : List.Forall₂ Report.MayDraw s.reports
      ((s.reports.mapM (Report.replacement Picker.random)).run g).1 :=
    Report.forall₂_replacements Report.mayDraw_replacement s.reports g
  have hrun : (s.expand.run g).1 = s.splice 0
      (s.reports.zip ((s.reports.mapM (Report.replacement Picker.random)).run g).1) := by
    rw [expand, run_resolve]
  refine ⟨⟨_, htexts, hrun⟩, ?_⟩
  intro hsingle
  have hfirst := Report.eq_firstTexts htexts hsingle
  rw [hrun, hfirst, preview_eq_splice, List.map_prod_left_eq_zip]

end Text

end PromptDraw
