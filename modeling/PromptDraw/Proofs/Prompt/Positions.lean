import Mathlib.Data.List.Infix
import PromptDraw.Draw.Generator
import PromptDraw.Proofs.Prompt.Draws
import PromptDraw.Proofs.Prompt.Notes

/-!
What a random expansion draws depends on how many candidates the substituted blocks
have, and on nothing else. An expansion is watched by noting the positions from
which it takes its candidates. Two prompts whose substituted blocks have equally
many candidates, block by block, are then compared in step: each pair of blocks
draws the same plan, takes candidates from the same positions up to the smaller
count, and hands on the same state, whatever the prompts say.
-/

namespace PromptDraw

variable {σ : Type}

/-- What is drawn for one block: a plan for its candidates, of which `count` are
wanted. -/
structure Draw where
  size : Nat
  count : Nat
  plan : Plan size

namespace Draw

/-- The positions of the candidates that are picked, in the order in which they
are picked. -/
def positions (d : Draw) : List Nat :=
  d.plan.order.take d.count

def pick (d : Draw) (candidates : List Text) : List Text :=
  d.positions.filterMap (candidates[·]?)

def make [IndexSource σ] (size count : Nat) : StateM σ Draw := do
  let plan ← Plan.draw size
  return ⟨size, count, plan⟩

theorem run_make [IndexSource σ] (size count : Nat) (g : σ) :
    (make size count).run g =
      (⟨size, count, ((Plan.draw size).run g).1⟩, ((Plan.draw size).run g).2) := rfl

theorem length_positions (d : Draw) : d.positions.length = min d.count d.size := by
  have hlength := d.plan.order_perm.length_eq
  rw [positions, List.length_take, hlength, List.length_range]

/-- Two draws from equally many candidates that take the same positions, in the
same order, as far as both take any. -/
structure Agrees (d d' : Draw) : Prop where
  size : d.size = d'.size
  shorter : d.positions.length ≤ d'.positions.length → d.positions <+: d'.positions
  longer : d'.positions.length ≤ d.positions.length → d'.positions <+: d.positions

theorem positions_start {size : Nat} (plan : Plan size) {count count' : Nat}
    (h : (positions ⟨size, count, plan⟩).length ≤ (positions ⟨size, count', plan⟩).length) :
    positions ⟨size, count, plan⟩ <+: positions ⟨size, count', plan⟩ := by
  have hlength : plan.order.length = size := by
    rw [plan.order_perm.length_eq, List.length_range]
  simp only [length_positions] at h
  have hcount : count ≤ count' ∨ plan.order.length ≤ count' := by omega
  exact List.take_isPrefix_take.2 hcount

theorem agrees_of_plan {size : Nat} (plan : Plan size) (count count' : Nat) :
    Agrees ⟨size, count, plan⟩ ⟨size, count', plan⟩ where
  size := rfl
  shorter := positions_start plan
  longer := positions_start plan

end Draw

namespace Picker

variable [IndexSource σ]

/-- Random picking by positions: the plan that is drawn says from where the
candidates are taken. -/
def drawing (candidates : List Text) (count : Nat) : StateM σ (List Text × Draw) := do
  let draw ← Draw.make candidates.length count
  return (draw.pick candidates, draw)

theorem pick_eq_take (candidates : List Text) (count : Nat) (plan : Plan candidates.length) :
    Draw.pick ⟨candidates.length, count, plan⟩ candidates = plan.apply.take count := by
  have htake : (plan.order.take count).map (candidates[·]?) =
      (plan.apply.take count).map some := by
    rw [List.map_take, List.map_take, plan.map_apply]
  exact filterMap_getElem?_of_map htake

/-- Without the notes, picking by positions is picking at random. -/
theorem plain_drawing : plain (drawing (σ := σ)) = random := by
  funext candidates count
  simp only [plain, drawing, Draw.make, random, shuffle, bind_assoc, pure_bind, map_bind, map_pure,
    pick_eq_take]

theorem state_random_of_single {candidates : List Text} (h : candidates.length = 1)
    (count : Nat) (g : σ) : ((random candidates count).run g).2 = g := by
  obtain ⟨c, rfl⟩ := List.length_eq_one_iff.1 h
  rfl

end Picker

namespace Report

variable [IndexSource σ]

theorem notes_drawing (reports : List Report) :
    notes (Picker.drawing (σ := σ)) reports =
      (questions reports).mapM fun question => Draw.make question.1.length question.2 := by
  simp only [notes, Picker.drawing, map_bind, map_pure, bind_pure]

/-- Equal sizes draw equal plans from equal states, so two runs stay in step. -/
theorem agrees_run_make {asked asked' : List (List Text × Nat)}
    (h : asked.map (·.1.length) = asked'.map (·.1.length)) (g : σ) :
    let run := (asked.mapM fun question => Draw.make question.1.length question.2).run g
    let run' := (asked'.mapM fun question => Draw.make question.1.length question.2).run g
    List.Forall₂ Draw.Agrees run.1 run'.1 ∧ run.2 = run'.2 := by
  induction asked generalizing asked' g with
  | nil =>
      obtain rfl := List.map_eq_nil_iff.1 h.symm
      exact ⟨.nil, rfl⟩
  | cons question rest ih =>
      obtain ⟨question', rest', rfl, hsize, hrest⟩ := List.map_eq_cons_iff.1 h.symm
      have hstep := ih hrest.symm ((Plan.draw question.1.length).run g).2
      simp only [List.mapM_cons, run_state_bind, run_state_pure, hsize, Draw.run_make]
      refine ⟨.cons ?_ hstep.1, hstep.2⟩
      exact Draw.agrees_of_plan _ question.2 question'.2

theorem map_run_make (asked : List (List Text × Nat)) (g : σ) :
    (((asked.mapM fun question => Draw.make question.1.length question.2).run g).1).map
        (fun d => (d.size, d.count)) =
      asked.map fun question => (question.1.length, question.2) := by
  induction asked generalizing g with
  | nil => rfl
  | cons question rest ih =>
      simp only [List.mapM_cons, run_state_bind, run_state_pure, Draw.run_make, List.map_cons, ih]

end Report

theorem Block.state_resolve_random [IndexSource σ] {b : Block}
    (h : b.outcome = .substituted → b.candidates.length = 1) (g : σ) :
    ((b.resolve Picker.random).run g).2 = g := by
  unfold resolve
  cases houtcome : b.outcome with
  | unchanged | empty => rfl
  | substituted => exact Picker.state_random_of_single (h houtcome) b.count g

namespace Text

/-- How many candidates the substituted blocks of a prompt have, in order. -/
def candidateCounts (s : Text) : List Nat :=
  (s.reports.filter (·.outcome = .substituted)).map (·.candidates.length)

theorem candidateCounts_eq (s : Text) :
    s.candidateCounts = (Report.questions s.reports).map (·.1.length) := by
  simp [candidateCounts, Report.questions]

/-- Expanding a prompt at random from the state `g` takes the candidates by these
draws, one for each substituted block. -/
structure ExpandsBy [IndexSource σ] (s : Text) (g : σ) (drawn : List Draw) : Prop where
  /-- Noting the draws changes neither the text nor the final state. -/
  run : (s.resolve (Picker.noting Picker.drawing)).run (g, []) =
    ((s.expand.run g).1, (s.expand.run g).2, drawn)
  blocks : drawn.map (fun d => (d.size, d.count)) =
    (s.reports.filter (·.outcome = .substituted)).map fun r => (r.candidates.length, r.count)

theorem expandsBy_notes [IndexSource σ] (s : Text) (g : σ) :
    s.ExpandsBy g ((Report.notes Picker.drawing s.reports).run g).1 where
  run := by
    rw [run_resolve_noting, Picker.plain_drawing, expand]
  blocks := by
    rw [Report.notes_drawing, Report.map_run_make]
    simp [Report.questions]

theorem state_expand [IndexSource σ] (s : Text) (g : σ) :
    (s.expand.run g).2 = ((Report.notes Picker.drawing s.reports).run g).2 := by
  rw [expand, ← Picker.plain_drawing, run_resolve_plain]

theorem state_expand_congr [IndexSource σ] {s s' : Text}
    (h : s.candidateCounts = s'.candidateCounts) (g : σ) :
    (s.expand.run g).2 = (s'.expand.run g).2 := by
  rw [candidateCounts_eq, candidateCounts_eq] at h
  rw [state_expand, state_expand, Report.notes_drawing, Report.notes_drawing]
  exact (Report.agrees_run_make h g).2

/-- Draws depend on the numbers of candidates alone. Expanding two prompts whose
substituted blocks have equally many candidates, from one state of any source,
leaves one state, and corresponding blocks take candidates from the same positions
in the same order, the smaller selection being the start of the larger. A block
that has no candidates, wants none, or has one, leaves the source as it is. -/
theorem draws_depend_on_candidate_counts [IndexSource σ] {s s' : Text}
    (hcounts : s.candidateCounts = s'.candidateCounts) (g : σ) :
    (∃ drawn drawn' : List Draw, s.ExpandsBy g drawn ∧ s'.ExpandsBy g drawn' ∧
      List.Forall₂ Draw.Agrees drawn drawn') ∧
    (s.expand.run g).2 = (s'.expand.run g).2 ∧
    ∀ b : Block, (b.outcome = .substituted → b.candidates.length = 1) →
      ∀ g : σ, ((b.resolve Picker.random).run g).2 = g := by
  rw [candidateCounts_eq, candidateCounts_eq] at hcounts
  obtain ⟨hagrees, hstate⟩ := Report.agrees_run_make hcounts g
  rw [← Report.notes_drawing, ← Report.notes_drawing] at hagrees hstate
  refine ⟨⟨_, _, expandsBy_notes s g, expandsBy_notes s' g, hagrees⟩, ?_, ?_⟩
  · rw [state_expand, state_expand, hstate]
  · intro b hb g'
    exact b.state_resolve_random hb g'

/-- Different items, counts and separators, with blocks that draw nothing around
them. -/
theorem draws_depend_on_candidate_counts_not_on_items :
    let s : Text := ['{', '{', 'a', ',', 'b', ',', 'c', '}', '}', '(', '2', ')']
    let s' : Text := ['{', '{', '}', '}', '(', '5', ')', '{', '{', 'x', '\\', ',', ',', ' ', 'y',
      ',', 'z', '}', '}', '(', '9', ',', '\'', '-', '\'', ')', '{', '{', 'q', '}', '}', '(', '0', ')']
    s.candidateCounts = s'.candidateCounts ∧
      (s.expand.run (Generator.ofSeed 7)).2 = (s'.expand.run (Generator.ofSeed 7)).2 := by
  intro s s'
  have hcounts : s.candidateCounts = s'.candidateCounts := by decide +kernel
  exact ⟨hcounts, (draws_depend_on_candidate_counts hcounts (Generator.ofSeed 7)).2.1⟩

end Text

end PromptDraw
