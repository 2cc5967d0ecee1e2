import Mathlib.Data.List.Perm.Subperm
import PromptDraw.Proofs.Block.Size
import PromptDraw.Proofs.Prompt.Draws
import PromptDraw.Proofs.Prompt.Notes

/-!
Whether a resolution differs from its prompt. Where every block stays as written,
so does the prompt. Where some block applies and none gives way to more than two
items, the resolution is shorter, since two candidates and one separator always
take less than the block that they are written in. Three items need the separator
twice, and then a block can reproduce itself.
-/

namespace PromptDraw

variable {σ : Type}

/-- Items taken from different positions of a list are some of its items, each taken
no more often than it is there. -/
theorem TakenFrom.subperm {candidates picked : List Text} (h : TakenFrom candidates picked) :
    picked.Subperm candidates := by
  obtain ⟨positions, hnodup, hpicked⟩ := h
  have hrange : positions ⊆ List.range candidates.length := by
    intro i hi
    have hsome : candidates[i]? ∈ picked.map some := by
      rw [← hpicked]
      exact List.mem_map_of_mem hi
    obtain ⟨item, -, hitem⟩ := List.mem_map.1 hsome
    exact List.mem_range.2 (List.getElem?_eq_some_iff.1 hitem.symm).1
  obtain ⟨positions', hperm, hsublist⟩ := hnodup.subperm hrange
  have hpermuted := hperm.filterMap (candidates[·]?)
  have hfound := hsublist.filterMap (candidates[·]?)
  rw [filterMap_getElem?_of_map hpicked] at hpermuted
  rw [filterMap_getElem?_of_map (map_getElem?_range candidates)] at hfound
  exact ⟨_, hpermuted, hfound⟩

namespace Picker

/-- What is asked of a picker: no more items than are wanted and there, from
positions that are all different. -/
structure Lawful (picker : Picker σ) : Prop where
  length_le : ∀ candidates count g,
    ((picker candidates count).run g).1.length ≤ min count candidates.length
  taken : ∀ candidates count g, TakenFrom candidates ((picker candidates count).run g).1

theorem lawful_random [IndexSource σ] : Lawful (random (σ := σ)) where
  length_le candidates count g := Nat.le_of_eq (length_random candidates count g)
  taken := takenFrom_random

theorem lawful_first : Lawful first where
  length_le _ _ _ := Nat.le_of_eq List.length_take
  taken candidates count _ := by
    refine ⟨(List.range candidates.length).take count, List.nodup_range.take, ?_⟩
    rw [List.map_take, map_getElem?_range, ← List.map_take]
    rfl

/-- A picker with its answers themselves as notes. -/
def remembering (picker : Picker σ) (candidates : List Text) (count : Nat) :
    StateM σ (List Text × List Text) :=
  (fun items => (items, items)) <$> picker candidates count

theorem plain_remembering (picker : Picker σ) : plain picker.remembering = picker := by
  funext candidates count
  simp [plain, remembering]

end Picker

/-- `after` takes no more bytes than `before`, and fewer if something `applied`. -/
structure Shrinks (applied : Prop) (before after : Text) : Prop where
  le : after.utf8Size ≤ before.utf8Size
  lt : applied → after.utf8Size < before.utf8Size

namespace Shrinks

theorem refl (s : Text) : Shrinks False s s := ⟨Nat.le_refl _, False.elim⟩

theorem of_lt {applied : Prop} {before after : Text} (h : after.utf8Size < before.utf8Size) :
    Shrinks applied before after :=
  ⟨Nat.le_of_lt h, fun _ => h⟩

theorem append {p q : Prop} {s s' t t' : Text} (hs : Shrinks p s s') (ht : Shrinks q t t') :
    Shrinks (p ∨ q) (s ++ t) (s' ++ t') := by
  have hsle := hs.le
  have htle := ht.le
  constructor
  · rw [Text.utf8Size_append, Text.utf8Size_append]
    omega
  · rw [Text.utf8Size_append, Text.utf8Size_append]
    rintro (hp | hq)
    · have hlt := hs.lt hp
      omega
    · have hlt := ht.lt hq
      omega

end Shrinks

/-- One step: the answer about a block, if it is asked for, is noted, and a short
one is shorter than the block. -/
theorem Block.shrinks_resolve {picker : Picker σ} (hlawful : picker.Lawful) (b : Block) (g : σ)
    (kept : List (List Text)) :
    let run := (b.resolve (Picker.noting picker.remembering)).run (g, kept)
    ∃ answers, run.2.2 = kept ++ answers ∧ ((∀ items ∈ answers, items.length ≤ 2) →
      Shrinks (b.outcome ≠ .unchanged) b.text run.1) := by
  unfold resolve
  cases houtcome : b.outcome with
  | unchanged =>
      refine ⟨[], (List.append_nil _).symm, fun _ => ⟨Nat.le_refl _, fun h => absurd rfl h⟩⟩
  | empty =>
      refine ⟨[], (List.append_nil _).symm, fun _ => .of_lt ?_⟩
      exact Text.utf8Size_pos_of_ne_nil b.text_ne_nil
  | substituted =>
      refine ⟨[((picker b.candidates b.count).run g).1], rfl, ?_⟩
      intro hfew
      have htaken := (hlawful.taken b.candidates b.count g).subperm
      have hlength := hfew _ (List.mem_singleton_self _)
      exact .of_lt (utf8Size_intercalate_lt htaken hlength)

namespace Piece

/-- The blocks of some pieces, one of which does not stay as written. -/
def Applies (ps : List Piece) : Prop :=
  ∃ b, block b ∈ ps ∧ b.outcome ≠ .unchanged

theorem applies_cons_block {b : Block} {ps : List Piece} :
    Applies (block b :: ps) ↔ b.outcome ≠ .unchanged ∨ Applies ps := by
  simp [Applies, or_and_right, exists_or]

theorem applies_cons_char {c : Char} {ps : List Piece} :
    Applies (char c :: ps) ↔ Applies ps := by
  simp [Applies]

theorem shrinks_resolveAll {picker : Picker σ} (hlawful : picker.Lawful) (ps : List Piece) (g : σ)
    (kept : List (List Text)) :
    let run := (resolveAll (Picker.noting picker.remembering) ps).run (g, kept)
    ∃ answers, run.2.2 = kept ++ answers ∧ ((∀ items ∈ answers, items.length ≤ 2) →
      Shrinks (Applies ps) (textOf ps) run.1) := by
  induction ps generalizing g kept with
  | nil =>
      refine ⟨[], (List.append_nil _).symm, fun _ => ⟨Nat.le_refl _, ?_⟩⟩
      rintro ⟨b, hb, -⟩
      cases hb
  | cons p ps ih =>
      cases p with
      | char c =>
          obtain ⟨answers, hkept, hshrinks⟩ := ih g kept
          refine ⟨answers, hkept, fun hfew => ?_⟩
          have happend := (Shrinks.refl [c]).append (hshrinks hfew)
          rw [false_or] at happend
          rw [applies_cons_char]
          exact happend
      | block b =>
          obtain ⟨answers, hkept, hshrinks⟩ := b.shrinks_resolve hlawful g kept
          obtain ⟨later, hlater, hrest⟩ := ih
            ((b.resolve (Picker.noting picker.remembering)).run (g, kept)).2.1
            ((b.resolve (Picker.noting picker.remembering)).run (g, kept)).2.2
          refine ⟨answers ++ later, ?_, fun hfew => ?_⟩
          · rw [← List.append_assoc, ← hkept]
            exact hlater
          · have hblock := hshrinks fun items h => hfew items (List.mem_append_left later h)
            have htail := hrest fun items h => hfew items (List.mem_append_right answers h)
            rw [applies_cons_block]
            exact hblock.append htail

theorem resolveAll_of_not_applies (picker : Picker σ) {ps : List Piece} (h : ¬Applies ps) :
    resolveAll picker ps = pure (textOf ps) := by
  induction ps with
  | nil => rfl
  | cons p ps ih =>
      cases p with
      | char c =>
          rw [applies_cons_char] at h
          simp only [resolveAll, resolve, ih h, pure_bind, textOf_cons, text]
      | block b =>
          rw [applies_cons_block, not_or, not_not] at h
          simp only [resolveAll, resolve, Block.resolve, h.1, ih h.2, pure_bind, textOf_cons, text]

end Piece

/-- A block that three of its own items reproduce, its separator standing between
them twice: `{{\{\{,)\}\}(3\,",")}}(3,"\{\{,)\}\}(3\,","")`. -/
def Block.selfReproducing : Block where
  content := ['\\', '{', '\\', '{', ',', ')', '\\', '}', '\\', '}', '(', '3', '\\', ',', '"', ',',
    '"', ')']
  digits := ['3']
  clause := some
    { gap := []
      quote := .double
      body := ['\\', '{', '\\', '{', ',', ')', '\\', '}', '\\', '}', '(', '3', '\\', ',', '"', ',',
        '"'] }

namespace Text

theorem applies_pieces_iff (s : Text) :
    Piece.Applies s.pieces ↔ ∃ r ∈ s.reports, r.outcome ≠ .unchanged := by
  constructor
  · rintro ⟨b, hb, houtcome⟩
    obtain ⟨start, hmem⟩ := Piece.exists_mem_occurrences 0 hb
    exact ⟨_, List.mem_map_of_mem hmem, houtcome⟩
  · rintro ⟨r, hr, houtcome⟩
    obtain ⟨o, ho, rfl⟩ := List.mem_map.1 hr
    obtain ⟨before, after, hpieces, -⟩ := Piece.exists_of_mem_occurrences ho
    refine ⟨o.block, ?_, houtcome⟩
    rw [hpieces]
    exact List.mem_append_right _ List.mem_cons_self

theorem resolve_of_unchanged (picker : Picker σ) {s : Text}
    (h : ∀ r ∈ s.reports, r.outcome = .unchanged) : s.resolve picker = pure s := by
  have hnot : ¬Piece.Applies s.pieces := by
    rw [applies_pieces_iff]
    rintro ⟨r, hr, houtcome⟩
    exact houtcome (h r hr)
  rw [resolve, Piece.resolveAll_of_not_applies picker hnot, textOf_pieces]

/-- Resolving a prompt from the state `g` has the picker give these answers, one for
each substituted block. -/
structure ResolvesBy (picker : Picker σ) (s : Text) (g : σ) (answers : List (List Text)) :
    Prop where
  /-- Noting the answers changes neither the text nor the final state. -/
  run : (s.resolve (Picker.noting picker.remembering)).run (g, []) =
    (((s.resolve picker).run g).1, ((s.resolve picker).run g).2, answers)
  blocks : answers.length = (s.reports.filter (·.outcome = .substituted)).length

theorem resolvesBy_notes (picker : Picker σ) (s : Text) (g : σ) :
    s.ResolvesBy picker g ((Report.notes picker.remembering s.reports).run g).1 where
  run := by
    rw [run_resolve_noting, Picker.plain_remembering]
  blocks := by
    rw [Report.length_run_notes, Report.questions, List.length_map]

theorem ResolvesBy.shrinks {picker : Picker σ} (hlawful : picker.Lawful) {s : Text} {g : σ}
    {answers : List (List Text)} (h : s.ResolvesBy picker g answers)
    (hfew : ∀ items ∈ answers, items.length ≤ 2) :
    Shrinks (∃ r ∈ s.reports, r.outcome ≠ .unchanged) s ((s.resolve picker).run g).1 := by
  obtain ⟨answers', hanswers, hshrinks⟩ := Piece.shrinks_resolveAll hlawful s.pieces g []
  rw [← resolve, List.nil_append, h.run] at hanswers
  rw [← resolve, textOf_pieces, h.run, applies_pieces_iff] at hshrinks
  obtain rfl : answers = answers' := hanswers
  exact hshrinks hfew

/-- When a resolution counts as changed. It does not if every block stays as written,
and the prompt is then given back. It does if some block applies and none gives way
to more than two items, and it is then shorter than the prompt. Three items are too
many: a block may give way to three that read as the block itself. -/
theorem changed_up_to_two_items {picker : Picker σ} (hlawful : picker.Lawful) (s : Text)
    (g : σ) :
    let resolved := ((s.resolve picker).run g).1
    ((∀ r ∈ s.reports, r.outcome = .unchanged) →
      resolved = s ∧ Resolution.changed ⟨s, resolved⟩ = false) ∧
    (∃ answers, s.ResolvesBy picker g answers ∧
      ((∀ items ∈ answers, items.length ≤ 2) → (∃ r ∈ s.reports, r.outcome ≠ .unchanged) →
        resolved.utf8Size < s.utf8Size ∧ Resolution.changed ⟨s, resolved⟩ = true)) ∧
    ∃ (t : Text) (r : Report) (items : List Text), t.reports = [r] ∧ r.outcome = .substituted ∧
      t.ResolvesBy Picker.first () [items] ∧ items.length = 3 ∧
      t.preview = t ∧ (Resolution.preview t).changed = false := by
  intro resolved
  refine ⟨?_, ⟨_, resolvesBy_notes picker s g, ?_⟩, ?_⟩
  · intro hunchanged
    have hresolved : resolved = s := by
      simp only [resolved, resolve_of_unchanged picker hunchanged, run_state_pure]
    exact ⟨hresolved, by simp [Resolution.changed, hresolved]⟩
  · intro hfew happlies
    have hshorter : resolved.utf8Size < s.utf8Size :=
      ((resolvesBy_notes picker s g).shrinks hlawful hfew).lt happlies
    have hne : s ≠ resolved := by
      intro heq
      rw [← heq] at hshorter
      exact Nat.lt_irrefl _ hshorter
    exact ⟨hshorter, decide_eq_true hne⟩
  · have hpreview : preview Block.selfReproducing.text = Block.selfReproducing.text := by
      decide +kernel
    have hreports : reports Block.selfReproducing.text =
        [Occurrence.report ⟨0, Block.selfReproducing⟩] := by
      decide +kernel
    have hresolves := resolvesBy_notes Picker.first Block.selfReproducing.text ()
    rw [hreports] at hresolves
    refine ⟨Block.selfReproducing.text, Occurrence.report ⟨0, Block.selfReproducing⟩,
      Block.selfReproducing.candidates, hreports, ?_, hresolves, ?_, hpreview, ?_⟩
    · decide
    · decide
    · simp [Resolution.preview, Resolution.changed, hpreview]

/-- A block without items stays. One that gives way to two, with its separator
between them, is shortened, and one that wants none vanishes. -/
theorem changed_up_to_two_items_first :
    let s : Text := ['x', '{', '{', ' ', '}', '}', '(', '1', ')']
    let t : Text := ['{', '{', 'a', ',', 'b', '}', '}', '(', '2', ',', '\'', '-', '-', '\'', ')',
      '{', '{', 'c', '}', '}', '(', '0', ')']
    s.preview = s ∧ Picker.first.Lawful ∧
      (∃ r ∈ t.reports, r.outcome ≠ .unchanged) ∧
      t.preview.utf8Size < t.utf8Size ∧ (Resolution.preview t).changed = true := by
  intro s t
  have hunchanged : ∀ r ∈ s.reports, r.outcome = .unchanged := by decide +kernel
  have happlies : ∃ r ∈ t.reports, r.outcome ≠ .unchanged := by decide +kernel
  have hkept := (changed_up_to_two_items Picker.lawful_first s ()).1 hunchanged
  obtain ⟨answers, hresolves, hshorter⟩ :=
    (changed_up_to_two_items Picker.lawful_first t ()).2.1
  have hanswers : answers = [[['a'], ['b']]] := by
    refine (congrArg (·.2.2) hresolves.run).symm.trans ?_
    decide +kernel
  have hfew : ∀ items ∈ answers, items.length ≤ 2 := by
    rw [hanswers]
    decide
  exact ⟨hkept.1, Picker.lawful_first, happlies, hshorter hfew happlies⟩

end Text

end PromptDraw
