import PromptDraw.Proofs.Block.Layout
import PromptDraw.Proofs.Prompt.Replacement
import PromptDraw.Proofs.Prompt.RoundTrip

/-!
Layout inside a block is irrelevant to the prompt around it and to what becomes of the
block. What starts before the block reads it alike with and without the layout, so all
other blocks stay, and the block stands for the same candidates, count and separator.
-/

namespace PromptDraw

namespace Text

/-- Layout inside a block is irrelevant. Runs of it may be put behind the opening braces of
a block with candidates, before and behind each comma that divides its content, and before
the closing braces, all at once, and the blank characters in front of its separator may be
any. The preview stays, and so do the random expansion and the final state from every
state, as with every other picker; the block keeps its candidates, its count and its
separator, and every other block stays as it is. -/
theorem layout_is_irrelevant {s : Text} {o : Occurrence} (ho : o ∈ s.occurrences)
    (hcandidates : o.block.candidates ≠ []) {b : Block} (hspaced : o.block.Spaced b) :
    let edited := s.replaceBlock o b
    edited.preview = s.preview ∧
      (∀ {σ : Type} [IndexSource σ], (expand edited : StateM σ Text) = s.expand) ∧
      (∀ {σ : Type} (picker : Picker σ), edited.resolve picker = s.resolve picker) ∧
      b.candidates = o.block.candidates ∧ b.count = o.block.count ∧
      b.rawSeparator = o.block.rawSeparator ∧ b.separator = o.block.separator ∧
      ∃ earlier later later', s.occurrences = earlier ++ o :: later ∧
        edited.occurrences = earlier ++ ⟨o.start, b⟩ :: later' ∧
        List.Forall₂ (fun before after => after.block = before.block ∧
          after.start + o.block.utf8Size = before.start + b.utf8Size) later later' := by
  intro edited
  obtain ⟨ps, qs, hpieces, hstart⟩ := Piece.exists_of_mem_occurrences ho
  rw [Nat.zero_add] at hstart
  have hwell : o.block.WellFormed := by
    obtain ⟨-, -, -, hwell, -⟩ := exists_of_mem_occurrences ho
    exact hwell
  have hwell' := hspaced.wellFormed hwell
  have hscan := hspaced.sameScan hwell
  have hresolve {σ : Type} (picker : Picker σ) : edited.resolve picker = s.resolve picker := by
    refine resolve_replaceBlock hpieces hstart hwell' hscan ?_
    refine (Block.resolve_congr ?_ ?_ ?_ hcandidates picker).symm
    · exact hspaced.candidates_eq.symm
    · exact hspaced.count_eq.symm
    · exact hspaced.separator_eq.symm
  refine ⟨?_, hresolve Picker.random, hresolve, hspaced.candidates_eq, hspaced.count_eq,
    hspaced.rawSeparator_eq, hspaced.separator_eq, ?_⟩
  · rw [preview, preview, hresolve Picker.first]
  · exact exists_moved_occurrences hpieces hstart hwell' hscan

/-- The content of the block ends in a backslash, one of its commas does not divide, and an
unfinished separator reads over it; a block follows. -/
theorem layout_is_irrelevant_in_open_separator :
    let block : Block :=
      ⟨['a', ',', 'b', '\\', ',', 'c', '\\'], ['2'], some ⟨[], .double, ['-']⟩⟩
    let b : Block := ⟨['\n', 'a', '\t', ',', ' ', ' ', 'b', '\\', ',', 'c', '\\', '\r', '\n'],
      ['2'], some ⟨['\u3000', '\n'], .double, ['-']⟩⟩
    let s : Text := ['{', '{', 'x', '}', '}', '(', '1', ',', '\''] ++ block.text ++
      ['{', '{', 'd', '}', '}', '(', '1', ')']
    ⟨9, block⟩ ∈ s.occurrences ∧ block.candidates ≠ [] ∧ block.Spaced b ∧
      (s.replaceBlock ⟨9, block⟩ b).preview = s.preview := by
  intro block b s
  have hmem : ⟨9, block⟩ ∈ s.occurrences := by decide +kernel
  have hcandidates : block.candidates ≠ [] := by decide
  have hspaced : block.Spaced b := by
    refine ⟨⟨['\n'], ['a', '\t', ',', ' ', ' ', 'b', '\\', ',', 'c', '\\', '\r', '\n'], ?_, rfl, ?_⟩,
      rfl, .some ⟨?_, rfl, rfl⟩⟩
    · simp [isLayout]
    · have hend : Spaced true [] ['\r', '\n'] := .nil (by simp [isLayout])
      have hrest : Spaced false ['b', '\\', ',', 'c', '\\'] ['b', '\\', ',', 'c', '\\', '\r', '\n'] :=
        .char (by decide) (.char (by decide) (.char (fun _ => rfl) (.char (by decide)
          (.char (by decide) hend))))
      have hbefore : ∀ c ∈ ['\t'], isLayout c = true := by simp [isLayout]
      have hafter : ∀ c ∈ [' ', ' '], isLayout c = true := by simp [isLayout]
      exact .char (by decide) (.comma hbefore hafter hrest)
    · simp [isBlank]
  exact ⟨hmem, hcandidates, hspaced, (layout_is_irrelevant hmem hcandidates hspaced).1⟩

end Text

end PromptDraw
