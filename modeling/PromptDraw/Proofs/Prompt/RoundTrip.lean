import PromptDraw.Prompt.Expand
import PromptDraw.Proofs.Block.Writing
import PromptDraw.Proofs.Prompt.Splice

/-!
A written block, taken as a prompt, is reported as one block with the items, the
count and the separator it was written for. Conversely the candidates of every
report are items that can be written, so writing a report again gives a block
that resolves alike.
-/

namespace PromptDraw

variable {σ : Type}

namespace Block

theorem reports_text {b : Block} (h : b.WellFormed) :
    b.text.reports = [(Occurrence.mk 0 b).report] := by
  rw [Text.reports, Text.occurrences, Text.pieces_text h]
  rfl

theorem resolve_text {b : Block} (h : b.WellFormed) (picker : Picker σ) :
    b.text.resolve picker = b.resolve picker := by
  rw [Text.resolve, Text.pieces_text h]
  simp [Piece.resolveAll, Piece.resolve]

/-- What becomes of a block that has candidates depends on nothing but its
candidates, its count and its separator. -/
theorem resolve_congr {b b' : Block} (hcandidates : b.candidates = b'.candidates)
    (hcount : b.count = b'.count) (hseparator : b.separator = b'.separator)
    (hne : b.candidates ≠ []) (picker : Picker σ) : b.resolve picker = b'.resolve picker := by
  have hne' : b'.candidates ≠ [] := hcandidates ▸ hne
  by_cases hzero : b'.count = 0
  · simp [resolve, outcome, hcandidates, hcount, hne', hzero]
  · simp [resolve, outcome, hcandidates, hcount, hseparator, hne', hzero]

end Block

namespace Text

theorem reports_ofItems {items : List Text} {count : Nat} {gap : Text} {quote : Quote}
    {separator : Text} (hitems : ∀ item ∈ items, IsItem item)
    (hgap : ∀ c ∈ gap, isBlank c = true) :
    (Block.ofItems items count gap quote separator).text.reports =
      [{ start := 0
         stop := utf8Size (Block.ofItems items count gap quote separator).text
         text := (Block.ofItems items count gap quote separator).text
         count := min count (UInt64.size - 1)
         candidates := items
         separator := separator
         outcome :=
           if items = [] then .unchanged else if count = 0 then .empty else .substituted }] := by
  rw [Block.reports_text (Block.wellFormed_ofItems hgap)]
  simp [Occurrence.report, Occurrence.stop, Block.utf8Size, Block.candidates_ofItems hitems,
    Block.outcome_ofItems hitems, Block.maxCount]

theorem isItem_of_mem_report {s : Text} {r : Report} (hr : r ∈ s.reports) :
    ∀ item ∈ r.candidates, IsItem item := by
  obtain ⟨o, -, rfl⟩ := List.mem_map.1 hr
  exact fun item hitem => isItem_of_mem_candidates hitem

theorem count_le_of_mem_reports {s : Text} {r : Report} (hr : r ∈ s.reports) :
    r.count ≤ UInt64.size - 1 := by
  obtain ⟨o, -, rfl⟩ := List.mem_map.1 hr
  exact Nat.min_le_right _ _

theorem outcome_of_mem_reports {s : Text} {r : Report} (hr : r ∈ s.reports) :
    r.outcome =
      if r.candidates = [] then .unchanged else if r.count = 0 then .empty else .substituted := by
  obtain ⟨o, -, rfl⟩ := List.mem_map.1 hr
  rfl

/-- Writing a reported block again gives a block that every picker resolves
alike, unless the block has no candidates and stands for itself. -/
theorem resolve_ofItems_report {s : Text} {r : Report} (hr : r ∈ s.reports)
    (hne : r.candidates ≠ []) {gap : Text} (hgap : ∀ c ∈ gap, isBlank c = true) (quote : Quote)
    (picker : Picker σ) :
    (Block.ofItems r.candidates r.count gap quote r.separator).text.resolve picker =
      r.text.resolve picker := by
  have hitems := isItem_of_mem_report hr
  have hcount := Nat.min_eq_left (count_le_of_mem_reports hr)
  obtain ⟨o, ho, rfl⟩ := List.mem_map.1 hr
  obtain ⟨-, -, -, hwell, -, -⟩ := exists_of_mem_occurrences ho
  have htext := Block.resolve_text hwell picker
  rw [Block.resolve_text (Block.wellFormed_ofItems hgap)]
  refine Eq.trans ?_ htext.symm
  refine Block.resolve_congr ?_ ?_ Block.separator_ofItems ?_ picker
  · exact Block.candidates_ofItems hitems
  · exact Block.count_ofItems.trans hcount
  · rw [Block.candidates_ofItems hitems]
    exact hne

/-- Encoding and reading are inverse. A block written for any items, count and
separator is a prompt of one report, which gives them back, the count up to the
largest one. Every report of every prompt has candidates that can be written so,
and if it has any, the block written for it is reported and resolved alike: by a
preview, by random expansion from every state, and by every other picker. -/
theorem reports_round_trip :
    (∀ (items : List Text) (count : Nat) (gap : Text) (quote : Quote) (separator : Text),
      (∀ item ∈ items, item ≠ [] ∧ item.head? ≠ some ' ' ∧ item.getLast? ≠ some ' ') →
      (∀ c ∈ gap, isBlank c = true) →
      (Block.ofItems items count gap quote separator).text.reports =
        [{ start := 0
           stop := utf8Size (Block.ofItems items count gap quote separator).text
           text := (Block.ofItems items count gap quote separator).text
           count := min count (UInt64.size - 1)
           candidates := items
           separator := separator
           outcome :=
            if items = [] then .unchanged else if count = 0 then .empty else .substituted }]) ∧
    ∀ s : Text, ∀ r ∈ s.reports,
      (∀ item ∈ r.candidates, item ≠ [] ∧ item.head? ≠ some ' ' ∧ item.getLast? ≠ some ' ') ∧
      (r.candidates ≠ [] → ∀ (gap : Text) (quote : Quote), (∀ c ∈ gap, isBlank c = true) →
        let written := (Block.ofItems r.candidates r.count gap quote r.separator).text
        written.reports = [{ r with start := 0, stop := utf8Size written, text := written }] ∧
        preview written = r.text.preview ∧
        (∀ {σ : Type} [IndexSource σ], (expand written : StateM σ Text) = r.text.expand) ∧
        ∀ {σ : Type} (picker : Picker σ), resolve picker written = r.text.resolve picker) := by
  refine ⟨fun _ _ _ _ _ hitems hgap => reports_ofItems hitems hgap, ?_⟩
  intro s r hr
  refine ⟨isItem_of_mem_report hr, ?_⟩
  intro hne gap quote hgap written
  have hresolve {σ : Type} (picker : Picker σ) :
      resolve picker written = r.text.resolve picker :=
    resolve_ofItems_report hr hne hgap quote picker
  refine ⟨?_, ?_, hresolve Picker.random, hresolve⟩
  · rw [reports_ofItems (isItem_of_mem_report hr) hgap, outcome_of_mem_reports hr,
      Nat.min_eq_left (count_le_of_mem_reports hr)]
  · rw [preview, preview, hresolve]

/-- Items that look like notation, written with a wide blank and single quotes,
and written again without the blank and with double quotes. -/
theorem reports_awkward_items :
    let items : List Text := [['}', '}', '(', '1', ')'], ['\\'], ['\n']]
    let separator : Text := ['\'', ')']
    let written : Text :=
      ['{', '{', '\\', '}', '\\', '}', '(', '1', ')', ' ', ',', '\\', '\\', ' ', ',', '\\', 'n', ' ',
        '}', '}', '(', '2', ',', '\u3000', '\'', '\\', '\'', '\\', ')', '\'', ')']
    (∀ item ∈ items, item ≠ [] ∧ item.head? ≠ some ' ' ∧ item.getLast? ≠ some ' ') ∧
      (∀ c ∈ ['\u3000'], isBlank c = true) ∧
      written.reports = [⟨0, 33, written, 2, items, separator, .substituted⟩] ∧
      preview (Block.ofItems items 2 [] .double separator).text = preview written := by
  intro items separator written
  have hitems : ∀ item ∈ items, item ≠ [] ∧ item.head? ≠ some ' ' ∧ item.getLast? ≠ some ' ' := by
    decide
  have hgap : ∀ c ∈ ['\u3000'], isBlank c = true := List.forall_mem_singleton.2 (by decide)
  have htext : (Block.ofItems items 2 ['\u3000'] .single separator).text = written := by decide
  have hsize : utf8Size written = 33 := by decide
  have hreports := reports_round_trip.1 items 2 ['\u3000'] .single separator hitems hgap
  rw [htext, hsize] at hreports
  have hagain := (reports_round_trip.2 written _ (hreports ▸ List.mem_singleton_self _)).2
    (by decide) [] .double (by simp)
  exact ⟨hitems, hgap, hreports, hagain.2.1⟩

end Text

end PromptDraw
