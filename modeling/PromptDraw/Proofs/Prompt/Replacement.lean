import Mathlib.Data.List.Forall2
import PromptDraw.Proofs.Block.Overlap
import PromptDraw.Proofs.Prompt.Concatenation
import PromptDraw.Proofs.Prompt.Draws

/-!
Another block in the place of one. If every search for the end of a separator runs
through the two alike, then nothing that starts earlier is read differently, and
what stands behind was never read from before the block's end. So the other pieces
of the prompt stay, and only their offsets move. In particular the numeral of a
block can be any other of the same weight: one that asks for as many of the
candidates as there are.
-/

namespace PromptDraw

variable {σ : Type}

namespace Text

theorem starts_of_pieces {s : Text} {b : Block} {qs : List Piece}
    (h : s.pieces = .block b :: qs) : ∃ rest, b.Starts s rest ∧ qs = rest.pieces := by
  cases hread : Block.read? s with
  | some result =>
      obtain ⟨b', rest⟩ := result
      rw [pieces_of_read? hread] at h
      obtain ⟨hblock, hrest⟩ := List.cons.inj h
      cases hblock
      exact ⟨rest, Block.read?_eq_some_iff.1 hread, hrest.symm⟩
  | none =>
      cases s with
      | nil =>
          rw [pieces_nil] at h
          cases h
      | cons c s =>
          rw [pieces_cons hread] at h
          cases (List.cons.inj h).1

theorem eq_cons_of_pieces {s : Text} {c : Char} {qs : List Piece}
    (h : s.pieces = .char c :: qs) :
    ∃ rest : Text, s = c :: rest ∧ Block.read? (c :: rest) = none ∧ qs = rest.pieces := by
  cases hread : Block.read? s with
  | some result =>
      rw [pieces_of_read? hread] at h
      cases (List.cons.inj h).1
  | none =>
      cases s with
      | nil =>
          rw [pieces_nil] at h
          cases h
      | cons d s =>
          rw [pieces_cons hread] at h
          obtain ⟨hchar, hrest⟩ := List.cons.inj h
          cases hchar
          exact ⟨s, rfl, hread, hrest.symm⟩

/-- The induction is on the pieces before the block. Where a block stands there,
it is read without regard to what follows; where a character stands, no block must
start there after the exchange. -/
theorem pieces_replace {b b' : Block} (hb' : b'.WellFormed)
    (hscan : Clause.SameScan b.text b'.text) {ps qs : List Piece} {s : Text}
    (h : s.pieces = ps ++ .block b :: qs) :
    (Piece.textOf ps ++ (b'.text ++ Piece.textOf qs)).pieces = ps ++ .block b' :: qs := by
  induction ps generalizing s with
  | nil =>
      obtain ⟨rest, -, rfl⟩ := starts_of_pieces h
      have hstarts : b'.Starts (b'.text ++ rest) rest := ⟨hb', rfl⟩
      rw [textOf_pieces, Piece.textOf_nil, List.nil_append, pieces_of_starts hstarts]
      rfl
  | cons p ps ih =>
      rw [List.cons_append] at h
      cases p with
      | char c =>
          obtain ⟨rest, -, hread, hrest⟩ := eq_cons_of_pieces h
          have htext : rest = Piece.textOf ps ++ (b.text ++ Piece.textOf qs) := by
            rw [← textOf_pieces rest, ← hrest, Piece.textOf_append]
            rfl
          have hnone : Block.read?
              ((c :: Piece.textOf ps) ++ (b'.text ++ Piece.textOf qs)) = none := by
            refine Block.read?_eq_none_of_sameScan hscan (List.cons_ne_nil _ _) ?_
            rw [List.cons_append, ← htext]
            exact hread
          exact (pieces_cons hnone).trans (congrArg (Piece.char c :: ·) (ih hrest.symm))
      | block b₀ =>
          obtain ⟨rest, hstarts, hrest⟩ := starts_of_pieces h
          have hstarts' : b₀.Starts
              (b₀.text ++ (Piece.textOf ps ++ (b'.text ++ Piece.textOf qs)))
              (Piece.textOf ps ++ (b'.text ++ Piece.textOf qs)) := ⟨hstarts.1, rfl⟩
          rw [Piece.textOf_cons, List.append_assoc]
          exact (pieces_of_starts hstarts').trans
            (congrArg (Piece.block b₀ :: ·) (ih hrest.symm))

/-- A prompt with another block in the place of one of its occurrences. -/
def replaceBlock (s : Text) (o : Occurrence) (b : Block) : Text :=
  s.takeBytes o.start ++ b.text ++ s.dropBytes o.stop

theorem replaceBlock_eq {s : Text} {o : Occurrence} {ps qs : List Piece}
    (h : s.pieces = ps ++ .block o.block :: qs) (hstart : o.start = (Piece.textOf ps).utf8Size)
    (b : Block) : s.replaceBlock o b = Piece.textOf ps ++ (b.text ++ Piece.textOf qs) := by
  have hs : s = Piece.textOf ps ++ (o.block.text ++ Piece.textOf qs) := by
    rw [← textOf_pieces s, h, Piece.textOf_append]
    rfl
  have hstop : o.stop = utf8Size (Piece.textOf ps ++ o.block.text) := by
    rw [utf8Size_append, Occurrence.stop, hstart]
    rfl
  have htake : s.takeBytes o.start = Piece.textOf ps := by
    rw [hstart, hs, takeBytes_append]
  have hdrop : s.dropBytes o.stop = Piece.textOf qs := by
    rw [hstop, hs, ← List.append_assoc, dropBytes_append]
  rw [replaceBlock, htake, hdrop, List.append_assoc]

/-- Exchanging a block for one that is scanned alike: the occurrences before stay,
and those behind are as far from the end of the new block as from that of the old. -/
theorem occurrences_replaceBlock {s : Text} {ps qs : List Piece} {o : Occurrence} {b : Block}
    (h : s.pieces = ps ++ .block o.block :: qs) (hstart : o.start = (Piece.textOf ps).utf8Size)
    (hb : b.WellFormed) (hscan : Clause.SameScan o.block.text b.text) :
    ∃ earlier later : List Occurrence,
      s.occurrences = earlier ++ o :: later.map (Occurrence.shift o.stop) ∧
      (s.replaceBlock o b).occurrences =
        earlier ++ ⟨o.start, b⟩ :: later.map (Occurrence.shift (Occurrence.mk o.start b).stop) := by
  refine ⟨Piece.occurrences 0 ps, Piece.occurrences 0 qs, ?_, ?_⟩
  · rw [occurrences, h, Piece.occurrences_append, Nat.zero_add, ← hstart, Piece.occurrences,
      Piece.occurrences_eq_shift (o.start + o.block.utf8Size)]
    rfl
  · rw [replaceBlock_eq h hstart, occurrences, pieces_replace hb hscan h,
      Piece.occurrences_append, Nat.zero_add, ← hstart, Piece.occurrences,
      Piece.occurrences_eq_shift (o.start + b.utf8Size)]
    rfl

/-- Another block that is scanned alike takes the place of a block: it stands where that
one stood, those before it stay, and those behind move by the difference in size. -/
theorem exists_moved_occurrences {s : Text} {o : Occurrence} {ps qs : List Piece} {b : Block}
    (h : s.pieces = ps ++ .block o.block :: qs) (hstart : o.start = (Piece.textOf ps).utf8Size)
    (hb : b.WellFormed) (hscan : Clause.SameScan o.block.text b.text) :
    ∃ earlier later later', s.occurrences = earlier ++ o :: later ∧
      (s.replaceBlock o b).occurrences = earlier ++ ⟨o.start, b⟩ :: later' ∧
      List.Forall₂ (fun before after => after.block = before.block ∧
        after.start + o.block.utf8Size = before.start + b.utf8Size) later later' := by
  obtain ⟨earlier, later, hbefore, hafter⟩ := occurrences_replaceBlock h hstart hb hscan
  refine ⟨earlier, _, _, hbefore, hafter, ?_⟩
  rw [List.forall₂_map_left_iff, List.forall₂_map_right_iff, List.forall₂_same]
  intro o' _
  refine ⟨rfl, ?_⟩
  simp only [Occurrence.start_shift, Occurrence.stop]
  omega

theorem resolve_replaceBlock {s : Text} {ps qs : List Piece} {o : Occurrence} {b : Block}
    (h : s.pieces = ps ++ .block o.block :: qs) (hstart : o.start = (Piece.textOf ps).utf8Size)
    (hb : b.WellFormed) (hscan : Clause.SameScan o.block.text b.text) {picker : Picker σ}
    (hresolve : b.resolve picker = o.block.resolve picker) :
    (s.replaceBlock o b).resolve picker = s.resolve picker := by
  rw [replaceBlock_eq h hstart, resolve, resolve, pieces_replace hb hscan h, h,
    Piece.resolveAll_append, Piece.resolveAll_append, Piece.resolveAll, Piece.resolveAll,
    Piece.resolve, Piece.resolve, hresolve]

end Text

namespace Picker

/-- A picker to which a count beyond the number of candidates means all of them. -/
def Capped (picker : Picker σ) : Prop :=
  ∀ candidates count, picker candidates count = picker candidates (min count candidates.length)

theorem capped_first : Capped first := by
  intro candidates count
  simp only [first, ← List.take_eq_take_min]

theorem capped_random [IndexSource σ] : Capped (random (σ := σ)) := by
  intro candidates count
  simp only [random, shuffle, bind_assoc, pure_bind]
  refine bind_congr fun plan => ?_
  have hlength : plan.apply.length = candidates.length := plan.apply_perm.length_eq
  rw [List.take_eq_take_min, hlength]

end Picker

namespace Block

theorem outcome_ne_unchanged {b : Block} (h : b.candidates ≠ []) : b.outcome ≠ .unchanged := by
  unfold outcome
  rw [if_neg h]
  split
  · exact Outcome.noConfusion
  · exact Outcome.noConfusion

/-- What becomes of a block that has candidates depends on its count only through
how many of them it asks for. -/
theorem resolve_of_min_count {b b' : Block} {picker : Picker σ} (hpicker : picker.Capped)
    (hcandidates : b.candidates = b'.candidates) (hseparator : b.separator = b'.separator)
    (hcount : min b.count b'.candidates.length = min b'.count b'.candidates.length)
    (hne : b'.candidates ≠ []) : b.resolve picker = b'.resolve picker := by
  have hpositive : 0 < b'.candidates.length := List.length_pos_iff.2 hne
  have hzero : b.count = 0 ↔ b'.count = 0 := by omega
  have houtcome : b.outcome = b'.outcome := by simp only [outcome, hcandidates, hzero]
  have hpicked : picker b.candidates b.count = picker b'.candidates b'.count := by
    rw [hcandidates, hpicker, hcount, ← hpicker]
  cases hcase : b'.outcome with
  | unchanged => exact absurd hcase (outcome_ne_unchanged hne)
  | empty => simp only [resolve, houtcome, hcase]
  | substituted => simp only [resolve, houtcome, hcase, hpicked, hseparator]

variable {b : Block} {digits : Text}

theorem min_count_digits {n : Nat}
    (h : min (Nat.ofDigitChars 10 digits 0) n = min (Nat.ofDigitChars 10 b.digits 0) n) :
    min ({ b with digits := digits } : Block).count n = min b.count n := by
  simp only [count]
  omega

theorem wellFormed_digits (hb : b.WellFormed) (hne : digits ≠ [])
    (hdigits : ∀ c ∈ digits, c.isDigit = true) :
    ({ b with digits := digits } : Block).WellFormed :=
  ⟨hb.content, hne, hdigits, hb.clause⟩

theorem sameScan_digits (hb : b.WellFormed) (hne : digits ≠ [])
    (hdigits : ∀ c ∈ digits, c.isDigit = true) :
    Clause.SameScan b.text ({ b with digits := digits } : Block).text := by
  have hplain : ∀ c ∈ b.digits ++ digits, c ≠ '\\' ∧ c ≠ '\'' ∧ c ≠ '"' ∧ c ≠ ')' := by
    intro c hc
    have hdigit : c.isDigit = true := (List.mem_append.1 hc).elim (hb.digits c) (hdigits c)
    refine ⟨?_, ?_, ?_, ?_⟩
    all_goals
      rintro rfl
      exact absurd hdigit (by decide)
  have hscan := Clause.sameScan_of_plain ('{' :: '{' :: (b.content ++ ['}', '}', '(']))
    ((b.clause.map Clause.text).getD [] ++ [')']) hb.digits_ne_nil hne hplain
  simpa [text, tailText] using hscan

theorem utf8Size_digits (b : Block) (digits : Text) :
    ({ b with digits := digits } : Block).utf8Size + b.digits.utf8Size =
      b.utf8Size + digits.utf8Size := by
  simp only [utf8Size, text, tailText, Text.utf8Size_append]
  omega

end Block

namespace Text

/-- Of the number in a block only so much matters as there are candidates. Any
other numeral that asks for as many of them, however long, gives the same preview
and, from every state, the same random expansion and final state. The blocks
before it stay, and those behind it move by the difference in length. -/
theorem digits_matter_up_to_candidates {s : Text} {o : Occurrence} (ho : o ∈ s.occurrences)
    (hcandidates : o.block.candidates ≠ []) {digits : Text} (hne : digits ≠ [])
    (hdigits : ∀ c ∈ digits, c.isDigit = true)
    (hsame : min (Nat.ofDigitChars 10 digits 0) o.block.candidates.length =
      min (Nat.ofDigitChars 10 o.block.digits 0) o.block.candidates.length) :
    let edited := s.replaceBlock o { o.block with digits := digits }
    edited.preview = s.preview ∧
      (∀ {σ : Type} [IndexSource σ], (expand edited : StateM σ Text) = s.expand) ∧
      ∃ earlier later later', s.occurrences = earlier ++ o :: later ∧
        edited.occurrences = earlier ++ ⟨o.start, { o.block with digits := digits }⟩ :: later' ∧
        List.Forall₂ (fun before after => after.block = before.block ∧
          after.start + o.block.digits.utf8Size = before.start + digits.utf8Size) later later' := by
  intro edited
  obtain ⟨ps, qs, hpieces, hstart⟩ := Piece.exists_of_mem_occurrences ho
  rw [Nat.zero_add] at hstart
  have hmem : .block o.block ∈ s.pieces := by
    rw [hpieces]
    exact List.mem_append_right _ List.mem_cons_self
  have hwell := wellFormed_of_mem_pieces hmem
  have hwell' := Block.wellFormed_digits hwell hne hdigits
  have hscan := Block.sameScan_digits hwell hne hdigits
  have hresolve {σ : Type} {picker : Picker σ} (hpicker : picker.Capped) :
      edited.resolve picker = s.resolve picker :=
    resolve_replaceBlock hpieces hstart hwell' hscan
      (Block.resolve_of_min_count hpicker rfl rfl (Block.min_count_digits hsame) hcandidates)
  refine ⟨?_, hresolve Picker.capped_random, ?_⟩
  · rw [preview, preview, hresolve Picker.capped_first]
  · obtain ⟨earlier, later, hbefore, hafter⟩ :=
      occurrences_replaceBlock hpieces hstart hwell' hscan
    refine ⟨earlier, _, _, hbefore, hafter, ?_⟩
    rw [List.forall₂_map_left_iff, List.forall₂_map_right_iff, List.forall₂_same]
    intro o' _
    have hsize := o.block.utf8Size_digits digits
    refine ⟨rfl, ?_⟩
    simp only [Occurrence.start_shift, Occurrence.stop]
    omega

/-- The numeral of a block over which an unfinished separator reads, exchanged for
one beyond every count; a block follows. -/
theorem digits_matter_up_to_candidates_in_open_separator :
    let block : Block := ⟨['a', ',', 'b'], ['0', '2'], none⟩
    let digits : Text := List.replicate 30 '9'
    let s : Text := ['{', '{', 'x', '}', '}', '(', '1', ',', '\''] ++ block.text ++
      ['{', '{', 'c', '}', '}', '(', '1', ')']
    ⟨9, block⟩ ∈ s.occurrences ∧ block.candidates ≠ [] ∧ digits ≠ [] ∧
      (∀ c ∈ digits, c.isDigit = true) ∧
      min (Nat.ofDigitChars 10 digits 0) block.candidates.length =
        min (Nat.ofDigitChars 10 block.digits 0) block.candidates.length ∧
      (s.replaceBlock ⟨9, block⟩ { block with digits := digits }).preview = s.preview := by
  intro block digits s
  have hmem : ⟨9, block⟩ ∈ s.occurrences := by decide +kernel
  have hcandidates : block.candidates ≠ [] := by decide
  have hne : digits ≠ [] := by decide
  have hdigits : ∀ c ∈ digits, c.isDigit = true := by
    intro c hc
    rw [List.eq_of_mem_replicate hc]
    decide
  have hsame : min (Nat.ofDigitChars 10 digits 0) block.candidates.length =
      min (Nat.ofDigitChars 10 block.digits 0) block.candidates.length := by decide +kernel
  exact ⟨hmem, hcandidates, hne, hdigits, hsame,
    (digits_matter_up_to_candidates hmem hcandidates hne hdigits hsame).1⟩

end Text

end PromptDraw
