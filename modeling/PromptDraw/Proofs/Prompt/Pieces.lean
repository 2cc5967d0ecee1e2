import PromptDraw.Prompt.Pieces
import PromptDraw.Proofs.Block.Reading

/-!
The pieces of a prompt and where they stand in it. Offsets count the bytes of
the pieces before, and every block among the pieces is correctly written.
-/

namespace PromptDraw

namespace Piece

@[simp] theorem textOf_nil : textOf [] = [] := rfl

@[simp] theorem textOf_cons (p : Piece) (ps : List Piece) :
    textOf (p :: ps) = p.text ++ textOf ps := rfl

@[simp] theorem textOf_append (ps qs : List Piece) :
    textOf (ps ++ qs) = textOf ps ++ textOf qs := by
  simp [textOf]

theorem occurrences_append (offset : Nat) (ps qs : List Piece) :
    occurrences offset (ps ++ qs) =
      occurrences offset ps ++ occurrences (offset + (textOf ps).utf8Size) qs := by
  induction ps generalizing offset with
  | nil => simp [occurrences]
  | cons p ps ih =>
      cases p with
      | char c => simp [occurrences, ih, text, Nat.add_assoc]
      | block b => simp [occurrences, ih, text, Block.utf8Size, Nat.add_assoc]

@[simp] theorem textOf_chars (s : Text) : textOf (s.map char) = s := by
  induction s with
  | nil => rfl
  | cons c s ih => simp [text, ih]

@[simp] theorem occurrences_chars (offset : Nat) (s : Text) :
    occurrences offset (s.map char) = [] := by
  induction s generalizing offset with
  | nil => rfl
  | cons c s ih => simp [occurrences, ih]

/-- An occurrence is a block among the pieces, standing behind the bytes of the
pieces before it. -/
theorem exists_of_mem_occurrences {offset : Nat} {ps : List Piece} {o : Occurrence}
    (h : o ∈ occurrences offset ps) :
    ∃ before after, ps = before ++ block o.block :: after ∧
      o.start = offset + (textOf before).utf8Size := by
  induction ps generalizing offset with
  | nil => simp [occurrences] at h
  | cons p ps ih =>
      cases p with
      | char c =>
          obtain ⟨before, after, rfl, hstart⟩ := ih h
          exact ⟨char c :: before, after, rfl, by simp [hstart, text, Nat.add_assoc]⟩
      | block b =>
          rcases List.mem_cons.1 h with rfl | hrest
          · exact ⟨[], ps, rfl, rfl⟩
          · obtain ⟨before, after, rfl, hstart⟩ := ih hrest
            exact ⟨block b :: before, after, rfl, by
              simp [hstart, text, Block.utf8Size, Nat.add_assoc]⟩

theorem exists_mem_occurrences (offset : Nat) {ps : List Piece} {b : Block}
    (h : block b ∈ ps) : ∃ start, ⟨start, b⟩ ∈ occurrences offset ps := by
  obtain ⟨before, after, rfl⟩ := List.append_of_mem h
  rw [occurrences_append]
  exact ⟨_, List.mem_append_right _ List.mem_cons_self⟩

theorem le_start_of_mem_occurrences {offset : Nat} {ps : List Piece} {o : Occurrence}
    (h : o ∈ occurrences offset ps) : offset ≤ o.start := by
  obtain ⟨before, after, -, hstart⟩ := exists_of_mem_occurrences h
  omega

theorem pairwise_occurrences (offset : Nat) (ps : List Piece) :
    (occurrences offset ps).Pairwise (fun o o' => o.stop ≤ o'.start) := by
  induction ps generalizing offset with
  | nil => exact .nil
  | cons p ps ih =>
      cases p with
      | char c => exact ih _
      | block b => exact .cons (fun o ho => le_start_of_mem_occurrences ho) (ih _)

end Piece

namespace Text

theorem pieces_of_starts {s rest : Text} {b : Block} (h : b.Starts s rest) :
    s.pieces = .block b :: rest.pieces :=
  pieces_of_read? (Block.read?_eq_some_iff.2 h)

theorem pieces_text {b : Block} (h : b.WellFormed) : b.text.pieces = [.block b] := by
  have hb : b.Starts b.text [] := ⟨h, by simp⟩
  rw [pieces_of_starts hb, pieces_nil]

theorem wellFormed_of_mem_pieces {s : Text} {b : Block} (h : .block b ∈ s.pieces) :
    b.WellFormed := by
  induction s using pieces.induct with
  | case1 s b' rest hread ih =>
      rw [pieces_of_read? hread] at h
      rcases List.mem_cons.1 h with heq | hrest
      · cases heq
        exact (Block.read?_eq_some_iff.1 hread).1
      · exact ih hrest
  | case2 => simp [pieces_nil] at h
  | case3 c s hread ih =>
      rw [pieces_cons hread] at h
      rcases List.mem_cons.1 h with heq | hrest
      · cases heq
      · exact ih hrest

/-- Where an occurrence stands: its span holds the written form of its block,
which is correctly written. -/
theorem exists_of_mem_occurrences {s : Text} {o : Occurrence} (h : o ∈ s.occurrences) :
    ∃ before after, s = before ++ o.block.text ++ after ∧ o.block.WellFormed ∧
      o.start = before.utf8Size ∧ o.stop = (before ++ o.block.text).utf8Size := by
  obtain ⟨before, after, hpieces, hstart⟩ := Piece.exists_of_mem_occurrences h
  have hs := textOf_pieces s
  have hmember : .block o.block ∈ s.pieces := by simp [hpieces]
  rw [hpieces] at hs
  refine ⟨Piece.textOf before, Piece.textOf after, ?_, wellFormed_of_mem_pieces hmember,
    by simpa using hstart, ?_⟩
  · simpa [Piece.text] using hs.symm
  · simp [Occurrence.stop, hstart, Block.utf8Size]

end Text

end PromptDraw
