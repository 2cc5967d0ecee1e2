import PromptDraw.Prompt.Leftmost
import PromptDraw.Proofs.Prompt.Pieces

/-!
A search finds exactly the leftmost blocks: the first place where a correctly
written block starts, then the first one behind that block, and so on. The
grammar says nothing of reading, so no block is missed and none is made up.
-/

namespace PromptDraw

namespace Text

/-- The rule for braces said of the whole content at once: each one stands
directly behind a backslash, which for the first character is `escaped`. -/
theorem isContent_iff {escaped : Bool} {w : Text} :
    IsContent escaped w ↔
      ∀ u c v, w = u ++ c :: v → IsBrace c →
        (u = [] ∧ escaped = true) ∨ u.getLast? = some '\\' := by
  induction w generalizing escaped with
  | nil => simp [IsContent.nil]
  | cons d w ih =>
      constructor
      · rintro (_ | ⟨hd, hrest⟩) u c v heq hbrace
        cases u with
        | nil =>
            simp only [List.nil_append, List.cons.injEq] at heq
            exact .inl ⟨rfl, hd (heq.1 ▸ hbrace)⟩
        | cons e u =>
            simp only [List.cons_append, List.cons.injEq] at heq
            obtain ⟨rfl, rfl⟩ := heq
            rcases ih.1 hrest u c v rfl hbrace with ⟨rfl, he⟩ | hlast
            · exact .inr (by simpa using he)
            · exact .inr (by simp [List.getLast?_cons, hlast])
      · intro h
        refine .cons (fun hbrace => by simpa using h [] d w rfl hbrace) (ih.2 ?_)
        rintro u c v rfl hbrace
        have houter := h (d :: u) c v rfl hbrace
        cases u with
        | nil => simpa using houter
        | cons f u => simpa [List.getLast?_cons] using houter

/-- Where no block starts before `s`, every character before it stays a piece of
its own. -/
theorem pieces_of_noneBefore {gap s : Text} (h : NoneBefore (gap ++ s) s) :
    (gap ++ s).pieces = gap.map .char ++ s.pieces := by
  induction gap with
  | nil => simp
  | cons c gap ih =>
      have hnone : Block.read? (c :: (gap ++ s)) = none := by
        cases hread : Block.read? (c :: (gap ++ s)) with
        | none => rfl
        | some result =>
            obtain ⟨b, after⟩ := result
            have hstarts := Block.read?_eq_some_iff.1 hread
            have hlength : s.length < (c :: (gap ++ s)).length := by
              rw [List.length_cons, List.length_append]
              omega
            exact absurd hstarts (h [] (c :: (gap ++ s)) after b rfl hlength)
      have hrest : NoneBefore (gap ++ s) s := by
        intro gap' inner after b heq hlength
        exact h (c :: gap') inner after b (by simp [heq]) hlength
      simp [pieces_cons hnone, ih hrest]

theorem Leftmost.occurrences_eq {offset : Nat} {s : Text} {found : List Occurrence}
    (h : Leftmost offset s found) : Piece.occurrences offset s.pieces = found := by
  induction h with
  | @none offset s absent =>
      have habsent : NoneBefore (s ++ []) [] := by simpa using absent
      have hpieces := pieces_of_noneBefore habsent
      simp only [List.append_nil, pieces_nil] at hpieces
      simp [hpieces]
  | found hstarts hleftmost _ ih =>
      rw [pieces_of_noneBefore hleftmost, pieces_of_starts hstarts, Piece.occurrences_append]
      simp [Piece.occurrences, ih]

theorem noneBefore_cons {c : Char} {s rest : Text} (hnone : Block.read? (c :: s) = none)
    (h : NoneBefore s rest) : NoneBefore (c :: s) rest := by
  intro gap inner after b heq hlength hstarts
  cases gap with
  | nil =>
      rw [List.nil_append] at heq
      rw [← heq, ← Block.read?_eq_some_iff, hnone] at hstarts
      cases hstarts
  | cons d gap =>
      simp only [List.cons_append, List.cons.injEq] at heq
      exact h gap inner after b heq.2 hlength hstarts

/-- A character at which no block starts joins the gap before the next block. -/
theorem Leftmost.cons {offset : Nat} {c : Char} {s : Text} {found : List Occurrence}
    (hnone : Block.read? (c :: s) = Option.none) (h : Leftmost (offset + c.utf8Size) s found) :
    Leftmost offset (c :: s) found := by
  cases h with
  | none absent => exact .none (noneBefore_cons hnone absent)
  | @found _ gap s rest b others hstarts hleftmost hothers =>
      have hsize : offset + c.utf8Size + gap.utf8Size = offset + utf8Size (c :: gap) := by
        simp [Nat.add_assoc]
      rw [hsize] at hothers ⊢
      have hgap : NoneBefore ((c :: gap) ++ s) s := noneBefore_cons hnone hleftmost
      exact .found hstarts hgap hothers

theorem leftmost_occurrences (offset : Nat) (s : Text) :
    Leftmost offset s (Piece.occurrences offset s.pieces) := by
  induction s using pieces.induct generalizing offset with
  | case1 s b rest hread ih =>
      have hstarts := Block.read?_eq_some_iff.1 hread
      have hleftmost : NoneBefore ([] ++ s) s := by
        intro gap inner after b' heq hlength
        have := congrArg List.length heq
        simp at this
        omega
      rw [pieces_of_read? hread]
      exact .found hstarts hleftmost (ih _)
  | case2 =>
      rw [pieces_nil]
      refine .none ?_
      intro gap inner after b heq hlength
      simp only [List.nil_eq, List.append_eq_nil_iff] at heq
      simp [heq.2] at hlength
  | case3 c s hread ih =>
      rw [pieces_cons hread]
      exact .cons hread (ih _)

/-- The two ways in which a correctly written block goes on behind its numeral,
and the separator that it has in each. -/
theorem rawSeparator_cases {b : Block} (h : b.WellFormed) :
    (b.rawSeparator = none ∧
        b.text = ['{', '{'] ++ b.content ++ ['}', '}', '('] ++ b.digits ++ [')']) ∨
      ∃ gap q body, b.rawSeparator = some body ∧
        (∀ c ∈ gap, isBlank c = true) ∧ Clause.IsBody (Quote.char q) body ∧
        b.text = ['{', '{'] ++ b.content ++ ['}', '}', '('] ++ b.digits ++
          [','] ++ gap ++ [q.char] ++ body ++ [q.char, ')'] := by
  cases hclause : b.clause with
  | none =>
      left
      simp [Block.rawSeparator, Block.text, Block.tailText, hclause]
  | some clause =>
      right
      have hwell := h.clause clause hclause
      refine ⟨clause.gap, clause.quote, clause.body, ?_, hwell.gap, hwell.body, ?_⟩
      · simp [Block.rawSeparator, hclause]
      · simp [Block.text, Block.tailText, Clause.text, hclause]

/-- A search finds exactly the leftmost blocks. The span of each holds its
written form; no other block can be read at its place, so none with a shorter
content; every brace in its content is escaped; its count is the number written,
up to the largest one; and its separator is the body between the quotes, if it
has one. -/
theorem occurrences_exactly_leftmost (s : Text) :
    (∀ found, s.occurrences = found ↔ Leftmost 0 s found) ∧
      ∀ o ∈ s.occurrences, ∃ before after,
        s = before ++ o.block.text ++ after ∧
        o.start = before.utf8Size ∧ o.stop = (before ++ o.block.text).utf8Size ∧
        o.block.Starts (o.block.text ++ after) after ∧
        (∀ b rest, b.Starts (o.block.text ++ after) rest → b = o.block ∧ rest = after) ∧
        (∀ u c v, o.block.content = u ++ c :: v → IsBrace c → u.getLast? = some '\\') ∧
        o.block.count = min (Nat.ofDigitChars 10 o.block.digits 0) (UInt64.size - 1) ∧
        ((o.block.rawSeparator = none ∧ o.block.text =
            ['{', '{'] ++ o.block.content ++ ['}', '}', '('] ++ o.block.digits ++ [')']) ∨
          ∃ gap q body, o.block.rawSeparator = some body ∧
            (∀ c ∈ gap, isBlank c = true) ∧ Clause.IsBody (Quote.char q) body ∧
            o.block.text = ['{', '{'] ++ o.block.content ++ ['}', '}', '('] ++ o.block.digits ++
              [','] ++ gap ++ [q.char] ++ body ++ [q.char, ')']) := by
  constructor
  · intro found
    constructor
    · rintro rfl
      exact leftmost_occurrences 0 s
    · exact Leftmost.occurrences_eq
  · intro o ho
    obtain ⟨before, after, hs, hwell, hstart, hstop⟩ := exists_of_mem_occurrences ho
    have hstarts : o.block.Starts (o.block.text ++ after) after := ⟨hwell, rfl⟩
    refine ⟨before, after, hs, hstart, hstop, hstarts, ?_, ?_, rfl, rawSeparator_cases hwell⟩
    · intro b rest h
      exact h.unique hstarts
    · intro u c v heq hbrace
      simpa using isContent_iff.1 hwell.content u c v heq hbrace

end Text

end PromptDraw
