import PromptDraw.Proofs.Block.ByteContent
import PromptDraw.Proofs.Block.Reading

/-!
Where the content of a block ends. A content may end at any of its characters, but two braces
and a parenthesis can follow only one of its ends: at a shorter content they would begin with
a brace of the longer one, and of two braces in a row the second stands behind no backslash.
So it makes no difference in which order the ends are tried.
-/

namespace PromptDraw

namespace Text

theorem isContent_cons_iff {escaped : Bool} {c : Char} {s : Text} :
    IsContent escaped (c :: s) ↔ (IsBrace c → escaped = true) ∧ IsContent (c == '\\') s := by
  constructor
  · rintro (_ | ⟨hbrace, hrest⟩)
    exact ⟨hbrace, hrest⟩
  · rintro ⟨hbrace, hrest⟩
    exact .cons hbrace hrest

instance (c : Char) : Decidable (IsBrace c) :=
  inferInstanceAs (Decidable (c = '{' ∨ c = '}'))

instance decidableIsContent : (escaped : Bool) → (s : Text) → Decidable (IsContent escaped s)
  | _, [] => .isTrue .nil
  | _, c :: s =>
    haveI := decidableIsContent (c == '\\') s
    decidable_of_iff' _ isContent_cons_iff

/-- What stands behind the beginning of a content is the content of a text that starts there. -/
theorem IsContent.exists_of_append {escaped : Bool} {u v : Text} (h : IsContent escaped (u ++ v)) :
    ∃ escaped', IsContent escaped' v := by
  induction u generalizing escaped with
  | nil => exact ⟨_, h⟩
  | cons c u ih => exact ih (isContent_cons_iff.1 h).2

theorem IsContent.eq_nil_of_tail {escaped : Bool} {w t t' : Text} (h : IsContent escaped w)
    (heq : w ++ '}' :: '}' :: '(' :: t = '}' :: '}' :: '(' :: t') : w = [] := by
  cases w with
  | nil => rfl
  | cons c w => exact absurd heq (h.ne_tail t t')

/-- Two contents at the start of the same text, each with the start of a tail behind it, are
the same. -/
theorem IsContent.eq_of_tails {w w' t t' : Text} (h : IsContent false w) (h' : IsContent false w')
    (heq : w ++ '}' :: '}' :: '(' :: t = w' ++ '}' :: '}' :: '(' :: t') : w = w' := by
  rcases List.append_eq_append_iff.1 heq with ⟨u, rfl, htail⟩ | ⟨u, rfl, htail⟩
  · obtain ⟨escaped, hu⟩ := h'.exists_of_append
    rw [hu.eq_nil_of_tail htail.symm, List.append_nil]
  · obtain ⟨escaped, hu⟩ := h.exists_of_append
    rw [hu.eq_nil_of_tail htail.symm, List.append_nil]

/-- The lengths of the contents that a text starts with, from the shortest on. -/
def contentEnds (s : Text) : List Nat :=
  (List.range (s.length + 1)).filter fun n => IsContent false (s.take n)

theorem mem_contentEnds_iff {s : Text} {n : Nat} :
    n ∈ s.contentEnds ↔ n ≤ s.length ∧ IsContent false (s.take n) := by
  rw [contentEnds, List.mem_filter, List.mem_range, Nat.lt_succ_iff, decide_eq_true_iff]

theorem le_length_of_prefix_drop {mark s : Text} {n : Nat} (hmark : mark ≠ [])
    (h : mark <+: s.drop n) : n ≤ s.length := by
  have hlength := h.length_le
  have hpos := List.length_pos_iff.2 hmark
  rw [List.length_drop] at hlength
  omega

/-- At most one length of a content has two closing braces and a parenthesis behind it. -/
theorem contentEnd_unique {s : Text} {n n' : Nat} (h : IsContent false (s.take n))
    (h' : IsContent false (s.take n')) (htail : ['}', '}', '('] <+: s.drop n)
    (htail' : ['}', '}', '('] <+: s.drop n') : n = n' := by
  have hle := le_length_of_prefix_drop (by decide) htail
  have hle' := le_length_of_prefix_drop (by decide) htail'
  obtain ⟨t, ht⟩ := htail
  obtain ⟨t', ht'⟩ := htail'
  have hs : s.take n ++ '}' :: '}' :: '(' :: t = s.take n' ++ '}' :: '}' :: '(' :: t' :=
    calc s.take n ++ '}' :: '}' :: '(' :: t
        = s.take n ++ s.drop n := by rw [← ht]; rfl
      _ = s.take n' ++ s.drop n' := by rw [List.take_append_drop, List.take_append_drop]
      _ = s.take n' ++ '}' :: '}' :: '(' :: t' := by rw [← ht']; rfl
  have hlength := congrArg List.length (h.eq_of_tails h' hs)
  rwa [List.length_take_of_le hle, List.length_take_of_le hle'] at hlength

end Text

namespace Block

/-- Reads the block whose content is the first `n` characters behind two opening braces. -/
def readEnding? (s : Text) (n : Nat) : Option (Block × Text) :=
  (readTail? (s.drop n)).map fun ((digits, clause), rest) => (⟨s.take n, digits, clause⟩, rest)

/-- Reads a block behind two opening braces: its content ends at the first of the given ends
behind which the tail can be read. -/
def readTrying? (ends : List Nat) (s : Text) : Option (Block × Text) :=
  ends.findSome? (readEnding? s)

theorem starts_of_readEnding? {s rest : Text} {n : Nat} {b : Block} (hn : n ∈ s.contentEnds)
    (h : readEnding? s n = some (b, rest)) : b.Starts ('{' :: '{' :: s) rest := by
  simp only [readEnding?, Option.map_eq_some_iff, Prod.exists, Prod.mk.injEq] at h
  obtain ⟨digits, clause, rest', hread, rfl, rfl⟩ := h
  obtain ⟨hne, hdigits, hclause, hdrop⟩ := readTail?_eq_some_iff.1 hread
  refine ⟨⟨(Text.mem_contentEnds_iff.1 hn).2, hne, hdigits, hclause⟩, ?_⟩
  rw [text_eq_cons, List.cons_append, List.cons_append, List.append_assoc, ← hdrop,
    List.take_append_drop]

theorem exists_readEnding?_of_starts {s rest : Text} {b : Block}
    (h : b.Starts ('{' :: '{' :: s) rest) :
    ∃ n ∈ s.contentEnds, readEnding? s n = some (b, rest) := by
  obtain ⟨hb, hs⟩ := h
  rw [text_eq_cons, List.cons_append, List.cons_append, List.cons.injEq, List.cons.injEq,
    List.append_assoc] at hs
  obtain ⟨-, -, rfl⟩ := hs
  have htail : readTail? (tailText b.digits b.clause ++ rest) =
      some ((b.digits, b.clause), rest) :=
    readTail?_eq_some_iff.2 ⟨hb.digits_ne_nil, hb.digits, hb.clause, rfl⟩
  refine ⟨b.content.length, Text.mem_contentEnds_iff.2 ⟨?_, ?_⟩, ?_⟩
  · rw [List.length_append]
    exact Nat.le_add_right _ _
  · rw [List.take_left]
    exact hb.content
  · rw [readEnding?, List.drop_left, htail, List.take_left]
    rfl

/-- The ends of the content may be tried in any order, and any of them more than once. -/
theorem readTrying?_eq_read? {s : Text} {ends : List Nat} (h : ∀ n, n ∈ ends ↔ n ∈ s.contentEnds) :
    readTrying? ends s = read? ('{' :: '{' :: s) := by
  cases htried : readTrying? ends s with
  | some result =>
      obtain ⟨b, rest⟩ := result
      obtain ⟨n, hn, hread⟩ := List.exists_of_findSome?_eq_some htried
      exact (read?_eq_some_iff.2 (starts_of_readEnding? ((h n).1 hn) hread)).symm
  | none =>
      cases hread : read? ('{' :: '{' :: s) with
      | none => rfl
      | some result =>
          obtain ⟨b, rest⟩ := result
          obtain ⟨n, hn, hend⟩ := exists_readEnding?_of_starts (read?_eq_some_iff.1 hread)
          have hnone := List.findSome?_eq_none_iff.1 htried n ((h n).2 hn)
          rw [hend] at hnone
          cases hnone

/-- The end of a content is unambiguous. Wherever two braces open, at most one length of what
stands behind them is that of a content with two closing braces and a parenthesis behind it.
So the block that is read there, by characters or by the bytes of the whole text, is the one
that is read by trying the ends of all contents in any order, and where no order finds one
none is read. -/
theorem content_end_is_unambiguous (before s : Text) :
    (∀ n n', Text.IsContent false (s.take n) → Text.IsContent false (s.take n') →
      ['}', '}', '('] <+: s.drop n → ['}', '}', '('] <+: s.drop n' → n = n') ∧
    ∀ ends, (∀ n, n ∈ ends ↔ n ≤ s.length ∧ Text.IsContent false (s.take n)) →
      read? ('{' :: '{' :: s) = readTrying? ends s ∧
      ByteReader.block (before ++ '{' :: '{' :: s) before.utf8Size (before.utf8Size + 2) =
        .ok ((readTrying? ends s).map fun (b, _) => ByteReader.Found.of ⟨before.utf8Size, b⟩) := by
  constructor
  · intro n n' h h' htail htail'
    exact Text.contentEnd_unique h h' htail htail'
  · intro ends h
    have hread : readTrying? ends s = read? ('{' :: '{' :: s) :=
      readTrying?_eq_read? fun n => (h n).trans Text.mem_contentEnds_iff.symm
    rw [hread]
    exact ⟨rfl, ByteReader.block_eq_read? before s⟩

/-- An escaped brace before the closing ones, with the longest content tried first. -/
theorem content_end_is_unambiguous_escaped_brace_at_the_end :
    let s : Text := ['a', '\\', '}', '}', '}', '(', '1', ')']
    Text.IsContent false (s.take 3) ∧ ['}', '}', '('] <+: s.drop 3 ∧
      (∀ n, Text.IsContent false (s.take n) → ['}', '}', '('] <+: s.drop n → n = 3) ∧
      (∀ n, n ∈ [3, 2, 1, 0] ↔ n ≤ s.length ∧ Text.IsContent false (s.take n)) ∧
      read? ('{' :: '{' :: s) = readTrying? [3, 2, 1, 0] s ∧
      readTrying? [3, 2, 1, 0] s = some (⟨['a', '\\', '}'], ['1'], none⟩, []) := by
  intro s
  have hcontent : Text.IsContent false (s.take 3) := by decide
  have htail : ['}', '}', '('] <+: s.drop 3 := by decide
  have hends : s.contentEnds = [0, 1, 2, 3] := by decide
  have hall : ∀ n, n ∈ [3, 2, 1, 0] ↔ n ≤ s.length ∧ Text.IsContent false (s.take n) := by
    intro n
    rw [← Text.mem_contentEnds_iff, hends, ← List.mem_reverse]
    rfl
  obtain ⟨hunique, hread⟩ := content_end_is_unambiguous ['x'] s
  refine ⟨hcontent, htail, ?_, hall, (hread [3, 2, 1, 0] hall).1, by decide⟩
  intro n hn hn'
  exact hunique n 3 hn hcontent hn' htail

end Block

end PromptDraw
