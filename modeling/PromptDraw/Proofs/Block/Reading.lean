import PromptDraw.Block.Grammar
import PromptDraw.Block.Reader

/-!
Reading a block accepts exactly the texts that start with a correctly written
one, and gives that block. Each reader is compared with its part of the grammar
in both directions. The one place where the grammar looks ambiguous, the end of
the content, is not: no tail starts inside a correctly written content.
-/

namespace PromptDraw

namespace Quote

theorem char_ne_backslash (q : Quote) : q.char ≠ '\\' := by
  cases q <;> decide

theorem char_ne_parenthesis (q : Quote) : q.char ≠ ')' := by
  cases q <;> decide

theorem isBlank_char (q : Quote) : Text.isBlank q.char = false := by
  cases q <;> decide

end Quote

namespace Clause

theorem isBody_of_readBody? {q : Quote} {s body rest : Text}
    (h : readBody? q.char s = some (body, rest)) : IsBody q.char body := by
  fun_induction readBody? q.char s generalizing body with
  | case1 d s ih =>
      simp only [Option.map_eq_some_iff, Prod.exists, Prod.mk.injEq] at h
      obtain ⟨inner, rest', hread, rfl, rfl⟩ := h
      exact .pair (ih hread)
  | case2 c d s hc hclose =>
      simp only [Option.some.injEq, Prod.mk.injEq] at h
      obtain ⟨rfl, rfl⟩ := h
      exact .nil
  | case3 c d s hc hclose ih =>
      simp only [Option.map_eq_some_iff, Prod.exists, Prod.mk.injEq] at h
      obtain ⟨inner, rest', hread, rfl, rfl⟩ := h
      refine .single hc ?_ (ih hread)
      intro hquote hparenthesis
      -- The body is a prefix of what is left, so its head is `d`.
      have hsplit := eq_append_of_readBody? hread
      cases inner with
      | nil => simp at hparenthesis
      | cons e inner =>
          simp only [List.head?_cons, Option.some.injEq] at hparenthesis
          simp only [List.cons_append, List.cons.injEq] at hsplit
          exact hclose ⟨hquote, hsplit.1.trans hparenthesis⟩
  | case4 => simp at h

/-- The reader stops at the first unit boundary where the quote closes, which is
where a correctly written body ends. -/
theorem readBody?_append {q : Quote} {body : Text} (h : IsBody q.char body) (rest : Text) :
    readBody? q.char (body ++ q.char :: ')' :: rest) = some (body, rest) := by
  induction h with
  | nil => simp [readBody?, q.char_ne_backslash]
  | pair _ ih => simp [readBody?, ih]
  | @single c s hc hstays _ ih =>
      cases s with
      | nil =>
          have hopen : ¬(c = q.char ∧ q.char = ')') := fun h => q.char_ne_parenthesis h.2
          simp [readBody?, hc, hopen, q.char_ne_backslash]
      | cons d s =>
          have hopen : ¬(c = q.char ∧ d = ')') := fun h => by
            simpa [h.2] using hstays h.1
          simp only [List.cons_append] at ih
          simp [readBody?, hc, hopen, ih]

theorem wellFormed_of_read? {clause : Clause} {s rest : Text}
    (h : read? s = some (clause, rest)) : clause.WellFormed := by
  unfold read? at h
  split at h
  · simp at h
  · rename_i c t hdrop
    split at h
    · simp at h
    · rename_i q hquote
      simp only [Option.map_eq_some_iff, Prod.exists, Prod.mk.injEq] at h
      obtain ⟨body, rest', hread, rfl, rfl⟩ := h
      rw [Quote.ofChar?_eq_some_iff] at hquote
      subst hquote
      exact ⟨fun d hd => List.all_eq_true.1 List.all_takeWhile d hd, isBody_of_readBody? hread⟩

theorem read?_append {clause : Clause} (h : clause.WellFormed) (rest : Text) :
    read? (clause.gap ++ clause.quote.char :: (clause.body ++ clause.quote.char :: ')' :: rest)) =
      some (clause, rest) := by
  have hquote := Quote.ofChar?_eq_some_iff.2 (rfl : clause.quote.char = clause.quote.char)
  simp [read?, List.dropWhile_append_of_pos h.gap, List.takeWhile_append_of_pos h.gap,
    clause.quote.isBlank_char, hquote, readBody?_append h.body]

/-- A clause is read exactly where a correctly written one stands behind the
comma. -/
theorem read?_eq_some_iff {clause : Clause} {s rest : Text} :
    read? s = some (clause, rest) ↔
      clause.WellFormed ∧ ',' :: s = clause.text ++ ')' :: rest := by
  constructor
  · intro h
    exact ⟨wellFormed_of_read? h, eq_append_of_read? h⟩
  · rintro ⟨hclause, hs⟩
    have hs' : s = clause.gap ++
        clause.quote.char :: (clause.body ++ clause.quote.char :: ')' :: rest) := by
      simpa [text] using hs
    rw [hs', read?_append hclause]

end Clause

namespace Block

theorem readClause?_eq_some_iff {clause : Option Clause} {s rest : Text} :
    readClause? s = some (clause, rest) ↔
      (∀ c ∈ clause, c.WellFormed) ∧ s = (clause.map Clause.text).getD [] ++ ')' :: rest := by
  constructor
  · intro h
    refine ⟨?_, eq_append_of_readClause? h⟩
    unfold readClause? at h
    split at h
    · split at h
      · simp only [Option.some.injEq, Prod.mk.injEq] at h
        simp [← h.1]
      · split at h
        · simp only [Option.map_eq_some_iff, Prod.exists, Prod.mk.injEq] at h
          obtain ⟨clause', rest', hread, rfl, -⟩ := h
          simpa using (Clause.read?_eq_some_iff.1 hread).1
        · simp at h
    · simp at h
  · rintro ⟨hclause, rfl⟩
    cases clause with
    | none => simp [readClause?]
    | some clause =>
        have hread := Clause.read?_append (hclause clause rfl) rest
        simp [readClause?, Clause.text, hread]

/-- Behind a numeral a clause or the end of the block follows, and neither
starts with a digit. So the digits read are exactly those of the numeral. -/
private theorem numeral_ends (clause : Option Clause) (rest : Text) :
    ((clause.map Clause.text).getD [] ++ ')' :: rest).takeWhile Char.isDigit = [] ∧
      ((clause.map Clause.text).getD [] ++ ')' :: rest).dropWhile Char.isDigit =
        (clause.map Clause.text).getD [] ++ ')' :: rest := by
  cases clause with
  | none => simp
  | some clause => simp [Clause.text]

theorem readTail?_eq_some_iff {digits : Text} {clause : Option Clause} {s rest : Text} :
    readTail? s = some ((digits, clause), rest) ↔
      digits ≠ [] ∧ (∀ c ∈ digits, c.isDigit = true) ∧ (∀ c ∈ clause, c.WellFormed) ∧
        s = tailText digits clause ++ rest := by
  constructor
  · intro h
    have hs := eq_append_of_readTail? h
    unfold readTail? at h
    split at h
    · rename_i c d e s'
      split at h
      · rename_i hopen
        simp only [Option.map_eq_some_iff, Prod.exists, Prod.mk.injEq] at h
        obtain ⟨clause', rest', hread, ⟨rfl, rfl⟩, rfl⟩ := h
        exact ⟨hopen.2.2.2, fun c hc => List.all_eq_true.1 List.all_takeWhile c hc,
          (readClause?_eq_some_iff.1 hread).1, hs⟩
      · simp at h
    · simp at h
  · rintro ⟨hne, hdigits, hclause, rfl⟩
    obtain ⟨htake, hdrop⟩ := numeral_ends clause rest
    have hread : readClause? ((clause.map Clause.text).getD [] ++ ')' :: rest) =
        some (clause, rest) := readClause?_eq_some_iff.2 ⟨hclause, rfl⟩
    simp [tailText, readTail?, List.takeWhile_append_of_pos hdigits,
      List.dropWhile_append_of_pos hdigits, htake, hdrop, hne, hread]

end Block

/-- A tail starts with two braces, of which the second is not escaped by the
first. Hence none starts at a character of a correctly written content. -/
theorem Text.IsContent.ne_tail {escaped : Bool} {c : Char} {w : Text}
    (h : IsContent escaped (c :: w)) (t t' : Text) :
    c :: w ++ '}' :: '}' :: '(' :: t ≠ '}' :: '}' :: '(' :: t' := by
  intro heq
  cases h with
  | cons _ hrest =>
      cases w with
      | nil => simp at heq
      | cons d w =>
          simp only [List.cons_append, List.cons.injEq] at heq
          obtain ⟨rfl, rfl, -⟩ := heq
          cases hrest with
          | cons hbrace _ => exact absurd (hbrace (.inr rfl)) (by decide)

namespace Block

theorem tailText_eq_cons (digits : Text) (clause : Option Clause) (rest : Text) :
    ∃ t, tailText digits clause ++ rest = '}' :: '}' :: '(' :: t :=
  ⟨digits ++ (clause.map Clause.text).getD [] ++ [')'] ++ rest, by simp [tailText]⟩

theorem readTail?_content {escaped : Bool} {c : Char} {w : Text}
    (h : Text.IsContent escaped (c :: w)) (digits : Text) (clause : Option Clause) (rest : Text) :
    readTail? (c :: w ++ (tailText digits clause ++ rest)) = none := by
  obtain ⟨t, ht⟩ := tailText_eq_cons digits clause rest
  cases hread : readTail? (c :: w ++ (tailText digits clause ++ rest)) with
  | none => rfl
  | some result =>
      obtain ⟨⟨digits', clause'⟩, rest'⟩ := result
      obtain ⟨t', ht'⟩ := tailText_eq_cons digits' clause' rest'
      have hs := eq_append_of_readTail? hread
      rw [ht, ht'] at hs
      exact absurd hs (h.ne_tail t t')

theorem isContent_of_readContent? {escaped : Bool} {b : Block} {s rest : Text}
    (h : readContent? escaped s = some (b, rest)) : Text.IsContent escaped b.content := by
  fun_induction readContent? escaped s generalizing b with
  | case1 =>
      simp only [Option.some.injEq, Prod.mk.injEq] at h
      obtain ⟨rfl, rfl⟩ := h
      exact .nil
  | case2 => simp at h
  | case3 => simp at h
  | case4 escaped c s hstay htail ih =>
      simp only [Option.map_eq_some_iff, Prod.exists, Prod.mk.injEq] at h
      obtain ⟨inner, rest', hread, rfl, rfl⟩ := h
      refine .cons ?_ (ih hread)
      intro hbrace
      cases escaped with
      | true => rfl
      | false => exact absurd ⟨hbrace, Bool.false_ne_true⟩ hstay

theorem readTail?_of_readContent? {escaped : Bool} {b : Block} {s rest : Text}
    (h : readContent? escaped s = some (b, rest)) :
    readTail? (tailText b.digits b.clause ++ rest) = some ((b.digits, b.clause), rest) := by
  fun_induction readContent? escaped s generalizing b with
  | case1 escaped s digits clause rest' htail =>
      simp only [Option.some.injEq, Prod.mk.injEq] at h
      obtain ⟨rfl, rfl⟩ := h
      rw [← eq_append_of_readTail? htail]
      exact htail
  | case2 => simp at h
  | case3 => simp at h
  | case4 escaped c s hstay htail ih =>
      simp only [Option.map_eq_some_iff, Prod.exists, Prod.mk.injEq] at h
      obtain ⟨inner, rest', hread, rfl, rfl⟩ := h
      have hinner := ih hread
      exact hinner

theorem readContent?_append {escaped : Bool} {w : Text} (h : Text.IsContent escaped w)
    {digits : Text} {clause : Option Clause} {rest : Text}
    (htail : readTail? (tailText digits clause ++ rest) = some ((digits, clause), rest)) :
    readContent? escaped (w ++ (tailText digits clause ++ rest)) =
      some (⟨w, digits, clause⟩, rest) := by
  induction h with
  | nil =>
      rw [List.nil_append, readContent?.eq_def, htail]
  | @cons escaped c s hbrace hcontent ih =>
      have hskip := readTail?_content (.cons hbrace hcontent) digits clause rest
      have hstay : ¬((c = '{' ∨ c = '}') ∧ ¬escaped = true) := fun hc => hc.2 (hbrace hc.1)
      rw [readContent?.eq_def, hskip]
      simp only [List.cons_append, if_neg hstay, ih, Option.map_some]

theorem read?_eq_some_iff {b : Block} {s rest : Text} :
    read? s = some (b, rest) ↔ b.Starts s rest := by
  constructor
  · intro h
    have hs := eq_append_of_read? h
    unfold read? at h
    split at h
    · split at h
      · obtain ⟨hne, hdigits, hclause, -⟩ := readTail?_eq_some_iff.1 (readTail?_of_readContent? h)
        exact ⟨⟨isContent_of_readContent? h, hne, hdigits, hclause⟩, hs⟩
      · simp at h
    · simp at h
  · rintro ⟨hb, rfl⟩
    have htail : readTail? (tailText b.digits b.clause ++ rest) =
        some ((b.digits, b.clause), rest) :=
      readTail?_eq_some_iff.2 ⟨hb.digits_ne_nil, hb.digits, hb.clause, rfl⟩
    simpa [read?, text] using readContent?_append hb.content htail

theorem Starts.append {b : Block} {s rest : Text} (h : b.Starts s rest) (t : Text) :
    b.Starts (s ++ t) (rest ++ t) := by
  obtain ⟨hb, rfl⟩ := h
  exact ⟨hb, by rw [List.append_assoc]⟩

theorem text_eq_cons (b : Block) :
    b.text = '{' :: '{' :: (b.content ++ tailText b.digits b.clause) := by
  simp [text]

theorem Starts.opens {b : Block} {s rest : Text} (h : b.Starts s rest) :
    ∃ t, s = '{' :: '{' :: t := by
  obtain ⟨-, rfl⟩ := h
  exact ⟨b.content ++ tailText b.digits b.clause ++ rest, by rw [text_eq_cons]; rfl⟩

theorem Starts.unique {b b' : Block} {s rest rest' : Text} (h : b.Starts s rest)
    (h' : b'.Starts s rest') : b = b' ∧ rest = rest' := by
  have heq := (read?_eq_some_iff.2 h).symm.trans (read?_eq_some_iff.2 h')
  simpa using heq

end Block

end PromptDraw
