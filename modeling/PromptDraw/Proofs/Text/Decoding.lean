import PromptDraw.Text.Encodings

/-!
Decoding escapes undoes every way of writing a text with them. Of the ends of a
decoded text only so much is said: a character that no escape stands for is there
only if it was there before.
-/

namespace PromptDraw

namespace Text

variable {allowed : List Char}

@[simp] theorem decodeEscapes_nil : decodeEscapes allowed [] = [] := rfl

theorem decodeEscapes_cons {c : Char} (hc : c ≠ '\\') (s : Text) :
    decodeEscapes allowed (c :: s) = c :: decodeEscapes allowed s := by
  cases s with
  | nil => rfl
  | cons d s => simp [decodeEscapes, hc]

theorem decodeEscapes_pair {d e : Char} (h : escaped? allowed d = some e) (s : Text) :
    decodeEscapes allowed ('\\' :: d :: s) = e :: decodeEscapes allowed s := by
  simp [decodeEscapes, h]

/-- A backslash that escapes nothing stands for itself, and the character behind
it is read afresh. -/
theorem decodeEscapes_backslash {d : Char} (h : escaped? allowed d = none) (s : Text) :
    decodeEscapes allowed ('\\' :: d :: s) = '\\' :: decodeEscapes allowed (d :: s) := by
  simp [decodeEscapes, h]

theorem decodeEscapes_eq_nil_iff {s : Text} : decodeEscapes allowed s = [] ↔ s = [] := by
  fun_cases decodeEscapes allowed s <;> simp

theorem decodeEscapes_encodesChar {written : Text} {c : Char}
    (hallowed : 'n' ∉ allowed ∧ 't' ∉ allowed ∧ 'r' ∉ allowed)
    (h : EncodesChar allowed written c) (s : Text) :
    decodeEscapes allowed (written ++ s) = c :: decodeEscapes allowed s := by
  cases h with
  | plain hc => exact decodeEscapes_cons hc s
  | backslash | newline | tab | carriageReturn => exact decodeEscapes_pair rfl s
  | escaped hc =>
      have hn : c ≠ 'n' := fun heq => hallowed.1 (heq ▸ hc)
      have ht : c ≠ 't' := fun heq => hallowed.2.1 (heq ▸ hc)
      have hr : c ≠ 'r' := fun heq => hallowed.2.2 (heq ▸ hc)
      refine decodeEscapes_pair ?_ s
      by_cases hbackslash : c = '\\'
      · subst hbackslash
        rfl
      · simp [escaped?, hbackslash, hn, ht, hr, hc]

theorem decodeEscapes_of_encodes {written t : Text}
    (hallowed : 'n' ∉ allowed ∧ 't' ∉ allowed ∧ 'r' ∉ allowed)
    (h : Encodes allowed written t) : decodeEscapes allowed written = t := by
  induction h with
  | nil => rfl
  | cons hchar _ ih => rw [decodeEscapes_encodesChar hallowed hchar, ih]

theorem encodes_flatMap {write : Char → Text} (h : ∀ c, EncodesChar allowed (write c) c)
    (t : Text) : Encodes allowed (t.flatMap write) t := by
  induction t with
  | nil => exact .nil
  | cons c t ih => exact .cons (h c) ih

/-- A letter that stands for a character without a mark cannot stand for itself as well. -/
theorem not_mem_of_decodeEscapes {d e : Char} (hne : e ≠ d)
    (hescaped : escaped? allowed d = some e)
    (h : ∀ written t, Encodes allowed written t → decodeEscapes allowed written = t) :
    d ∉ allowed := by
  intro hd
  have hwritten : Encodes allowed ['\\', d] [d] := .cons (.escaped hd) .nil
  have hdecoded := h _ _ hwritten
  rw [decodeEscapes_pair hescaped, List.cons.injEq] at hdecoded
  exact hne hdecoded.1

/-- Decoding undoes every way of writing a text, each of its characters in any of its ways,
exactly if none of the letters for a line feed, a tab and a carriage return may itself be
escaped. In items and in separators none may, so that all ways of writing a text come to the
same there. -/
theorem every_encoding_decodes (allowed : List Char) :
    (('n' ∉ allowed ∧ 't' ∉ allowed ∧ 'r' ∉ allowed) ↔
      ∀ written t, Encodes allowed written t → decodeEscapes allowed written = t) ∧
    ∀ marks ∈ [itemMarks, separatorMarks], ∀ written written' t,
      Encodes marks written t → Encodes marks written' t →
        decodeEscapes marks written = t ∧ decodeEscapes marks written' = t := by
  constructor
  · constructor
    · intro hallowed written t h
      exact decodeEscapes_of_encodes hallowed h
    · intro h
      exact ⟨not_mem_of_decodeEscapes (by decide) rfl h,
        not_mem_of_decodeEscapes (by decide) rfl h, not_mem_of_decodeEscapes (by decide) rfl h⟩
  · intro marks hmarks written written' t h h'
    have hletters : 'n' ∉ marks ∧ 't' ∉ marks ∧ 'r' ∉ marks := by
      simp only [List.mem_cons, List.not_mem_nil, or_false] at hmarks
      rcases hmarks with rfl | rfl <;> decide
    exact ⟨decodeEscapes_of_encodes hletters h, decodeEscapes_of_encodes hletters h'⟩

/-- A backslash in front of a letter, a line feed and a brace, written in two ways. -/
theorem every_encoding_decodes_backslash_before_letter :
    let t : Text := ['\\', 'n', '\n', '{']
    let written : Text := ['\\', '\\', 'n', '\\', 'n', '{']
    let written' : Text := ['\\', '\\', 'n', '\n', '\\', '{']
    Encodes itemMarks written t ∧ Encodes itemMarks written' t ∧
      decodeEscapes itemMarks written = t ∧ decodeEscapes itemMarks written' = t := by
  intro t written written'
  have h : Encodes itemMarks written t :=
    .cons .backslash (.cons (.plain (by decide)) (.cons .newline (.cons (.plain (by decide)) .nil)))
  have h' : Encodes itemMarks written' t :=
    .cons .backslash (.cons (.plain (by decide)) (.cons (.plain (by decide))
      (.cons (.escaped (by decide)) .nil)))
  exact ⟨h, h', (every_encoding_decodes itemMarks).2 itemMarks (by decide) _ _ _ h h'⟩

theorem escaped?_cases {d e : Char} (h : escaped? allowed d = some e) :
    e = '\\' ∨ e = '\n' ∨ e = '\t' ∨ e = '\r' ∨ (e = d ∧ d ∈ allowed) := by
  unfold escaped? at h
  grind

theorem ne_space_of_escaped? {d e : Char} (hspace : ' ' ∉ allowed)
    (h : escaped? allowed d = some e) : e ≠ ' ' := by
  rcases escaped?_cases h with rfl | rfl | rfl | rfl | ⟨rfl, hd⟩
  · decide
  · decide
  · decide
  · decide
  · exact fun heq => hspace (heq ▸ hd)

/-- No escape stands for a space, so a decoded text starts with one only if the
text itself does. -/
theorem head?_of_head?_decodeEscapes {s : Text} (hspace : ' ' ∉ allowed)
    (h : (decodeEscapes allowed s).head? = some ' ') : s.head? = some ' ' := by
  fun_cases decodeEscapes allowed s with
  | case1 => simp at h
  | case2 c => exact h
  | case3 d s e he =>
      rw [decodeEscapes_pair he] at h
      exact absurd (Option.some.inj h) (ne_space_of_escaped? hspace he)
  | case4 d s he =>
      rw [decodeEscapes_backslash he] at h
      exact absurd (Option.some.inj h) (by decide)
  | case5 c d s hc =>
      rw [decodeEscapes_cons hc] at h
      exact h

theorem getLast?_of_getLast?_decodeEscapes {s : Text} (hspace : ' ' ∉ allowed)
    (h : (decodeEscapes allowed s).getLast? = some ' ') : s.getLast? = some ' ' := by
  have hcons {c : Char} {s : Text} (hs : s ≠ []) :
      (c :: decodeEscapes allowed s).getLast? = (decodeEscapes allowed s).getLast? :=
    List.getLast?_cons_of_ne_nil fun heq => hs (decodeEscapes_eq_nil_iff.1 heq)
  fun_induction decodeEscapes allowed s with
  | case1 => simp at h
  | case2 c => exact h
  | case3 d s e he ih =>
      by_cases hs : s = []
      · subst hs
        exact absurd (Option.some.inj h) (ne_space_of_escaped? hspace he)
      · rw [hcons hs] at h
        simp [List.getLast?_cons, ih h]
  | case4 d s he ih =>
      rw [hcons (List.cons_ne_nil d s)] at h
      simp [List.getLast?_cons, ih h]
  | case5 c d s hc ih =>
      rw [hcons (List.cons_ne_nil d s)] at h
      simp [List.getLast?_cons, ih h]

/-- An escape is written with a backslash and one more character, and stands for
that character or for one of a single byte. -/
theorem utf8Size_le_of_escaped? {d e : Char}
    (h : escaped? allowed d = some e) : e.utf8Size ≤ ('\\' : Char).utf8Size + d.utf8Size := by
  have hpos := d.utf8Size_pos
  rcases escaped?_cases h with rfl | rfl | rfl | rfl | ⟨rfl, -⟩
  · exact Nat.le_add_right _ _
  · exact Nat.le_add_right _ _
  · exact Nat.le_add_right _ _
  · exact Nat.le_add_right _ _
  · exact Nat.le_add_left _ _

theorem utf8Size_decodeEscapes_le (allowed : List Char) (s : Text) :
    (decodeEscapes allowed s).utf8Size ≤ s.utf8Size := by
  fun_induction decodeEscapes allowed s with
  | case1 => exact Nat.le_refl _
  | case2 c => exact Nat.le_refl _
  | case3 d s e he ih =>
      have hchar := utf8Size_le_of_escaped? he
      simp only [utf8Size_cons]
      omega
  | case4 d s he ih => exact Nat.add_le_add_left ih _
  | case5 c d s hc ih => exact Nat.add_le_add_left ih _

end Text

end PromptDraw
