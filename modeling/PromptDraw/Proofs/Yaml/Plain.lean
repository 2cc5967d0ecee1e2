import PromptDraw.Yaml.Token

/-!
Plain scalars of one line, and that reading one gives its text. What stands behind a
scalar belongs to what it is: a colon ends it only where a space or the end of the line
follows.
-/

namespace PromptDraw

namespace Yaml

/-- What a plain scalar may go on with when `behind` follows it; `spaced` tells whether a
space stands in front. A number sign behind a space would start a comment, a colon at
the end of a word would make the scalar a key, and no space belongs to the end. -/
inductive IsPlainTail (behind : Text) : (spaced : Bool) → Text → Prop where
  | nil : IsPlainTail behind false []
  | cons {spaced : Bool} {c : Char} {s : Text} (allowed : isAllowed c = true)
      (line : isBreak c = false) (comment : c = '#' → spaced = false)
      (colon : c = ':' → endsWord (s ++ behind) = false)
      (rest : IsPlainTail behind (isSpace c) s) : IsPlainTail behind spaced (c :: s)

/-- What a plain scalar starts with: no space and no mark with a meaning of its own but
for three that mean nothing in front of a word. -/
def StartsPlain (behind s : Text) : Prop :=
  ∃ c t, s = c :: t ∧ ((c ∉ Lexer.indicators ∧ isSpace c = false) ∨
    ((c = '-' ∨ c = '?' ∨ c = ':') ∧ endsWord (t ++ behind) = false))

/-- A text that is a plain scalar of one line where `behind` follows it. -/
structure IsPlain (behind s : Text) : Prop where
  starts : StartsPlain behind s
  tail : IsPlainTail behind false s

theorem endsWord_append_congr (s : Text) {t t' : Text} (h : endsWord t = endsWord t') :
    endsWord (s ++ t) = endsWord (s ++ t') := by
  cases s with
  | nil => exact h
  | cons c s => rfl

/-- Of what stands behind a scalar it only matters whether a word ends there. -/
theorem IsPlainTail.congr {behind behind' s : Text} {spaced : Bool}
    (h : IsPlainTail behind spaced s) (hends : endsWord behind = endsWord behind') :
    IsPlainTail behind' spaced s := by
  induction h with
  | nil => exact .nil
  | @cons _ c s allowed line comment colon _ ih =>
      refine .cons allowed line comment (fun hc => ?_) ih
      rw [← endsWord_append_congr s hends]
      exact colon hc

theorem IsPlain.congr {behind behind' s : Text} (h : IsPlain behind s)
    (hends : endsWord behind = endsWord behind') : IsPlain behind' s := by
  obtain ⟨c, t, rfl, hc⟩ := h.starts
  refine ⟨⟨c, t, rfl, hc.imp_right fun hmark => ⟨hmark.1, ?_⟩⟩, h.tail.congr hends⟩
  rw [← endsWord_append_congr t hends]
  exact hmark.2

/-- A word ends, or would end, where a scalar may end. -/
def EndsScalar (rest : Text) : Prop :=
  plainWord? false rest = some ([], rest)

theorem plainWord?_cons {c : Char} {s word rest : Text} (hspace : isSpace c = false)
    (hline : isBreak c = false) (hcolon : c = ':' → endsWord s = false)
    (h : plainWord? false s = some (word, rest)) :
    plainWord? false (c :: s) = some (c :: word, rest) := by
  have hstay : (c == ':' && endsWord s) = false := by
    cases hc : c == ':' with
    | false => rfl
    | true => rw [hcolon (beq_iff_eq.1 hc)]; rfl
  simp [plainWord?, hspace, hline, hstay, h]

theorem isBreak_of_isSpace {c : Char} (h : isSpace c = true) : isBreak c = false := by
  simp only [isSpace, Bool.or_eq_true, beq_iff_eq] at h
  rcases h with rfl | rfl <;> rfl

/-- The first word of a scalar is read, and either it is all of the scalar or a space
follows it. -/
theorem IsPlainTail.exists_word {rest s : Text} {spaced : Bool} (h : IsPlainTail rest spaced s)
    (hrest : EndsScalar rest) :
    ∃ word more, s = word ++ more ∧ plainWord? false (s ++ rest) = some (word, more ++ rest) ∧
      (more = [] ∨ ∃ c t, more = c :: t ∧ isSpace c = true ∧ IsPlainTail rest true t) := by
  induction h with
  | nil => exact ⟨[], [], rfl, hrest, .inl rfl⟩
  | @cons spaced c s allowed line comment colon htail ih =>
      cases hspace : isSpace c with
      | true =>
          rw [hspace] at htail
          exact ⟨[], c :: s, rfl, by simp [plainWord?, hspace], .inr ⟨c, s, rfl, hspace, htail⟩⟩
      | false =>
          obtain ⟨word, more, rfl, hword, hmore⟩ := ih
          exact ⟨c :: word, more, rfl, plainWord?_cons hspace line colon hword, hmore⟩

/-- Spaces inside of a scalar are followed by another word of it. -/
theorem IsPlainTail.exists_gap {rest s : Text} (h : IsPlainTail rest true s) :
    ∃ spaces c t, s = spaces ++ c :: t ∧ (∀ d ∈ spaces, isSpace d = true) ∧
      isSpace c = false ∧ isBreak c = false ∧ c ≠ '#' ∧ IsPlainTail rest true (c :: t) := by
  induction s with
  | nil => cases h
  | cons c s ih =>
      have htail := h
      obtain - | ⟨allowed, line, comment, colon, hs⟩ := h
      cases hspace : isSpace c with
      | true =>
          rw [hspace] at hs
          obtain ⟨spaces, d, t, rfl, hspaces, hd⟩ := ih hs
          exact ⟨c :: spaces, d, t, rfl, List.forall_mem_cons.2 ⟨hspace, hspaces⟩, hd⟩
      | false =>
          exact ⟨[], c, s, rfl, by simp, hspace, line,
            fun hc => Bool.noConfusion (comment hc), htail⟩

namespace Mark

theorem after_eq_along (mark : Mark) {c : Char} (h : isBreak c = false) (rest : Text) :
    mark.after c rest = mark.along [c] := by
  simp [after, h, along]

theorem along_append (mark : Mark) (s t : Text) :
    mark.along (s ++ t) = (mark.along s).along t := by
  simp [along, Nat.add_assoc]

theorem along_nil (mark : Mark) : mark.along [] = mark := rfl

end Mark

/-- Spaces between two words are read as they stand. -/
theorem Gap.read?_spaces (indent : Nat) (before : Text) {spaces : Text}
    (hspaces : ∀ c ∈ spaces, isSpace c = true) (mark : Mark) {c : Char} (t : Text)
    (hspace : isSpace c = false) (hline : isBreak c = false) :
    Gap.read? indent ⟨before, false, .none, []⟩ mark (spaces ++ c :: t) =
      some (⟨spaces.reverse ++ before, false, .none, []⟩, mark.along spaces, c :: t) := by
  induction spaces generalizing before mark with
  | nil => simp [Gap.read?, hspace, hline, Mark.along_nil]
  | cons d spaces ih =>
      have hd := hspaces d List.mem_cons_self
      have hmark := Mark.after_eq_along mark (isBreak_of_isSpace hd)
      have hrest := ih (d :: before) (fun e he => hspaces e (List.mem_cons_of_mem d he))
        (mark.along [d])
      rw [List.cons_append, Gap.read?, if_pos hd, if_neg (by simp), hmark]
      simpa [← Mark.along_append] using hrest

/-- What a plain scalar does where it ends before `rest`: it ends at once, or it looks
for another word behind the end of the line and finds none that is indented enough. -/
inductive Stops (indent : Nat) (mark : Mark) (rest : Text) :
    (broken : Bool) → Mark → Text → Prop where
  | here (h : rest = [] ∨ endsWord rest = false) : Stops indent mark rest false mark rest
  | behind {gap : Gap} {mark' : Mark} {rest' : Text} (word : rest ≠ [])
      (ends : endsWord rest = true)
      (read : Gap.none.read? indent mark rest = some (gap, mark', rest'))
      (column : mark'.column < indent) : Stops indent mark rest gap.broken mark' rest'

theorem atMarker_of_column {mark : Mark} (h : 0 < mark.column) (s : Text) :
    atMarker mark s = false := by
  have hcolumn : (mark.column == 0) = false := beq_eq_false_iff_ne.2 (Nat.ne_of_gt h)
  simp [atMarker, markerOf, hcolumn]

/-- Reading a word, and then what follows it. -/
theorem plain?_word {indent fuel : Nat} {gap : Gap} {mark : Mark} {c : Char}
    {s word rest : Text} (hc : c ≠ '#') (hmark : atMarker mark (c :: s) = false)
    (hread : plainWord? false (c :: s) = some (c :: word, rest)) :
    plain? false indent (fuel + 1) gap mark (c :: s) =
      if rest = [] ∨ endsWord rest = false then
        some ⟨gap.text ++ c :: word, false, mark.along (c :: word), rest⟩
      else do
        let (between, mark', rest') ← Gap.none.read? indent (mark.along (c :: word)) rest
        if mark'.column < indent then
          some ⟨gap.text ++ c :: word, between.broken, mark', rest'⟩
        else
          let more ← plain? false indent fuel between mark' rest'
          return { more with text := gap.text ++ c :: word ++ more.text } := by
  have hstart : (atMarker mark (c :: s) || (c :: s).head? == some '#') = false := by
    simp [hmark, hc]
  rw [plain?, hstart, hread]
  simp [Gap.none]

/-- The words of a plain scalar and the spaces between them are its text. -/
theorem plain?_of_isPlainTail {indent fuel : Nat} {gap : Gap} {mark mark' : Mark} {broken : Bool}
    {spaced : Bool} {c : Char} {s rest rest' : Text} (hs : IsPlainTail rest spaced (c :: s))
    (hspace : isSpace c = false) (hc : c ≠ '#') (hmark : atMarker mark (c :: (s ++ rest)) = false)
    (hindent : indent ≤ 1) (hrest : EndsScalar rest)
    (hstop : Stops indent (mark.along (c :: s)) rest broken mark' rest')
    (hfuel : s.length < fuel) :
    plain? false indent fuel gap mark (c :: (s ++ rest)) =
      some ⟨gap.text ++ c :: s, broken, mark', rest'⟩ := by
  induction fuel generalizing gap mark spaced c s with
  | zero => omega
  | succ fuel ih =>
      obtain - | ⟨-, line, -, colon, hs⟩ := hs
      obtain ⟨word, more, rfl, hword, hmore⟩ := hs.exists_word hrest
      rw [plain?_word hc hmark (plainWord?_cons hspace line colon hword)]
      rcases hmore with rfl | ⟨d, t, rfl, hd, ht⟩
      · rw [List.append_nil] at hstop ⊢
        cases hstop with
        | here h => exact if_pos h
        | behind hne ends read column =>
            rw [if_neg (by simp [hne, ends])]
            simp [read, column]
      · obtain ⟨spaces, e, u, rfl, hspaces, he⟩ := ht.exists_gap
        obtain ⟨hespace, heline, hecomment, hu⟩ := he
        have hgap : Gap.none.read? indent (mark.along (c :: word))
            (d :: (spaces ++ e :: (u ++ rest))) =
            some (⟨(d :: spaces).reverse ++ [], false, none, []⟩,
              (mark.along (c :: word)).along (d :: spaces), e :: (u ++ rest)) :=
          Gap.read?_spaces indent [] (List.forall_mem_cons.2 ⟨hd, hspaces⟩) _ _ hespace heline
        have hcolumn : 0 < ((mark.along (c :: word)).along (d :: spaces)).column :=
          Nat.lt_of_lt_of_le (Nat.zero_lt_succ _) (Nat.le_add_left _ _)
        have hstop' : Stops indent (((mark.along (c :: word)).along (d :: spaces)).along (e :: u))
            rest broken mark' rest' := by
          rw [← Mark.along_append, ← Mark.along_append]
          exact hstop
        have hfuel' : u.length < fuel := by
          simp only [List.length_append, List.length_cons] at hfuel
          omega
        have hmore : plain? false indent fuel ⟨(d :: spaces).reverse ++ [], false, none, []⟩
            ((mark.along (c :: word)).along (d :: spaces)) (e :: (u ++ rest)) =
              some ⟨((d :: spaces).reverse ++ []).reverse ++ e :: u, broken, mark', rest'⟩ :=
          ih hu hespace hecomment (atMarker_of_column hcolumn _) hstop' hfuel'
        have hnext : ¬((mark.along (c :: word)).along (d :: spaces)).column < indent := by
          omega
        rw [if_neg (by simp [endsWord, hd])]
        simp only [List.cons_append, List.append_assoc, hgap, Option.bind_eq_bind, Option.bind_some,
          if_neg hnext, hmore, Option.pure_def, Gap.text]
        simp

theorem IsPlain.exists_head {behind s : Text} (h : IsPlain behind s) :
    ∃ c t, s = c :: t ∧ isSpace c = false ∧ isBreak c = false ∧ c ≠ '#' := by
  obtain ⟨c, t, rfl, hc⟩ := h.starts
  obtain - | ⟨-, line, -, -, -⟩ := h.tail
  refine ⟨c, t, rfl, ?_, line, ?_⟩
  · rcases hc with ⟨-, hspace⟩ | ⟨rfl | rfl | rfl, -⟩
    · exact hspace
    all_goals rfl
  · rintro rfl
    rcases hc with ⟨hmark, -⟩ | ⟨hmark | hmark | hmark, -⟩
    · exact hmark (by decide)
    all_goals cases hmark

theorem IsPlain.ne_nil {behind s : Text} (h : IsPlain behind s) : s ≠ [] := by
  obtain ⟨c, t, rfl, -⟩ := h.starts
  exact List.cons_ne_nil c t

theorem plain?_of_isPlain {indent fuel : Nat} {mark mark' : Mark} {broken : Bool}
    {s rest rest' : Text} (hs : IsPlain rest s) (hmark : atMarker mark (s ++ rest) = false)
    (hindent : indent ≤ 1) (hrest : EndsScalar rest)
    (hstop : Stops indent (mark.along s) rest broken mark' rest') (hfuel : s.length ≤ fuel) :
    plain? false indent fuel Gap.none mark (s ++ rest) = some ⟨s, broken, mark', rest'⟩ := by
  obtain ⟨c, t, rfl, hspace, -, hc⟩ := hs.exists_head
  exact plain?_of_isPlainTail hs.tail hspace hc hmark hindent hrest hstop hfuel

theorem endsScalar_nil : EndsScalar [] := rfl

theorem endsScalar_colon (rest : Text) : EndsScalar (':' :: ' ' :: rest) := rfl

theorem endsScalar_break (rest : Text) : EndsScalar ('\n' :: rest) := rfl

/-- The next line is not indented, so the scalar ends with the line. -/
theorem stops_break (mark : Mark) (rest : Text)
    (hrest : ∀ c ∈ rest.head?, isSpace c = false ∧ isBreak c = false) :
    Stops 1 mark ('\n' :: rest) true (mark.after '\n' rest) rest := by
  have hread : Gap.none.read? 1 mark ('\n' :: rest) =
      some (⟨[], true, some '\n', []⟩, mark.after '\n' rest, rest) := by
    cases rest with
    | nil => rfl
    | cons c rest =>
        obtain ⟨hspace, hline⟩ := hrest c rfl
        have hstay :
            Gap.read? 1 (Gap.none.addBreak '\n') (mark.after '\n' (c :: rest)) (c :: rest) =
              some (⟨[], true, some '\n', []⟩, mark.after '\n' (c :: rest), c :: rest) := by
          simp [Gap.read?, hspace, hline, Gap.addBreak, Gap.none, breakRead]
        rw [Gap.read?, if_neg (by decide), if_pos (by decide), if_neg (by simp), hstay]
  exact .behind (List.cons_ne_nil _ _) rfl hread Nat.one_pos

end Yaml

end PromptDraw
