import PromptDraw.Block.Grammar
import PromptDraw.Block.Writing
import PromptDraw.Proofs.Block.Items

/-!
A block written for some items, a count and a separator is correctly written and
stands for them. The grammar, the comma splitter, the trimming and the decoder
each have their own rule for backslashes; a written item meets all four, since
every mark in it stands behind a backslash of its own and a space follows it.
-/

namespace PromptDraw

namespace Text

theorem encodesChar_itemChar (c : Char) : EncodesChar itemMarks (itemChar c) c := by
  unfold itemChar
  split
  · rename_i h
    rcases h with rfl | h
    · exact .backslash
    · exact .escaped h
  split
  · rename_i h
    exact h ▸ .newline
  split
  · rename_i h
    exact h ▸ .tab
  split
  · rename_i h
    exact h ▸ .carriageReturn
  · rename_i h _ _ _
    exact .plain fun heq => h (.inl heq)

theorem encodesChar_separatorChar (c : Char) :
    EncodesChar separatorMarks (separatorChar c) c := by
  unfold separatorChar
  split
  · rename_i h
    rcases h with rfl | h
    · exact .backslash
    · exact .escaped h
  · rename_i h
    exact .plain fun heq => h (.inl heq)

theorem decodeEscapes_itemChars (item : Text) :
    decodeEscapes itemMarks (item.flatMap itemChar) = item :=
  decodeEscapes_of_encodes (by decide) (encodes_flatMap encodesChar_itemChar item)

theorem decodeEscapes_separatorChars (separator : Text) :
    decodeEscapes separatorMarks (separator.flatMap separatorChar) = separator :=
  decodeEscapes_of_encodes (by decide) (encodes_flatMap encodesChar_separatorChar separator)

/-- Texts in which every brace, comma and backslash is half of a pair: units are
a backslash with the character behind it, and characters that mean nothing. -/
inductive Guarded : Text → Prop where
  | nil : Guarded []
  | pair {d : Char} {s : Text} (rest : Guarded s) : Guarded ('\\' :: d :: s)
  | plain {c : Char} {s : Text} (hbrace : ¬IsBrace c) (hcomma : c ≠ ',') (rest : Guarded s) :
      Guarded (c :: s)

theorem Guarded.itemChars {s : Text} (h : Guarded s) (item : Text) :
    Guarded (item.flatMap itemChar ++ s) := by
  induction item with
  | nil => exact h
  | cons c item ih =>
      rw [List.flatMap_cons, List.append_assoc]
      unfold itemChar
      split
      · exact .pair ih
      split
      · exact .pair ih
      split
      · exact .pair ih
      split
      · exact .pair ih
      · rename_i hmark _ _ _
        simp only [itemMarks, List.mem_cons, List.not_mem_nil, or_false, not_or] at hmark
        exact .plain (fun hbrace => hbrace.elim hmark.2.1 hmark.2.2.1) hmark.2.2.2 ih

theorem guarded_writeItem (item : Text) : Guarded (writeItem item) :=
  .itemChars (.plain (by rintro (h | h) <;> cases h) (by decide) .nil) item

theorem Guarded.isContent {w s : Text} (h : Guarded w) (hs : ∀ escaped, IsContent escaped s)
    (escaped : Bool) : IsContent escaped (w ++ s) := by
  induction h generalizing escaped with
  | nil => exact hs escaped
  | pair _ ih =>
      refine .cons ?_ (.cons (fun _ => rfl) (ih _))
      rintro (h | h) <;> cases h
  | plain hbrace _ _ ih => exact .cons (fun h => absurd h hbrace) (ih _)

theorem Guarded.segments {w : Text} (h : Guarded w) (escaped : Bool) :
    w.segments escaped = [w] := by
  induction h generalizing escaped with
  | nil => rfl
  | pair _ ih =>
      refine segments_cons (by simp) (segments_cons ?_ (ih _))
      simp
  | plain _ hcomma _ ih => exact segments_cons (fun h => hcomma h.1) (ih _)

theorem isContent_writeItems (items : List Text) (escaped : Bool) :
    IsContent escaped ([','].intercalate (items.map writeItem)) := by
  induction items generalizing escaped with
  | nil => exact .nil
  | cons item rest ih =>
      cases rest with
      | nil => simpa using (guarded_writeItem item).isContent (fun _ => .nil) escaped
      | cons next rest =>
          have hcomma (escaped : Bool) : IsContent escaped
              (',' :: [','].intercalate ((next :: rest).map writeItem)) := by
            refine .cons ?_ (ih _)
            rintro (h | h) <;> cases h
          simpa [List.intercalate, List.intersperse] using
            (guarded_writeItem item).isContent hcomma escaped

theorem segments_writeItems {items : List Text} (h : items ≠ []) :
    segments false ([','].intercalate (items.map writeItem)) = items.map writeItem := by
  induction items with
  | nil => exact absurd rfl h
  | cons item rest ih =>
      have hitem := (guarded_writeItem item).segments false
      cases rest with
      | nil => simpa using hitem
      | cons next rest =>
          have hspace : (writeItem item).getLast? ≠ some '\\' := by simp [writeItem]
          have hjoin : segments false
              (writeItem item ++ ',' :: [','].intercalate ((next :: rest).map writeItem)) =
                segments false (writeItem item) ++
                  segments false ([','].intercalate ((next :: rest).map writeItem)) :=
            segments_append_comma _ hspace (fun _ => rfl)
          rw [hitem, ih (by simp)] at hjoin
          simpa [List.intercalate, List.intersperse] using hjoin

theorem rawItems_writeItems (items : List Text) :
    rawItems ([','].intercalate (items.map writeItem)) = items.map writeItem := by
  unfold rawItems
  by_cases h : items = []
  · subst h
    rfl
  · rw [segments_writeItems h, if_neg]
    intro hlast
    obtain ⟨item, -, hitem⟩ := List.mem_map.1 (List.mem_of_getLast? hlast)
    simp [writeItem] at hitem

theorem itemChar_ne_nil (c : Char) : itemChar c ≠ [] := by
  fun_cases itemChar c <;> simp

theorem eq_space_of_mem_itemChar {c d : Char} (hd : d ∈ itemChar c)
    (hlayout : isLayout d = true) : c = ' ' := by
  unfold itemChar at hd
  simp only [isLayout, Bool.or_eq_true, beq_iff_eq] at hlayout
  rcases hlayout with ((rfl | rfl) | rfl) | rfl <;> grind [itemMarks]

theorem trim_writeItem {item : Text} (h : IsItem item) :
    (writeItem item).trim isLayout = item.flatMap itemChar := by
  have hpad : ∀ c ∈ [' '], isLayout c = true := List.forall_mem_singleton.2 (by decide)
  obtain ⟨hne, hhead, hlast⟩ := h
  rw [writeItem, trim_append_right hpad, trim_of_ends]
  · intro d hd
    obtain ⟨c, rest, rfl⟩ := List.exists_cons_of_ne_nil hne
    have hfirst : (itemChar c).head? = some d := by
      rwa [List.flatMap_cons, List.head?_append,
        Option.or_of_isSome (List.isSome_head?.2 (itemChar_ne_nil c))] at hd
    refine Bool.eq_false_iff.2 fun hlayout => hhead ?_
    rw [eq_space_of_mem_itemChar (List.mem_of_mem_head? hfirst) hlayout, List.head?_cons]
  · intro d hd
    obtain ⟨rest, c, rfl⟩ : ∃ rest c, item = rest ++ [c] :=
      ⟨_, _, (List.dropLast_concat_getLast hne).symm⟩
    have hfinal : (itemChar c).getLast? = some d := by
      rwa [List.flatMap_append, List.flatMap_singleton, List.getLast?_append,
        Option.or_of_isSome (List.getLast?_isSome.2 (itemChar_ne_nil c))] at hd
    refine Bool.eq_false_iff.2 fun hlayout => hlast ?_
    rw [eq_space_of_mem_itemChar (List.mem_of_getLast? hfinal) hlayout, List.getLast?_concat]

theorem item_writeItem {item : Text} (h : IsItem item) : (writeItem item).item = item := by
  rw [Text.item, trim_writeItem h, decodeEscapes_itemChars]

theorem candidates_writeItems {items : List Text} (h : ∀ item ∈ items, IsItem item) :
    candidates ([','].intercalate (items.map writeItem)) = items := by
  have hitems : (items.map writeItem).map Text.item = items := by
    rw [List.map_map]
    exact (List.map_congr_left fun item hi => item_writeItem (h item hi)).trans (List.map_id _)
  rw [candidates, rawItems_writeItems, hitems, List.filter_eq_self]
  intro item hi
  simpa using (h item hi).1

end Text

theorem Clause.isBody_separatorChars (quote : Quote) (separator : Text) :
    IsBody quote.char (separator.flatMap Text.separatorChar) := by
  induction separator with
  | nil => exact .nil
  | cons c separator ih =>
      rw [List.flatMap_cons]
      unfold Text.separatorChar
      split
      · exact .pair ih
      · rename_i hmark
        have hquote : c ≠ quote.char := by
          rintro rfl
          exact hmark (.inr (by cases quote <;> decide))
        exact .single (fun heq => hmark (.inl heq)) (fun heq => absurd heq hquote) ih

namespace Block

variable {items : List Text} {count : Nat} {gap : Text} {quote : Quote} {separator : Text}

theorem wellFormed_ofItems (hgap : ∀ c ∈ gap, Text.isBlank c = true) :
    (ofItems items count gap quote separator).WellFormed where
  content := Text.isContent_writeItems items false
  digits_ne_nil := Nat.toDigits_ne_nil
  digits c hc := Nat.isDigit_of_mem_toDigits (by decide) (by decide) hc
  clause := by
    rintro clause ⟨⟩
    exact ⟨hgap, Clause.isBody_separatorChars quote separator⟩

@[simp] theorem count_ofItems :
    (ofItems items count gap quote separator).count = min count maxCount := by
  simp [Block.count, ofItems, Text.ofNat, Nat.ofDigitChars_ten_toDigits]

@[simp] theorem separator_ofItems :
    (ofItems items count gap quote separator).separator = separator := by
  simp [Block.separator, rawSeparator, ofItems, Text.decodeEscapes_separatorChars]

theorem candidates_ofItems (h : ∀ item ∈ items, Text.IsItem item) :
    (ofItems items count gap quote separator).candidates = items :=
  Text.candidates_writeItems h

theorem outcome_ofItems (h : ∀ item ∈ items, Text.IsItem item) :
    (ofItems items count gap quote separator).outcome =
      if items = [] then .unchanged else if count = 0 then .empty else .substituted := by
  have hpos : 0 < maxCount := by decide
  have hzero : min count maxCount = 0 ↔ count = 0 := by omega
  simp only [outcome, candidates_ofItems h, count_ofItems, hzero]

end Block

end PromptDraw
