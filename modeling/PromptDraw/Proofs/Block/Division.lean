import PromptDraw.Proofs.Block.Items
import PromptDraw.Proofs.Block.Size
import PromptDraw.Proofs.Text.Bytes

/-!
Dividing a content into items loses nothing. Items stand in the content one behind the
other, with a comma between any two, and only a comma that divides at the very end belongs
to none. A comma divides unless it stands directly behind a backslash, so no item can be
divided again, and the candidates of two contents joined by such a comma are those of the
one and then those of the other.
-/

namespace PromptDraw

namespace Text

theorem intercalate_segments (escaped : Bool) (s : Text) :
    [','].intercalate (segments escaped s) = s := by
  fun_induction segments escaped s with
  | case1 => rfl
  | case2 escaped c s hdivide ih =>
      obtain ⟨rfl, -⟩ := hdivide
      rw [List.intercalate_cons_of_ne_nil (segments_ne_nil false s), ih]
      rfl
  | case3 escaped c s hstay hnone ih => exact absurd hnone (segments_ne_nil _ s)
  | case4 escaped c s hstay segment rest hs ih =>
      rw [hs] at ih
      cases rest with
      | nil =>
          rw [List.intercalate_singleton] at ih ⊢
          rw [ih]
      | cons next rest =>
          rw [List.intercalate_cons_cons] at ih ⊢
          rw [← ih]
          rfl

/-- No comma divides a piece. The first piece starts where the text does, the others behind
a comma. -/
theorem segments_of_segments {escaped : Bool} {s first : Text} {rest : List Text}
    (hs : segments escaped s = first :: rest) :
    segments escaped first = [first] ∧ ∀ segment ∈ rest, segments false segment = [segment] := by
  induction s generalizing escaped first rest with
  | nil =>
      obtain ⟨rfl, rfl⟩ := List.cons.inj hs
      exact ⟨rfl, List.forall_mem_nil _⟩
  | cons c s ih =>
      obtain ⟨first', rest', hs'⟩ := List.exists_cons_of_ne_nil (segments_ne_nil (c == '\\') s)
      obtain ⟨hfirst, hrest⟩ := ih hs'
      by_cases hdivide : c = ',' ∧ ¬escaped = true
      · obtain rfl := hdivide.1
        rw [segments, if_pos hdivide, List.cons.injEq] at hs
        obtain ⟨rfl, rfl⟩ := hs
        have hbehind : segments false s = first' :: rest' := hs'
        rw [hbehind]
        exact ⟨rfl, List.forall_mem_cons.2 ⟨hfirst, hrest⟩⟩
      · rw [segments_cons hdivide hs', List.cons.injEq] at hs
        obtain ⟨rfl, rfl⟩ := hs
        exact ⟨segments_cons hdivide hfirst, hrest⟩

theorem ends_of_getLast?_segments {escaped : Bool} {s : Text}
    (h : (segments escaped s).getLast? = some []) :
    s = [] ∨ ∃ front, s = front ++ [','] ∧ front.getLast? ≠ some '\\' := by
  rcases List.eq_nil_or_concat s with rfl | ⟨front, c, rfl⟩
  · exact .inl rfl
  · rw [List.concat_eq_append] at h ⊢
    obtain ⟨segments', last, first, back, -, hc, hs⟩ := segments_append escaped front [c]
    by_cases hdivide : c = ',' ∧ ¬endsEscaped escaped front = true
    · obtain ⟨rfl, hend⟩ := hdivide
      exact .inr ⟨front, rfl, fun hlast => hend (endsEscaped_iff.2 (.inl hlast))⟩
    · rw [segments_cons hdivide rfl, List.cons.injEq] at hc
      obtain ⟨rfl, rfl⟩ := hc
      rw [hs, List.getLast?_concat, Option.some.injEq] at h
      exact absurd h (List.append_ne_nil_of_right_ne_nil last (List.cons_ne_nil c []))

theorem rawItems_append_comma {a : Text} (b : Text) (h : a.getLast? ≠ some '\\') :
    rawItems (a ++ ',' :: b) = segments false a ++ b.rawItems := by
  rw [rawItems_eq, segments_append_comma b h fun _ => rfl,
    dropEmptyLast_append _ (segments_ne_nil false b), ← rawItems_eq]

theorem intercalate_rawItems {content : Text}
    (h : ∀ front, content = front ++ [','] → front.getLast? = some '\\') :
    [','].intercalate content.rawItems = content := by
  by_cases hlast : (content.segments false).getLast? = some []
  · rcases ends_of_getLast?_segments hlast with rfl | ⟨front, rfl, hfront⟩
    · rfl
    · exact absurd (h front rfl) hfront
  · rw [rawItems_eq, dropEmptyLast, if_neg hlast, intercalate_segments]

theorem intercalate_rawItems_concat {front : Text} (h : front.getLast? ≠ some '\\') :
    [','].intercalate (rawItems (front ++ [','])) = front := by
  have hnone : rawItems [] = [] := rfl
  rw [rawItems_append_comma [] h, hnone, List.append_nil, intercalate_segments]

theorem exists_eq_intercalate_rawItems (content : Text) :
    ∃ rest, content = [','].intercalate content.rawItems ++ rest := by
  by_cases h : ∃ front, content = front ++ [','] ∧ front.getLast? ≠ some '\\'
  · obtain ⟨front, rfl, hfront⟩ := h
    exact ⟨[','], by rw [intercalate_rawItems_concat hfront]⟩
  · refine ⟨[], ?_⟩
    rw [List.append_nil, intercalate_rawItems]
    intro front hs
    by_contra hfront
    exact h ⟨front, hs, hfront⟩

theorem rawItems_ne_nil {content : Text} (h : content ≠ []) : content.rawItems ≠ [] := by
  intro hnil
  rw [rawItems_eq, dropEmptyLast] at hnil
  split at hnil
  · rename_i hlast
    obtain ⟨front, hfront⟩ := List.getLast?_eq_some_iff.1 hlast
    have hjoined := intercalate_segments false content
    rw [hfront, List.dropLast_concat] at hnil
    rw [hfront, hnil] at hjoined
    exact h hjoined.symm
  · exact segments_ne_nil false content hnil

theorem segments_of_mem_rawItems {content item : Text} (h : item ∈ content.rawItems) :
    segments false item = [item] := by
  have hmem := (rawItems_sublist content).mem h
  obtain ⟨first, rest, hs⟩ := List.exists_cons_of_ne_nil (segments_ne_nil false content)
  obtain ⟨hfirst, hrest⟩ := segments_of_segments hs
  rw [hs] at hmem
  rcases List.mem_cons.1 hmem with rfl | hmem
  · exact hfirst
  · exact hrest item hmem

theorem getLast?_of_undivided {before after : Text}
    (h : segments false (before ++ ',' :: after) = [before ++ ',' :: after]) :
    before.getLast? = some '\\' := by
  by_contra hlast
  have hlength := congrArg List.length (segments_append_comma after hlast fun _ => rfl)
  have hbefore := List.length_pos_iff.2 (segments_ne_nil false before)
  have hafter := List.length_pos_iff.2 (segments_ne_nil false after)
  rw [h, List.length_append, List.length_singleton] at hlength
  omega

/-- The bytes at which some texts start and end that stand from byte `offset` on with a comma
behind each. -/
def spansFrom (offset : Nat) : List Text → List (Nat × Nat)
  | [] => []
  | text :: texts =>
    (offset, offset + text.utf8Size) :: spansFrom (offset + text.utf8Size + 1) texts

/-- Where the items of a content stand in it. -/
def itemSpans (content : Text) : List (Nat × Nat) :=
  spansFrom 0 content.rawItems

theorem spansFrom_append (offset : Nat) (texts others : List Text) :
    spansFrom offset (texts ++ others) =
      spansFrom offset texts ++ spansFrom (offset + listedSize texts) others := by
  induction texts generalizing offset with
  | nil => rfl
  | cons text texts ih =>
      rw [List.cons_append, spansFrom, ih, spansFrom, List.cons_append, listedSize]
      simp only [Nat.add_assoc]

theorem bounds_of_mem_spansFrom {offset : Nat} {texts : List Text} {span : Nat × Nat}
    (h : span ∈ spansFrom offset texts) :
    offset ≤ span.1 ∧ span.1 ≤ span.2 ∧ span.2 < offset + listedSize texts := by
  induction texts generalizing offset with
  | nil => exact absurd h List.not_mem_nil
  | cons text texts ih =>
      rw [listedSize]
      rcases List.mem_cons.1 h with rfl | h
      · exact ⟨Nat.le_refl _, Nat.le_add_right _ _, by omega⟩
      · obtain ⟨hstart, horder, hstop⟩ := ih h
        exact ⟨by omega, horder, by omega⟩

theorem cut_spansFrom (before : Text) (texts : List Text) (after : Text) :
    ((spansFrom before.utf8Size texts).map fun span =>
      cut (before ++ [','].intercalate texts ++ after) span.1 span.2) = texts.map .ok := by
  induction texts generalizing before with
  | nil => rfl
  | cons text texts ih =>
      have hfirst (rest : Text) : cut (before ++ (text ++ rest) ++ after) before.utf8Size
          (before.utf8Size + text.utf8Size) = .ok text := by
        have hcut := cut_append before text (rest ++ after)
        rw [utf8Size_append] at hcut
        simpa using hcut
      rw [spansFrom, List.map_cons, List.map_cons]
      cases texts with
      | nil =>
          have hjoined : [','].intercalate [text] = text ++ [] := by simp
          rw [hjoined, hfirst]
          rfl
      | cons next rest =>
          have hbehind : before.utf8Size + text.utf8Size + 1 =
              (before ++ text ++ [',']).utf8Size := by
            rw [utf8Size_append, utf8Size_append]
            rfl
          have hjoined : [','].intercalate (text :: next :: rest) =
              text ++ ([','] ++ [','].intercalate (next :: rest)) := by
            rw [List.intercalate_cons_cons, List.append_assoc]
          have hrest := ih (before ++ text ++ [','])
          rw [hjoined, hfirst, hbehind]
          simp only [List.append_assoc] at hrest ⊢
          rw [hrest]

/-- The items stand in the content one behind the other. -/
theorem cut_itemSpans (content : Text) :
    (content.itemSpans.map fun span => content.cut span.1 span.2) =
      content.rawItems.map .ok := by
  obtain ⟨rest, hcontent⟩ := exists_eq_intercalate_rawItems content
  have hcut := cut_spansFrom [] content.rawItems rest
  rw [List.nil_append, ← hcontent] at hcut
  exact hcut

/-- An item ends at a comma that divides, and one starts behind it if anything does. -/
theorem mem_itemSpans_append_comma {a : Text} (b : Text) (h : a.getLast? ≠ some '\\') :
    (∃ start, (start, a.utf8Size) ∈ itemSpans (a ++ ',' :: b)) ∧
      (b ≠ [] → ∃ stop, (a.utf8Size + 1, stop) ∈ itemSpans (a ++ ',' :: b)) := by
  have hsize := listedSize_segments false a
  rw [itemSpans, rawItems_append_comma b h, spansFrom_append, hsize, Nat.zero_add]
  constructor
  · obtain ⟨front, last, -, -, ha, -, -⟩ := segments_append false a b
    rw [ha, listedSize_append, listedSize, listedSize] at hsize
    have hstop : 0 + listedSize front + last.utf8Size = a.utf8Size := by omega
    refine ⟨0 + listedSize front, List.mem_append_left _ ?_⟩
    rw [ha, spansFrom_append, spansFrom, hstop]
    exact List.mem_append_right _ List.mem_cons_self
  · intro hb
    obtain ⟨item, items, hitems⟩ := List.exists_cons_of_ne_nil (rawItems_ne_nil hb)
    rw [hitems]
    exact ⟨_, List.mem_append_right _ List.mem_cons_self⟩

/-- Dividing a content loses nothing. Joined with commas its items give the content again,
but for one comma at the end that divides; they stand in it one behind the other, and an
empty content has none. A comma in an item stands directly behind a backslash, so that an
item that is not empty is its own only item. Every other comma of the content divides: an
item ends there, and the next one starts behind it. -/
theorem dividing_loses_nothing (content : Text) :
    ((∀ front, content = front ++ [','] → front.getLast? = some '\\') →
      [','].intercalate content.rawItems = content) ∧
    (∀ front, content = front ++ [','] → front.getLast? ≠ some '\\' →
      content = [','].intercalate content.rawItems ++ [',']) ∧
    (content = [] → content.rawItems = []) ∧
    (content.itemSpans.map fun span => content.cut span.1 span.2) = content.rawItems.map .ok ∧
    (∀ item ∈ content.rawItems, ∀ before after, item = before ++ ',' :: after →
      before.getLast? = some '\\') ∧
    (∀ before after, content = before ++ ',' :: after → before.getLast? ≠ some '\\' →
      (∃ start, (start, before.utf8Size) ∈ content.itemSpans) ∧
      (after ≠ [] → ∃ stop, (before.utf8Size + 1, stop) ∈ content.itemSpans)) ∧
    ∀ item ∈ content.rawItems, item ≠ [] → item.rawItems = [item] := by
  refine ⟨intercalate_rawItems, ?_, ?_, cut_itemSpans content, ?_, ?_, ?_⟩
  · rintro front rfl hfront
    rw [intercalate_rawItems_concat hfront]
  · rintro rfl
    rfl
  · rintro item hitem before after rfl
    exact getLast?_of_undivided (segments_of_mem_rawItems hitem)
  · rintro before after rfl hlast
    exact mem_itemSpans_append_comma after hlast
  · intro item hitem hne
    rw [rawItems_eq, segments_of_mem_rawItems hitem, dropEmptyLast, if_neg (by simpa using hne)]

/-- A doubled backslash in front of a comma, an empty item, and a comma at the end. -/
theorem dividing_loses_nothing_doubled_backslash :
    let content : Text := ['a', '\\', '\\', ',', 'b', ',', ',']
    content = [','].intercalate content.rawItems ++ [','] ∧
      rawItems ['a', '\\', '\\', ',', 'b'] = [['a', '\\', '\\', ',', 'b']] ∧
      ∃ start, (start, 5) ∈ content.itemSpans := by
  intro content
  obtain ⟨-, hjoined, -, -, -, hcommas, hagain⟩ := dividing_loses_nothing content
  have hitem : ['a', '\\', '\\', ',', 'b'] ∈ content.rawItems := by decide
  exact ⟨hjoined ['a', '\\', '\\', ',', 'b', ','] rfl (by decide), hagain _ hitem (by decide),
    (hcommas ['a', '\\', '\\', ',', 'b'] [','] rfl (by decide)).1⟩

/-- Decoding never empties an item, so an item comes to nothing just if it is all layout. -/
theorem item_eq_nil_iff {raw : Text} : raw.item = [] ↔ ∀ c ∈ raw, isLayout c = true := by
  rw [item, decodeEscapes_eq_nil_iff, trim_eq_nil_iff]

theorem candidates_append_comma {a : Text} (b : Text) (h : a.getLast? ≠ some '\\') :
    candidates (a ++ ',' :: b) = a.candidates ++ b.candidates := by
  rw [candidates_eq_filter, segments_append_comma b h fun _ => rfl, List.map_append,
    List.filter_append, ← candidates_eq_filter, ← candidates_eq_filter]

theorem dropEmptyLast_cons_of_ne_nil {text : Text} (h : text ≠ []) (texts : List Text) :
    dropEmptyLast (text :: texts) = text :: dropEmptyLast texts := by
  cases texts with
  | nil => rw [dropEmptyLast, List.getLast?_singleton, if_neg (by simpa using h)]; rfl
  | cons other texts => exact dropEmptyLast_cons text (List.cons_ne_nil other texts)

/-- A comma behind a backslash lies in an item, which starts at or before it and ends
behind it. -/
theorem exists_itemSpans_append_comma {a : Text} (b : Text) (h : a.getLast? = some '\\') :
    ∃ front start stop back, itemSpans (a ++ ',' :: b) = front ++ (start, stop) :: back ∧
      start ≤ a.utf8Size ∧ a.utf8Size < stop ∧
      (∀ span ∈ front, span.2 < start) ∧ ∀ span ∈ back, stop < span.1 := by
  obtain ⟨front, last, first, back, ha, hb, hab⟩ := segments_append false a (',' :: b)
  have hstays : ¬((',' : Char) = ',' ∧ ¬endsEscaped false a = true) :=
    fun hcomma => hcomma.2 (endsEscaped_iff.2 (.inl h))
  obtain ⟨segment, rest, hrest⟩ := List.exists_cons_of_ne_nil (segments_ne_nil (',' == '\\') b)
  rw [segments_cons hstays hrest, List.cons.injEq] at hb
  obtain ⟨rfl, rfl⟩ := hb
  have hsize := listedSize_segments false a
  rw [ha, listedSize_append, listedSize, listedSize] at hsize
  have hne : last ++ ',' :: segment ≠ [] :=
    List.append_ne_nil_of_right_ne_nil last (List.cons_ne_nil _ _)
  have hitem : utf8Size (last ++ ',' :: segment) = last.utf8Size + 1 + segment.utf8Size := by
    rw [utf8Size_append, utf8Size_cons, Nat.add_assoc]
    rfl
  rw [itemSpans, rawItems_eq, hab, dropEmptyLast_append _ (List.cons_ne_nil _ _),
    dropEmptyLast_cons_of_ne_nil hne, spansFrom_append, spansFrom, hitem]
  refine ⟨_, _, _, _, rfl, by omega, by omega, ?_, ?_⟩
  · intro span hspan
    exact (bounds_of_mem_spansFrom hspan).2.2
  · intro span hspan
    exact (bounds_of_mem_spansFrom hspan).1

/-- Candidates are taken item by item. They are the items that hold more than layout, each
trimmed and decoded, in the order of the items. Behind a comma that divides a content, its
candidates are those of a content of their own. A comma behind a backslash, even a doubled
one, never divides: no item ends at it, and one reaches over it. -/
theorem candidates_divide_at_commas :
    (∀ content : Text, content.candidates =
      (content.rawItems.filter fun raw => raw.any (· ∉ [' ', '\t', '\n', '\r'])).map fun raw =>
        (raw.trim isLayout).decodeEscapes itemMarks) ∧
    (∀ a b : Text, a.getLast? ≠ some '\\' →
      candidates (a ++ ',' :: b) = a.candidates ++ b.candidates) ∧
    ∀ a b : Text, a.getLast? = some '\\' →
      (∀ span ∈ itemSpans (a ++ ',' :: b), span.2 ≠ a.utf8Size) ∧
      ∃ span ∈ itemSpans (a ++ ',' :: b), span.1 ≤ a.utf8Size ∧ a.utf8Size < span.2 := by
  refine ⟨?_, fun a b h => candidates_append_comma b h, ?_⟩
  · intro content
    rw [candidates, List.filter_map]
    refine congrArg (List.map item) (List.filter_congr fun raw _ => ?_)
    rw [Bool.eq_iff_iff]
    simp [item_eq_nil_iff, isLayout, and_assoc]
  · intro a b h
    obtain ⟨front, start, stop, back, hspans, hstart, hstop, hfront, hback⟩ :=
      exists_itemSpans_append_comma b h
    have horder : ∀ span ∈ itemSpans (a ++ ',' :: b), span.1 ≤ span.2 :=
      fun span hspan => (bounds_of_mem_spansFrom hspan).2.1
    rw [hspans] at horder ⊢
    refine ⟨?_, (start, stop), by simp, hstart, hstop⟩
    intro span hspan
    have hle := horder span hspan
    rcases List.mem_append.1 hspan with hspan | hspan
    · have hbefore := hfront span hspan
      omega
    · rcases List.mem_cons.1 hspan with rfl | hspan
      · exact Nat.ne_of_gt hstop
      · have hbehind := hback span hspan
        omega

/-- A comma behind a doubled backslash, and behind it items of layout alone, one of which
is an escaped line feed. -/
theorem candidates_divide_at_commas_doubled_backslash :
    let a : Text := ['x', '\\', '\\']
    let b : Text := ['y', ',', ' ', '\n', ',', ' ', '\\', 'n']
    a.getLast? = some '\\' ∧ (∀ span ∈ itemSpans (a ++ ',' :: b), span.2 ≠ a.utf8Size) ∧
      candidates (a ++ ',' :: b) = [['x', '\\', ',', 'y'], ['\n']] := by
  intro a b
  obtain ⟨-, happend, hnever⟩ := candidates_divide_at_commas
  have hfirst : candidates (a ++ [',', 'y']) = [['x', '\\', ',', 'y']] := by decide
  have hrest : candidates [' ', '\n', ',', ' ', '\\', 'n'] = [['\n']] := by decide
  have hboth := happend (a ++ [',', 'y']) [' ', '\n', ',', ' ', '\\', 'n'] (by decide)
  rw [hfirst, hrest] at hboth
  exact ⟨rfl, (hnever a b rfl).1, hboth⟩

end Text

end PromptDraw
