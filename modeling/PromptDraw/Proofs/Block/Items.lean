import PromptDraw.Block.Meaning
import PromptDraw.Proofs.Text.Decoding
import PromptDraw.Proofs.Text.Trimming

/-!
How a content is divided into items. A comma divides unless it stands directly
behind a backslash, and dividing on the two sides of such a comma is dividing the
whole. Every candidate comes from the trimmed form of an item, so it has no space
at either end.
-/

namespace PromptDraw

namespace Text

theorem segments_ne_nil (escaped : Bool) (s : Text) : s.segments escaped ≠ [] := by
  fun_cases segments escaped s <;> simp

theorem segments_cons {escaped : Bool} {c : Char} {s segment : Text} {rest : List Text}
    (hstay : ¬(c = ',' ∧ ¬escaped = true)) (hs : s.segments (c == '\\') = segment :: rest) :
    segments escaped (c :: s) = (c :: segment) :: rest := by
  simp only [segments, if_neg hstay, hs]

theorem segments_stay {escaped : Bool} {c : Char} {s : Text}
    (hstay : ¬(c = ',' ∧ ¬escaped = true)) :
    segments escaped (c :: s) = (s.segments (c == '\\')).modifyHead (c :: ·) := by
  obtain ⟨segment, rest, hs⟩ := List.exists_cons_of_ne_nil (segments_ne_nil (c == '\\') s)
  rw [segments_cons hstay hs, hs, List.modifyHead_cons]

/-- Whether what follows a text stands directly behind a backslash. The text itself does
if `escaped` holds. -/
def endsEscaped (escaped : Bool) : Text → Bool
  | [] => escaped
  | c :: s => endsEscaped (c == '\\') s

theorem endsEscaped_iff {escaped : Bool} {s : Text} :
    endsEscaped escaped s = true ↔ s.getLast? = some '\\' ∨ (s = [] ∧ escaped = true) := by
  induction s generalizing escaped with
  | nil => simp [endsEscaped]
  | cons c s ih =>
      rw [endsEscaped, ih]
      cases s with
      | nil => simp
      | cons d s => simp [List.getLast?_cons_cons]

/-- At a seam the last piece before it and the first one behind it become one. -/
theorem segments_append (escaped : Bool) (a b : Text) :
    ∃ front last first back, segments escaped a = front ++ [last] ∧
      segments (endsEscaped escaped a) b = first :: back ∧
      segments escaped (a ++ b) = front ++ (last ++ first) :: back := by
  induction a generalizing escaped with
  | nil =>
      obtain ⟨first, back, hb⟩ := List.exists_cons_of_ne_nil (segments_ne_nil escaped b)
      exact ⟨[], [], first, back, rfl, hb, hb⟩
  | cons c a ih =>
      obtain ⟨front, last, first, back, ha, hb, hab⟩ := ih (c == '\\')
      by_cases hdivide : c = ',' ∧ ¬escaped = true
      · have hcomma : (c == '\\') = false := by simp [hdivide.1]
        rw [hcomma] at ha hab
        refine ⟨[] :: front, last, first, back, ?_, hb, ?_⟩
        · rw [segments, if_pos hdivide, ha, List.cons_append]
        · rw [List.cons_append, segments, if_pos hdivide, hab, List.cons_append]
      · rw [segments_stay hdivide, List.cons_append, segments_stay hdivide, ha, hab]
        cases front with
        | nil => exact ⟨[], c :: last, first, back, rfl, hb, rfl⟩
        | cons segment front => exact ⟨(c :: segment) :: front, last, first, back, rfl, hb, rfl⟩

/-- The comma between `a` and `b` divides, since it is not behind a backslash. -/
theorem segments_append_comma {escaped : Bool} {a : Text} (b : Text)
    (hlast : a.getLast? ≠ some '\\') (hescaped : a = [] → escaped = false) :
    segments escaped (a ++ ',' :: b) = segments escaped a ++ segments false b := by
  obtain ⟨front, last, first, back, ha, hb, hab⟩ := segments_append escaped a (',' :: b)
  have hdivide : ¬endsEscaped escaped a = true := by
    rw [endsEscaped_iff]
    rintro (h | ⟨hnil, htrue⟩)
    · exact hlast h
    · exact Bool.false_ne_true ((hescaped hnil).symm.trans htrue)
  rw [segments, if_pos ⟨rfl, hdivide⟩, List.cons.injEq] at hb
  obtain ⟨rfl, rfl⟩ := hb
  rw [hab, ha, List.append_nil, List.append_assoc, List.singleton_append]

/-- Without an empty text at the end. -/
def dropEmptyLast (texts : List Text) : List Text :=
  if texts.getLast? = some [] then texts.dropLast else texts

theorem dropEmptyLast_cons (text : Text) {texts : List Text} (h : texts ≠ []) :
    dropEmptyLast (text :: texts) = text :: dropEmptyLast texts := by
  obtain ⟨other, rest, rfl⟩ := List.exists_cons_of_ne_nil h
  unfold dropEmptyLast
  rw [List.getLast?_cons_cons, List.dropLast_cons_cons]
  split <;> rfl

theorem dropEmptyLast_append (texts : List Text) {others : List Text} (h : others ≠ []) :
    dropEmptyLast (texts ++ others) = texts ++ dropEmptyLast others := by
  induction texts with
  | nil => rfl
  | cons text texts ih =>
      have hmore : texts ++ others ≠ [] := List.append_ne_nil_of_right_ne_nil texts h
      rw [List.cons_append, dropEmptyLast_cons text hmore, ih, List.cons_append]

theorem rawItems_eq (content : Text) :
    content.rawItems = dropEmptyLast (content.segments false) := rfl

/-- An empty piece after the last comma would give no candidate anyway. -/
theorem candidates_eq_filter (content : Text) :
    content.candidates = ((content.segments false).map item).filter (· ≠ []) := by
  rw [candidates, rawItems]
  split
  · rename_i hlast
    obtain ⟨segments, hsegments⟩ := List.getLast?_eq_some_iff.1 hlast
    have hempty : item [] = [] := rfl
    rw [hsegments, List.dropLast_concat, List.map_append, List.filter_append, List.map_singleton,
      hempty]
    simp
  · rfl

/-- Text that does not start or end with a space, as an item must be to be
written in a block. -/
def IsItem (item : Text) : Prop :=
  item ≠ [] ∧ item.head? ≠ some ' ' ∧ item.getLast? ≠ some ' '

theorem isItem_of_mem_candidates {content item : Text} (h : item ∈ content.candidates) :
    IsItem item := by
  obtain ⟨hmem, hne⟩ := List.mem_filter.1 h
  obtain ⟨raw, -, rfl⟩ := List.mem_map.1 hmem
  have hspace : ' ' ∉ itemMarks := by decide
  refine ⟨by simpa using hne, ?_, ?_⟩
  · intro hhead
    exact absurd (not_of_head?_trim (head?_of_head?_decodeEscapes hspace hhead)) (by decide)
  · intro hlast
    exact absurd (not_of_getLast?_trim (getLast?_of_getLast?_decodeEscapes hspace hlast))
      (by decide)

end Text

end PromptDraw
