import Mathlib.Data.List.Perm.Subperm
import PromptDraw.Block.Meaning
import PromptDraw.Proofs.Block.Items

/-!
How many bytes the parts of a block take. Trimming and decoding never lengthen a
text, and the items of a content with a comma behind each take no more than the
content with one comma. So any candidates of a block, each taken once, fit into its
content, and what separates them fits into what was written for it.
-/

namespace PromptDraw

namespace Text

theorem utf8Size_pos_of_ne_nil {s : Text} (h : s ≠ []) : 0 < s.utf8Size := by
  obtain ⟨c, s, rfl⟩ := List.exists_cons_of_ne_nil h
  exact Nat.lt_of_lt_of_le c.utf8Size_pos (Nat.le_add_right _ _)

theorem utf8Size_le_of_sublist {s t : Text} (h : s.Sublist t) : s.utf8Size ≤ t.utf8Size := by
  induction h with
  | slnil => exact Nat.le_refl 0
  | cons c _ ih => exact Nat.le_add_left_of_le ih
  | cons_cons c _ ih => exact Nat.add_le_add_left ih c.utf8Size

theorem trim_sublist (p : Char → Bool) (s : Text) : (trim p s).Sublist s := by
  have hfront : (s.dropWhile p).Sublist s := List.dropWhile_sublist p
  have hback : ((s.dropWhile p).reverse.dropWhile p).Sublist (s.dropWhile p).reverse :=
    List.dropWhile_sublist p
  have hreverse := hback.reverse
  rw [List.reverse_reverse] at hreverse
  exact hreverse.trans hfront

theorem utf8Size_item_le (raw : Text) : raw.item.utf8Size ≤ raw.utf8Size :=
  Nat.le_trans (utf8Size_decodeEscapes_le itemMarks _)
    (utf8Size_le_of_sublist (trim_sublist isLayout raw))

/-- The bytes of some texts with a comma behind each. -/
def listedSize : List Text → Nat
  | [] => 0
  | text :: texts => text.utf8Size + 1 + listedSize texts

theorem listedSize_append (texts others : List Text) :
    listedSize (texts ++ others) = listedSize texts + listedSize others := by
  induction texts with
  | nil => exact (Nat.zero_add _).symm
  | cons text texts ih =>
      rw [List.cons_append, listedSize, listedSize, ih]
      omega

theorem listedSize_eq_of_perm {texts texts' : List Text} (h : texts.Perm texts') :
    listedSize texts = listedSize texts' := by
  induction h with
  | nil => rfl
  | cons text _ ih => rw [listedSize, listedSize, ih]
  | swap text text' texts =>
      simp only [listedSize]
      omega
  | trans _ _ ih ih' => exact ih.trans ih'

theorem listedSize_le_of_sublist {texts texts' : List Text} (h : texts.Sublist texts') :
    listedSize texts ≤ listedSize texts' := by
  induction h with
  | slnil => exact Nat.le_refl 0
  | cons text _ ih => exact Nat.le_add_left_of_le ih
  | cons_cons text _ ih => exact Nat.add_le_add_left ih _

theorem listedSize_le_of_subperm {texts texts' : List Text} (h : texts.Subperm texts') :
    listedSize texts ≤ listedSize texts' := by
  obtain ⟨texts'', hperm, hsublist⟩ := h
  rw [← listedSize_eq_of_perm hperm]
  exact listedSize_le_of_sublist hsublist

theorem listedSize_map_item_le (raws : List Text) :
    listedSize (raws.map item) ≤ listedSize raws := by
  induction raws with
  | nil => exact Nat.le_refl 0
  | cons raw raws ih =>
      have hitem := utf8Size_item_le raw
      simp only [List.map_cons, listedSize]
      omega

/-- Dividing at commas keeps every byte, the commas that divide included. -/
theorem listedSize_segments (escaped : Bool) (s : Text) :
    listedSize (segments escaped s) = s.utf8Size + 1 := by
  fun_induction segments escaped s with
  | case1 => rfl
  | case2 escaped c s hdivide ih =>
      obtain ⟨rfl, -⟩ := hdivide
      have hcomma : (',' : Char).utf8Size = 1 := by decide
      simp only [listedSize, ih, utf8Size_nil, utf8Size_cons, hcomma]
      omega
  | case3 escaped c s hstay hnone ih => exact absurd hnone (segments_ne_nil _ s)
  | case4 escaped c s hstay segment rest hs ih =>
      rw [hs] at ih
      simp only [listedSize, utf8Size_cons] at ih ⊢
      omega

theorem rawItems_sublist (content : Text) : content.rawItems.Sublist (content.segments false) := by
  simp only [rawItems]
  split
  · exact List.dropLast_sublist _
  · exact List.Sublist.refl _

theorem listedSize_candidates_le (content : Text) :
    listedSize content.candidates ≤ content.utf8Size + 1 := by
  calc listedSize content.candidates
      ≤ listedSize (content.rawItems.map item) := listedSize_le_of_sublist List.filter_sublist
    _ ≤ listedSize content.rawItems := listedSize_map_item_le _
    _ ≤ listedSize (content.segments false) := listedSize_le_of_sublist (rawItems_sublist content)
    _ = content.utf8Size + 1 := listedSize_segments false content

/-- Two texts need one separator between them, fewer need none. -/
theorem utf8Size_intercalate_le (separator : Text) {texts : List Text} (h : texts.length ≤ 2) :
    utf8Size (separator.intercalate texts) ≤ listedSize texts + separator.utf8Size := by
  match texts, h with
  | [], _ => exact Nat.zero_le _
  | [text], _ =>
      have hjoined : separator.intercalate [text] = text := by simp
      rw [hjoined, listedSize]
      omega
  | [text, text'], _ =>
      have hjoined : separator.intercalate [text, text'] = text ++ (separator ++ text') := by
        simp [List.intercalate, List.intersperse]
      rw [hjoined, utf8Size_append, utf8Size_append, listedSize, listedSize]
      omega

end Text

namespace Block

theorem utf8Size_eq (b : Block) :
    b.utf8Size = b.content.utf8Size + b.digits.utf8Size +
      Text.utf8Size ((b.clause.map Clause.text).getD []) + 6 := by
  have hopen : Text.utf8Size ['{', '{'] = 2 := by decide
  have hmiddle : Text.utf8Size ['}', '}', '('] = 3 := by decide
  have hclose : Text.utf8Size [')'] = 1 := by decide
  simp only [utf8Size, text, tailText, Text.utf8Size_append, hopen, hmiddle, hclose]
  omega

/-- A separator is no longer than what was written for it, or the one space that
stands for nothing written. -/
theorem utf8Size_separator_le (b : Block) :
    b.separator.utf8Size ≤ Text.utf8Size ((b.clause.map Clause.text).getD []) + 1 := by
  unfold separator rawSeparator
  cases b.clause with
  | none => decide
  | some clause =>
      have hdecode := Text.utf8Size_decodeEscapes_le Text.separatorMarks clause.body
      simp only [Option.map_some, Option.getD_some, Clause.text, Text.utf8Size_append]
      omega

/-- At most two candidates, each taken once, are shorter than the block. -/
theorem utf8Size_intercalate_lt {b : Block} {items : List Text}
    (htaken : items.Subperm b.candidates) (hfew : items.length ≤ 2) :
    Text.utf8Size (b.separator.intercalate items) < b.utf8Size := by
  have hjoined := Text.utf8Size_intercalate_le b.separator hfew
  have hitems := Text.listedSize_le_of_subperm htaken
  have hcandidates : Text.listedSize b.candidates ≤ b.content.utf8Size + 1 :=
    Text.listedSize_candidates_le b.content
  have hseparator := b.utf8Size_separator_le
  have hblock := b.utf8Size_eq
  omega

end Block

end PromptDraw
