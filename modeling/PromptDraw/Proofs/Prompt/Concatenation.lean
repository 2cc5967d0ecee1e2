import PromptDraw.Prompt.Expand
import PromptDraw.Proofs.Prompt.Pieces

/-!
Putting one prompt behind another. In general the second may complete what the
first left open: an unfinished separator, or a single brace at the end. If every
pair of opening braces in the first lies in one of its blocks, and no pair forms
at the seam, then the two are searched and resolved one after the other. A text
appended to a block leaves it as it is, so only the gaps need an argument.
-/

namespace PromptDraw

variable {σ : Type}

/-- An occurrence moved `size` bytes on. -/
def Occurrence.shift (size : Nat) (o : Occurrence) : Occurrence :=
  { o with start := size + o.start }

namespace Occurrence

@[simp] theorem start_shift (size : Nat) (o : Occurrence) :
    (o.shift size).start = size + o.start := rfl

@[simp] theorem stop_shift (size : Nat) (o : Occurrence) :
    (o.shift size).stop = size + o.stop := Nat.add_assoc _ _ _

end Occurrence

namespace Piece

theorem occurrences_add (size offset : Nat) (ps : List Piece) :
    occurrences (size + offset) ps = (occurrences offset ps).map (Occurrence.shift size) := by
  induction ps generalizing offset with
  | nil => rfl
  | cons p ps ih =>
      cases p with
      | char c => simp only [occurrences, Nat.add_assoc, ih]
      | block b =>
          simp only [occurrences, Nat.add_assoc, ih, List.map_cons]
          rfl

theorem occurrences_eq_shift (size : Nat) (ps : List Piece) :
    occurrences size ps = (occurrences 0 ps).map (Occurrence.shift size) :=
  occurrences_add size 0 ps

theorem resolveAll_append (picker : Picker σ) (ps qs : List Piece) :
    resolveAll picker (ps ++ qs) = (do
      let text ← resolveAll picker ps
      let texts ← resolveAll picker qs
      return text ++ texts) := by
  induction ps with
  | nil =>
      simp only [List.nil_append, resolveAll, pure_bind, bind_pure]
  | cons p ps ih =>
      simp only [List.cons_append, resolveAll, ih, bind_assoc, pure_bind, List.append_assoc]

end Piece

namespace Text

/-- A text in which every pair of opening braces starts inside a block, so that a
search passes over none of them. -/
def Clean (s : Text) : Prop :=
  ∀ before after, s = before ++ '{' :: '{' :: after →
    ∃ o ∈ s.occurrences, o.start ≤ before.utf8Size ∧ before.utf8Size < o.stop

theorem occurrences_of_starts {b : Block} {s rest : Text} (h : b.Starts s rest) :
    s.occurrences = ⟨0, b⟩ :: rest.occurrences.map (Occurrence.shift b.utf8Size) := by
  rw [occurrences, pieces_of_starts h, Piece.occurrences, Nat.zero_add,
    Piece.occurrences_eq_shift]
  rfl

theorem occurrences_cons {c : Char} {s : Text} (h : Block.read? (c :: s) = none) :
    occurrences (c :: s) = s.occurrences.map (Occurrence.shift c.utf8Size) := by
  rw [occurrences, pieces_cons h, Piece.occurrences, Nat.zero_add, Piece.occurrences_eq_shift]
  rfl

theorem Clean.rest {b : Block} {s rest : Text} (hclean : s.Clean) (h : b.Starts s rest) :
    rest.Clean := by
  intro before after hrest
  have hs : s = (b.text ++ before) ++ '{' :: '{' :: after := by
    rw [h.2, hrest, List.append_assoc]
  obtain ⟨o, ho, hstart, hstop⟩ := hclean _ _ hs
  have hsize : utf8Size (b.text ++ before) = b.utf8Size + before.utf8Size := utf8Size_append _ _
  rw [hsize] at hstart hstop
  rw [occurrences_of_starts h] at ho
  rcases List.mem_cons.1 ho with rfl | ho
  · -- The block at the front ends before `rest` begins.
    have hfront : (Occurrence.mk 0 b).stop = b.utf8Size := Nat.zero_add _
    omega
  · obtain ⟨o', ho', rfl⟩ := List.mem_map.1 ho
    rw [Occurrence.start_shift] at hstart
    rw [Occurrence.stop_shift] at hstop
    exact ⟨o', ho', by omega, by omega⟩

theorem Clean.tail {c : Char} {s : Text} (hclean : Clean (c :: s))
    (h : Block.read? (c :: s) = none) : s.Clean := by
  intro before after hs
  have hcons : c :: s = (c :: before) ++ '{' :: '{' :: after := by rw [hs, List.cons_append]
  obtain ⟨o, ho, hstart, hstop⟩ := hclean _ _ hcons
  rw [occurrences_cons h] at ho
  obtain ⟨o', ho', rfl⟩ := List.mem_map.1 ho
  rw [Occurrence.start_shift, utf8Size_cons] at hstart
  rw [Occurrence.stop_shift, utf8Size_cons] at hstop
  exact ⟨o', ho', by omega, by omega⟩

/-- A character outside all blocks of a clean text does not open a pair of
braces. -/
theorem Clean.not_opens {c : Char} {s : Text} (hclean : Clean (c :: s))
    (h : Block.read? (c :: s) = none) : ¬(c = '{' ∧ s.head? = some '{') := by
  rintro ⟨rfl, hhead⟩
  obtain ⟨after, rfl⟩ := List.head?_eq_some_iff.1 hhead
  obtain ⟨o, ho, hstart, -⟩ := hclean [] after rfl
  rw [occurrences_cons h] at ho
  obtain ⟨o', -, rfl⟩ := List.mem_map.1 ho
  have hpos : 0 < ('{' : Char).utf8Size := Char.utf8Size_pos _
  rw [Occurrence.start_shift, utf8Size_nil] at hstart
  omega

/-- Behind a clean text another one is searched as if it stood alone, provided
that the seam itself opens no pair of braces. -/
theorem pieces_append {a b : Text} (hclean : a.Clean)
    (hseam : ¬(a.getLast? = some '{' ∧ b.head? = some '{')) :
    (a ++ b).pieces = a.pieces ++ b.pieces := by
  induction a using pieces.induct with
  | case1 a block rest hread ih =>
      have hstarts := Block.read?_eq_some_iff.1 hread
      have hrest : ¬(rest.getLast? = some '{' ∧ b.head? = some '{') := by
        rintro ⟨hlast, hhead⟩
        refine hseam ⟨?_, hhead⟩
        rw [hstarts.2, List.getLast?_append, hlast, Option.some_or]
      have htail := ih (hclean.rest hstarts) hrest
      rw [pieces_of_read? hread, pieces_of_starts (hstarts.append b), htail, List.cons_append]
  | case2 => rw [pieces_nil, List.nil_append, List.nil_append]
  | case3 c s hread ih =>
      have hlast : s ≠ [] → (c :: s).getLast? = s.getLast? := List.getLast?_cons_of_ne_nil
      have hnone : Block.read? (c :: (s ++ b)) = none := by
        cases hread' : Block.read? (c :: (s ++ b)) with
        | none => rfl
        | some result =>
            obtain ⟨t, ht⟩ := (Block.read?_eq_some_iff.1 hread').opens
            obtain ⟨rfl, hs⟩ := List.cons.inj ht
            cases s with
            | nil =>
                rw [List.nil_append] at hs
                exact absurd ⟨rfl, by rw [hs]; rfl⟩ hseam
            | cons d s =>
                obtain ⟨rfl, -⟩ := List.cons.inj hs
                exact absurd ⟨rfl, rfl⟩ (hclean.not_opens hread)
      have hrest : ¬(s.getLast? = some '{' ∧ b.head? = some '{') := by
        rintro ⟨hs, hhead⟩
        have hne : s ≠ [] := by
          rintro rfl
          cases hs
        exact hseam ⟨(hlast hne).trans hs, hhead⟩
      have htail := ih (hclean.tail hread) hrest
      rw [pieces_cons hread, List.cons_append, pieces_cons hnone, htail, List.cons_append]

theorem occurrences_append_of_clean {a b : Text} (hclean : a.Clean)
    (hseam : ¬(a.getLast? = some '{' ∧ b.head? = some '{')) :
    (a ++ b).occurrences =
      a.occurrences ++ b.occurrences.map (Occurrence.shift a.utf8Size) := by
  rw [occurrences, pieces_append hclean hseam, Piece.occurrences_append, textOf_pieces,
    Nat.zero_add, Piece.occurrences_eq_shift a.utf8Size]
  rfl

theorem resolve_append_of_clean {a b : Text} (hclean : a.Clean)
    (hseam : ¬(a.getLast? = some '{' ∧ b.head? = some '{')) (picker : Picker σ) :
    (a ++ b).resolve picker = (do
      let text ← a.resolve picker
      let texts ← b.resolve picker
      return text ++ texts) := by
  rw [resolve, pieces_append hclean hseam, Piece.resolveAll_append]
  rfl

/-- Resolution is a homomorphism on clean concatenation. Behind a text whose pairs
of opening braces all lie in its blocks, another text holds the blocks that it
holds alone, moved on by the bytes before it, and is resolved from the state that
the first one leaves behind: by every picker, in a preview, and at random. -/
theorem clean_append_homomorphism {a b : Text}
    (hclean : ∀ before after, a = before ++ '{' :: '{' :: after →
      ∃ o ∈ a.occurrences, o.start ≤ before.utf8Size ∧ before.utf8Size < o.stop)
    (hseam : ¬(a.getLast? = some '{' ∧ b.head? = some '{')) :
    (a ++ b).occurrences =
        a.occurrences ++ b.occurrences.map (fun o => ⟨a.utf8Size + o.start, o.block⟩) ∧
      (∀ {σ : Type} (picker : Picker σ), (a ++ b).resolve picker = (do
        let text ← a.resolve picker
        let texts ← b.resolve picker
        return text ++ texts)) ∧
      (a ++ b).preview = a.preview ++ b.preview ∧
      ∀ {σ : Type} [IndexSource σ], (expand (a ++ b) : StateM σ Text) = (do
        let text ← a.expand
        let texts ← b.expand
        return text ++ texts) := by
  refine ⟨occurrences_append_of_clean hclean hseam, ?_, ?_, ?_⟩
  · intro σ picker
    exact resolve_append_of_clean hclean hseam picker
  · rw [preview, resolve_append_of_clean hclean hseam Picker.first]
    rfl
  · intro σ hsource
    exact resolve_append_of_clean hclean hseam Picker.random

/-- The first prompt has text before its block and a pair of braces in its
separator; the second begins with a brace that belongs to no block. -/
theorem clean_append_homomorphism_braces_in_separator :
    let a : Text :=
      ['a', '{', 'b', '{', '{', 'x', ',', 'y', '}', '}', '(', '2', ',', '\'', '{', '{', '\'', ')']
    let b : Text := ['{', '{', '{', 'z', '}', '}', '(', '1', ')']
    (∀ before after, a = before ++ '{' :: '{' :: after →
      ∃ o ∈ a.occurrences, o.start ≤ before.utf8Size ∧ before.utf8Size < o.stop) ∧
      ¬(a.getLast? = some '{' ∧ b.head? = some '{') ∧
      (a ++ b).preview = ['a', '{', 'b', 'x', '{', '{', 'y'] ++ ['{', 'z'] := by
  intro a b
  let o : Occurrence := ⟨3, ⟨['x', ',', 'y'], ['2'], some ⟨[], .single, ['{', '{']⟩⟩⟩
  have hoccurrences : a.occurrences = [o] := by decide +kernel
  have hclean : ∀ before after, a = before ++ '{' :: '{' :: after →
      ∃ o ∈ a.occurrences, o.start ≤ before.utf8Size ∧ before.utf8Size < o.stop := by
    intro before after hs
    have hsize : 18 = before.utf8Size + utf8Size ('{' :: '{' :: after) := by
      rw [← utf8Size_append, ← hs]
      decide
    have hpair : 2 ≤ utf8Size ('{' :: '{' :: after) := by
      have hbrace : ('{' : Char).utf8Size = 1 := by decide
      rw [utf8Size_cons, utf8Size_cons, hbrace]
      omega
    have hstop : o.stop = 18 := by decide
    refine ⟨o, hoccurrences ▸ List.mem_singleton_self o, ?_, by omega⟩
    -- No pair of braces starts at the three characters before the block.
    match before with
    | [] | [_] | [_, _] => simp [a] at hs
    | c :: d :: e :: before =>
        simp only [a, List.cons_append, List.cons.injEq] at hs
        obtain ⟨rfl, rfl, rfl, -⟩ := hs
        have hgap : utf8Size ['a', '{', 'b'] = 3 := by decide
        have happend := utf8Size_append ['a', '{', 'b'] before
        rw [hgap] at happend
        exact happend ▸ Nat.le_add_right 3 (utf8Size before)
  have hseam : ¬(a.getLast? = some '{' ∧ b.head? = some '{') := by decide
  have ha : a.preview = ['a', '{', 'b', 'x', '{', '{', 'y'] := by decide +kernel
  have hb : b.preview = ['{', 'z'] := by decide +kernel
  have h := (clean_append_homomorphism hclean hseam).2.2.1
  rw [ha, hb] at h
  exact ⟨hclean, hseam, h⟩

end Text

end PromptDraw
