import PromptDraw.Proofs.Block.Items
import PromptDraw.Proofs.Block.Overlap

/-!
Layout in a block. It may be put at both ends of the content and on both sides of each
comma that divides it, and the blank characters in front of a separator may be any.
Trimming takes such layout away before anything is decoded, so that the block stands for
the same as before. To a search for the end of a separator that reads over the block, each
of these places lies beside a character that means nothing to it, and more of such
characters change nothing either.
-/

namespace PromptDraw

namespace Clause

theorem SameScan.refl (s : Text) : SameScan s s := fun _ _ => rfl

theorem SameScan.append {s s' t t' : Text} (hs : SameScan s s') (ht : SameScan t t') :
    SameScan (s ++ t) (s' ++ t') := by
  intro quote scan
  rw [Scan.run_append, Scan.run_append, hs quote scan, ht quote]

/-- A character that means nothing to a search for the end of a separator. -/
def IsPlain (c : Char) : Prop :=
  c ≠ '\\' ∧ c ≠ '\'' ∧ c ≠ '"' ∧ c ≠ ')'

instance (c : Char) : Decidable (IsPlain c) :=
  inferInstanceAs (Decidable (_ ∧ _))

theorem isPlain_of_isBlank {c : Char} (h : Text.isBlank c = true) : IsPlain c := by
  refine ⟨?_, ?_, ?_, ?_⟩
  all_goals
    rintro rfl
    exact absurd h (by decide)

theorem sameScan_of_isPlain {s t : Text} (hs : s ≠ []) (ht : t ≠ []) (hs' : ∀ c ∈ s, IsPlain c)
    (ht' : ∀ c ∈ t, IsPlain c) : SameScan s t := by
  have h := sameScan_of_plain [] [] hs ht (List.forall_mem_append.2 ⟨hs', ht'⟩)
  simpa using h

/-- Beside plain characters blank ones are of no effect. -/
theorem sameScan_blanks {before s after : Text} (hbefore : ∀ c ∈ before, Text.isBlank c = true)
    (hne : s ≠ []) (hs : ∀ c ∈ s, IsPlain c) (hafter : ∀ c ∈ after, Text.isBlank c = true) :
    SameScan s (before ++ s ++ after) := by
  refine sameScan_of_isPlain hne (by simp [hne]) hs ?_
  intro c hc
  rcases List.mem_append.1 hc with hc | hc
  · rcases List.mem_append.1 hc with hc | hc
    · exact isPlain_of_isBlank (hbefore c hc)
    · exact hs c hc
  · exact isPlain_of_isBlank (hafter c hc)

end Clause

namespace Text

section Layout

variable {c : Char} (h : isLayout c = true)
include h

theorem not_isBrace_of_isLayout : ¬IsBrace c := by
  rintro (rfl | rfl)
  all_goals exact absurd h (by decide)

theorem ne_comma_of_isLayout : c ≠ ',' := by
  rintro rfl
  exact absurd h (by decide)

theorem beq_backslash_of_isLayout : (c == '\\') = false :=
  beq_eq_false_iff_ne.2 (Clause.isPlain_of_isBlank (isBlank_of_isLayout h)).1

end Layout

theorem forall_isBlank {pad : Text} (hpad : ∀ c ∈ pad, isLayout c = true) :
    ∀ c ∈ pad, isBlank c = true :=
  fun c hc => isBlank_of_isLayout (hpad c hc)

/-- What follows the start of a content, and the same with layout put around its dividing
commas and at its end. Where `escaped` holds, it directly follows a backslash. -/
inductive Spaced : (escaped : Bool) → Text → Text → Prop where
  | nil {escaped : Bool} {pad : Text} (layout : ∀ c ∈ pad, isLayout c = true) :
      Spaced escaped [] pad
  | comma {before after s s' : Text} (before_layout : ∀ c ∈ before, isLayout c = true)
      (after_layout : ∀ c ∈ after, isLayout c = true) (rest : Spaced false s s') :
      Spaced false (',' :: s) (before ++ ',' :: (after ++ s'))
  | char {escaped : Bool} {c : Char} {s s' : Text} (stays : c = ',' → escaped = true)
      (rest : Spaced (c == '\\') s s') : Spaced escaped (c :: s) (c :: s')

theorem IsContent.of_not_escaped {escaped : Bool} {s : Text} (h : IsContent false s) :
    IsContent escaped s := by
  cases h with
  | nil => exact .nil
  | cons hbrace hrest => exact .cons (fun hc => absurd (hbrace hc) Bool.false_ne_true) hrest

theorem isContent_layout_append {pad s : Text} (hpad : ∀ c ∈ pad, isLayout c = true)
    (h : IsContent false s) : IsContent false (pad ++ s) := by
  induction pad with
  | nil => exact h
  | cons c pad ih =>
      obtain ⟨hc, hpad⟩ := List.forall_mem_cons.1 hpad
      refine .cons (fun hbrace => absurd hbrace (not_isBrace_of_isLayout hc)) ?_
      rw [beq_backslash_of_isLayout hc]
      exact ih hpad

/-- No brace is parted from the backslash in front of it. -/
theorem Spaced.isContent {escaped : Bool} {s s' : Text} (h : Spaced escaped s s')
    (hs : IsContent escaped s) : IsContent escaped s' := by
  induction h with
  | nil hpad =>
      have hcontent := isContent_layout_append hpad .nil
      rw [List.append_nil] at hcontent
      exact hcontent.of_not_escaped
  | comma hbefore hafter _ ih =>
      cases hs with
      | cons hbrace hrest =>
          have hcomma : IsContent false (',' :: _) :=
            .cons hbrace (isContent_layout_append hafter (ih hrest))
          exact isContent_layout_append hbefore hcomma
  | char _ _ ih =>
      cases hs with
      | cons hbrace hrest => exact .cons hbrace (ih hrest)

theorem segments_layout_append {pad s segment : Text} {rest : List Text}
    (hpad : ∀ c ∈ pad, isLayout c = true) (hs : s.segments false = segment :: rest) :
    segments false (pad ++ s) = (pad ++ segment) :: rest := by
  induction pad with
  | nil => exact hs
  | cons c pad ih =>
      obtain ⟨hc, hpad⟩ := List.forall_mem_cons.1 hpad
      refine segments_cons (fun hcomma => ne_comma_of_isLayout hc hcomma.1) ?_
      rw [beq_backslash_of_isLayout hc]
      exact ih hpad

theorem segments_layout {escaped : Bool} {pad : Text} (hpad : ∀ c ∈ pad, isLayout c = true) :
    pad.segments escaped = [pad] := by
  cases pad with
  | nil => rfl
  | cons c pad =>
      obtain ⟨hc, hrest⟩ := List.forall_mem_cons.1 hpad
      refine segments_cons (fun hcomma => ne_comma_of_isLayout hc hcomma.1) ?_
      have hsegments := segments_layout_append hrest (s := []) rfl
      rwa [List.append_nil, ← beq_backslash_of_isLayout hc] at hsegments

/-- Layout comes to stand at the ends of the segments only, and in front of the first
one there is none. -/
theorem Spaced.exists_segments {escaped : Bool} {s s' : Text} (h : Spaced escaped s s') :
    ∃ segment pad rest rest', s.segments escaped = segment :: rest ∧
      s'.segments escaped = (segment ++ pad) :: rest' ∧ (∀ c ∈ pad, isLayout c = true) ∧
      rest'.map (trim isLayout) = rest.map (trim isLayout) := by
  induction h with
  | nil hpad => exact ⟨[], _, [], [], rfl, segments_layout hpad, hpad, rfl⟩
  | @comma before after s s' hbefore hafter _ ih =>
      obtain ⟨segment, pad, rest, rest', hs, hs', hpad, hrest⟩ := ih
      have hdivide : segments false (',' :: s) = [] :: segments false s := by simp [segments]
      have hlast : before.getLast? ≠ some '\\' := by
        intro hbackslash
        have hc := hbefore _ (List.mem_of_getLast? hbackslash)
        exact absurd hc (by decide)
      refine ⟨[], before, segment :: rest, (after ++ (segment ++ pad)) :: rest', ?_, ?_, hbefore, ?_⟩
      · rw [hdivide, hs]
      · rw [segments_append_comma _ hlast fun _ => rfl, segments_layout hbefore,
          segments_layout_append hafter hs']
        rfl
      · rw [List.map_cons, List.map_cons, trim_append_left hafter, trim_append_right hpad, hrest]
  | @char escaped c s s' hstays _ ih =>
      obtain ⟨segment, pad, rest, rest', hs, hs', hpad, hrest⟩ := ih
      have hkeep : ¬(c = ',' ∧ ¬escaped = true) := fun hc => hc.2 (hstays hc.1)
      exact ⟨c :: segment, pad, rest, rest', segments_cons hkeep hs, segments_cons hkeep hs',
        hpad, hrest⟩

theorem Spaced.candidates_eq {pad s s' : Text} (hpad : ∀ c ∈ pad, isLayout c = true)
    (h : Spaced false s s') : candidates (pad ++ s') = candidates s := by
  have hitems (segments : List Text) : segments.map item =
      (segments.map (trim isLayout)).map (decodeEscapes itemMarks) := by
    rw [List.map_map]
    rfl
  obtain ⟨segment, pad', rest, rest', hs, hs', hpad', hrest⟩ := h.exists_segments
  rw [candidates_eq_filter, candidates_eq_filter, hs, segments_layout_append hpad hs', hitems,
    hitems, List.map_cons (l := rest'), List.map_cons (l := rest), trim_append_left hpad,
    trim_append_right hpad', hrest]

/-- The layout at the end stands beside the brace behind it. -/
theorem Spaced.sameScan {escaped : Bool} {s s' : Text} (h : Spaced escaped s s') :
    Clause.SameScan (s ++ ['}']) (s' ++ ['}']) := by
  induction h with
  | nil hpad =>
      have hbrace := Clause.sameScan_blanks (forall_isBlank hpad) (List.cons_ne_nil '}' [])
        (List.forall_mem_singleton.2 (by decide)) (List.forall_mem_nil _)
      simpa using hbrace
  | comma hbefore hafter _ ih =>
      have hcomma := Clause.sameScan_blanks (forall_isBlank hbefore) (List.cons_ne_nil ',' [])
        (List.forall_mem_singleton.2 (by decide)) (forall_isBlank hafter)
      simpa using hcomma.append ih
  | char _ _ ih => exact (Clause.SameScan.refl [_]).append ih

end Text

/-- A clause with other blank characters in front of its separator. -/
structure Clause.Spaced (clause clause' : Clause) : Prop where
  gap : ∀ c ∈ clause'.gap, Text.isBlank c = true
  quote : clause'.quote = clause.quote
  body : clause'.body = clause.body

/-- A block, and the same with layout at the ends of its content and around the commas that
divide it, and with other blank characters in front of its separator. -/
structure Block.Spaced (b b' : Block) : Prop where
  content : ∃ pad s, (∀ c ∈ pad, Text.isLayout c = true) ∧ b'.content = pad ++ s ∧
    Text.Spaced false b.content s
  digits : b'.digits = b.digits
  clause : Option.Rel Clause.Spaced b.clause b'.clause

theorem Clause.Spaced.wellFormed {clause clause' : Clause} (h : clause.Spaced clause')
    (hclause : clause.WellFormed) : clause'.WellFormed := by
  refine ⟨h.gap, ?_⟩
  rw [h.quote, h.body]
  exact hclause.body

theorem Clause.Spaced.sameScan {clause clause' : Clause} (h : clause.Spaced clause')
    (hclause : clause.WellFormed) : SameScan clause.text clause'.text := by
  have hplain {gap : Text} (hgap : ∀ c ∈ gap, Text.isBlank c = true) :
      ∀ c ∈ ',' :: gap, IsPlain c :=
    List.forall_mem_cons.2 ⟨by decide, fun c hc => isPlain_of_isBlank (hgap c hc)⟩
  have hgap : SameScan (',' :: clause.gap) (',' :: clause'.gap) :=
    sameScan_of_isPlain (List.cons_ne_nil _ _) (List.cons_ne_nil _ _) (hplain hclause.gap)
      (hplain h.gap)
  have hrest := SameScan.refl ([clause.quote.char] ++ clause.body ++ [clause.quote.char])
  simpa [text, h.quote, h.body] using hgap.append hrest

namespace Block

variable {b b' : Block}

theorem Spaced.clause_cases (h : b.Spaced b') :
    (b.clause = none ∧ b'.clause = none) ∨
      ∃ clause clause', b.clause = some clause ∧ b'.clause = some clause' ∧
        clause.Spaced clause' := by
  have hclause := h.clause
  generalize b.clause = clause at hclause
  generalize b'.clause = clause' at hclause
  cases hclause with
  | none => exact .inl ⟨rfl, rfl⟩
  | some hspaced => exact .inr ⟨_, _, rfl, rfl, hspaced⟩

theorem Spaced.wellFormed (h : b.Spaced b') (hb : b.WellFormed) : b'.WellFormed := by
  obtain ⟨pad, s, hpad, hcontent, hs⟩ := h.content
  refine ⟨?_, ?_, ?_, ?_⟩
  · rw [hcontent]
    exact Text.isContent_layout_append hpad (hs.isContent hb.content)
  · rw [h.digits]
    exact hb.digits_ne_nil
  · rw [h.digits]
    exact hb.digits
  · intro found hfound
    obtain ⟨-, hnone⟩ | ⟨clause, clause', hclause, hclause', hspaced⟩ := h.clause_cases
    · rw [hnone] at hfound
      cases hfound
    · rw [hclause'] at hfound
      cases hfound
      exact hspaced.wellFormed (hb.clause clause hclause)

theorem Spaced.candidates_eq (h : b.Spaced b') : b'.candidates = b.candidates := by
  obtain ⟨pad, s, hpad, hcontent, hs⟩ := h.content
  rw [candidates, hcontent, hs.candidates_eq hpad, candidates]

theorem Spaced.count_eq (h : b.Spaced b') : b'.count = b.count := by
  rw [count, h.digits, count]

theorem Spaced.rawSeparator_eq (h : b.Spaced b') : b'.rawSeparator = b.rawSeparator := by
  obtain ⟨hnone, hnone'⟩ | ⟨clause, clause', hclause, hclause', hspaced⟩ := h.clause_cases
  · rw [rawSeparator, rawSeparator, hnone, hnone']
  · rw [rawSeparator, rawSeparator, hclause, hclause', Option.map_some, Option.map_some,
      hspaced.body]

theorem Spaced.separator_eq (h : b.Spaced b') : b'.separator = b.separator := by
  rw [separator, h.rawSeparator_eq, separator]

theorem text_eq_parts (b : Block) :
    b.text = ['{', '{'] ++ (b.content ++ ['}']) ++ (['}', '('] ++ b.digits) ++
      ((b.clause.map Clause.text).getD [] ++ [')']) := by
  simp [text, tailText]

theorem Spaced.sameScan (h : b.Spaced b') (hb : b.WellFormed) :
    Clause.SameScan b.text b'.text := by
  obtain ⟨pad, s, hpad, hcontent, hs⟩ := h.content
  have hopening : Clause.SameScan ['{', '{'] (['{', '{'] ++ pad) := by
    have hbraces := Clause.sameScan_blanks (List.forall_mem_nil _) (List.cons_ne_nil '{' ['{'])
      (List.forall_mem_cons.2 ⟨by decide, List.forall_mem_singleton.2 (by decide)⟩)
      (Text.forall_isBlank hpad)
    simpa using hbraces
  have hclause : Clause.SameScan ((b.clause.map Clause.text).getD [])
      ((b'.clause.map Clause.text).getD []) := by
    obtain ⟨hnone, hnone'⟩ | ⟨clause, clause', hclause, hclause', hspaced⟩ := h.clause_cases
    · rw [hnone, hnone']
      exact .refl _
    · rw [hclause, hclause']
      exact hspaced.sameScan (hb.clause clause hclause)
  have hcount := Clause.SameScan.refl (['}', '('] ++ b.digits)
  have hend := hclause.append (.refl [')'])
  have htext := ((hopening.append hs.sameScan).append hcount).append hend
  rw [text_eq_parts, text_eq_parts, hcontent, h.digits]
  simpa using htext

end Block

end PromptDraw
