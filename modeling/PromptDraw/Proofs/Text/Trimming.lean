import PromptDraw.Text.Basic

/-!
Trimming takes away what stands around a text and nothing else.
-/

namespace PromptDraw

namespace Text

variable {p : Char → Bool}

theorem trim_append_left {pad : Text} (h : ∀ c ∈ pad, p c = true) (s : Text) :
    trim p (pad ++ s) = trim p s := by
  rw [trim, List.dropWhile_append_of_pos h, trim]

theorem trim_append_right {pad : Text} (h : ∀ c ∈ pad, p c = true) (s : Text) :
    trim p (s ++ pad) = trim p s := by
  have hreverse : ∀ c ∈ pad.reverse, p c = true := fun c hc => h c (List.mem_reverse.1 hc)
  induction s with
  | nil => simpa using trim_append_left h []
  | cons c s ih =>
      by_cases hc : p c = true
      · simpa [trim, hc] using ih
      · have hrest : (pad.reverse ++ (s.reverse ++ [c])).dropWhile p =
            (s.reverse ++ [c]).dropWhile p := List.dropWhile_append_of_pos hreverse
        simp [trim, hc, hrest]

theorem trim_of_ends {s : Text} (hhead : ∀ c, s.head? = some c → p c = false)
    (hlast : ∀ c, s.getLast? = some c → p c = false) : trim p s = s := by
  have hkeep {t : Text} (h : ∀ c, t.head? = some c → p c = false) : t.dropWhile p = t := by
    cases t with
    | nil => rfl
    | cons c t => simp [h c rfl]
  have hreverse : ∀ c, s.reverse.head? = some c → p c = false := by
    simpa [List.head?_reverse] using hlast
  rw [trim, hkeep hhead, hkeep hreverse, List.reverse_reverse]

private theorem not_of_head?_dropWhile {s : Text} {c : Char}
    (h : (s.dropWhile p).head? = some c) : p c = false := by
  have hnot := List.head?_dropWhile_not p s
  rw [h] at hnot
  exact hnot

private theorem dropWhile_eq_nil_iff {s : Text} : s.dropWhile p = [] ↔ ∀ c ∈ s, p c = true := by
  induction s with
  | nil => simp
  | cons c s ih =>
      by_cases hc : p c = true
      · rw [List.dropWhile_cons_of_pos hc, ih, List.forall_mem_cons]
        exact (and_iff_right hc).symm
      · rw [List.dropWhile_cons_of_neg hc, List.forall_mem_cons]
        exact iff_of_false (List.cons_ne_nil c s) fun h => hc h.1

/-- Nothing is left of a text just if all of it can be trimmed. -/
theorem trim_eq_nil_iff {s : Text} : trim p s = [] ↔ ∀ c ∈ s, p c = true := by
  rw [trim, List.reverse_eq_nil_iff, dropWhile_eq_nil_iff, ← dropWhile_eq_nil_iff (s := s)]
  constructor
  · intro h
    cases hfront : s.dropWhile p with
    | nil => rfl
    | cons c t =>
        have hstays : p c = false := not_of_head?_dropWhile (by rw [hfront]; rfl)
        have hgone : p c = true := h c (by rw [hfront]; simp)
        exact absurd (hgone.symm.trans hstays) (by decide)
  · intro h
    rw [h]
    exact List.forall_mem_nil _

theorem not_of_head?_trim {s : Text} {c : Char} (h : (trim p s).head? = some c) :
    p c = false := by
  -- What is trimmed at the end leaves the start as it is.
  obtain ⟨dropped, hsplit⟩ := List.dropWhile_suffix p (l := (s.dropWhile p).reverse)
  rw [trim, List.head?_reverse] at h
  have hlast : (s.dropWhile p).reverse.getLast? = some c := by
    rw [← hsplit, List.getLast?_append, h, Option.some_or]
  rw [List.getLast?_reverse] at hlast
  exact not_of_head?_dropWhile hlast

theorem not_of_getLast?_trim {s : Text} {c : Char} (h : (trim p s).getLast? = some c) :
    p c = false := by
  rw [trim, List.getLast?_reverse] at h
  exact not_of_head?_dropWhile h

end Text

end PromptDraw
