import Mathlib.Algebra.Group.Nat.Even
import Mathlib.Data.List.DropRight
import PromptDraw.Proofs.Text.Decoding

/-!
Decoding a text in parts, and what decoding leaves as it is. A text can be cut exactly where
an even number of backslashes stands: each of them is then paired with another one, and no
escape reaches over the cut. Every escape takes a character away and nothing else changes,
so a text stays as it is exactly if it has no escape, even one that does not count because
its backslash belongs to the escape before it.
-/

namespace PromptDraw

namespace Text

/-- The number of backslashes at the end of a text. -/
def backslashesAtEnd (s : Text) : Nat :=
  (s.rtakeWhile fun c => c == '\\').length

theorem backslashesAtEnd_backslash (s : Text) :
    backslashesAtEnd (s ++ ['\\']) = backslashesAtEnd s + 1 := by
  have hrun := List.rtakeWhile_concat_pos (fun c => c == '\\') s '\\' (by decide)
  rw [backslashesAtEnd, hrun, List.length_append]
  rfl

theorem backslashesAtEnd_of_ne {c : Char} (hc : c ≠ '\\') (s : Text) :
    backslashesAtEnd (s ++ [c]) = 0 := by
  have hrun := List.rtakeWhile_concat_neg (fun c => c == '\\') s c (by simpa using hc)
  rw [backslashesAtEnd, hrun]
  rfl

/-- What stands before a text makes no difference to the parity of the backslashes at its
end, if it ends itself in an even number of them. -/
theorem even_backslashesAtEnd_append {front : Text} (h : Even (backslashesAtEnd front))
    (s : Text) : Even (backslashesAtEnd (front ++ s)) ↔ Even (backslashesAtEnd s) := by
  induction s using List.reverseRecOn with
  | nil => exact iff_of_true (by rwa [List.append_nil]) (by decide)
  | append_singleton s c ih =>
      rw [← List.append_assoc]
      by_cases hc : c = '\\'
      · subst hc
        rw [backslashesAtEnd_backslash, backslashesAtEnd_backslash, Nat.even_add_one,
          Nat.even_add_one, ih]
      · rw [backslashesAtEnd_of_ne hc, backslashesAtEnd_of_ne hc]

theorem even_backslashesAtEnd_cons {c : Char} (hc : c ≠ '\\') (s : Text) :
    Even (backslashesAtEnd (c :: s)) ↔ Even (backslashesAtEnd s) := by
  have hnone : backslashesAtEnd [c] = 0 := backslashesAtEnd_of_ne hc []
  exact even_backslashesAtEnd_append (by rw [hnone]; decide) s

theorem even_backslashesAtEnd_pair (d : Char) (s : Text) :
    Even (backslashesAtEnd ('\\' :: d :: s)) ↔ Even (backslashesAtEnd s) := by
  have hpair : Even (backslashesAtEnd ['\\', d]) := by
    by_cases hd : d = '\\'
    · subst hd
      decide
    · have hnone : backslashesAtEnd ['\\', d] = 0 := backslashesAtEnd_of_ne hd ['\\']
      rw [hnone]
      decide
  exact even_backslashesAtEnd_append hpair s

variable {allowed : List Char}

/-- What a backslash may stand before, to make an escape of the two. -/
theorem escaped?_eq_none_iff {d : Char} :
    escaped? allowed d = none ↔ ¬(d = '\\' ∨ d = 'n' ∨ d = 't' ∨ d = 'r' ∨ d ∈ allowed) := by
  unfold escaped?
  split_ifs <;> simp_all

theorem ne_backslash_of_escaped?_eq_none {d : Char} (h : escaped? allowed d = none) :
    d ≠ '\\' := fun hd => escaped?_eq_none_iff.1 h (.inl hd)

theorem decodeEscapes_append {a : Text} (h : Even (backslashesAtEnd a)) (b : Text) :
    decodeEscapes allowed (a ++ b) = decodeEscapes allowed a ++ decodeEscapes allowed b := by
  fun_induction decodeEscapes allowed a with
  | case1 => rfl
  | case2 c =>
      have hc : c ≠ '\\' := by
        rintro rfl
        exact absurd h (by decide)
      exact decodeEscapes_cons hc b
  | case3 d s e he ih =>
      have hs := (even_backslashesAtEnd_pair d s).1 h
      rw [List.cons_append, List.cons_append, decodeEscapes_pair he, ih hs, List.cons_append]
  | case4 d s he ih =>
      -- The backslash stands for itself, and behind it another character starts anew.
      have hd := ne_backslash_of_escaped?_eq_none he
      have hs := (even_backslashesAtEnd_cons hd s).2 ((even_backslashesAtEnd_pair d s).1 h)
      rw [List.cons_append, List.cons_append, decodeEscapes_backslash he, ← List.cons_append,
        ih hs, List.cons_append]
  | case5 c d s hc ih =>
      have hs := (even_backslashesAtEnd_cons hc (d :: s)).1 h
      rw [List.cons_append, decodeEscapes_cons hc, ih hs, List.cons_append]

/-- Behind an odd number of backslashes one is left over, which makes an escape with another
backslash behind the cut. -/
theorem even_of_decodeEscapes_append {a : Text}
    (h : decodeEscapes allowed (a ++ ['\\']) = decodeEscapes allowed a ++ ['\\']) :
    Even (backslashesAtEnd a) := by
  induction a using List.reverseRecOn with
  | nil => decide
  | append_singleton s c _ =>
      by_cases hc : c = '\\'
      · subst hc
        rw [backslashesAtEnd_backslash, Nat.even_add_one]
        intro hs
        have hpair : decodeEscapes allowed (s ++ ['\\'] ++ ['\\']) =
            decodeEscapes allowed s ++ ['\\'] := by
          rw [List.append_assoc, decodeEscapes_append hs]
          rfl
        have hsingle : decodeEscapes allowed (s ++ ['\\']) = decodeEscapes allowed s ++ ['\\'] :=
          decodeEscapes_append hs ['\\']
        rw [hpair, hsingle] at h
        simpa using congrArg List.length h
      · rw [backslashesAtEnd_of_ne hc]
        decide

theorem length_decodeEscapes_le (allowed : List Char) (s : Text) :
    (decodeEscapes allowed s).length ≤ s.length := by
  fun_induction decodeEscapes allowed s with
  | case1 => exact Nat.le_refl _
  | case2 c => exact Nat.le_refl _
  | case3 d s e he ih => exact Nat.le_succ_of_le (Nat.succ_le_succ ih)
  | case4 d s he ih => exact Nat.succ_le_succ ih
  | case5 c d s hc ih => exact Nat.succ_le_succ ih

/-- A text in which a backslash stands directly before a character that can be escaped is
decoded to a shorter one, even if that backslash is itself the end of an escape. -/
theorem length_decodeEscapes_lt {s : Text} {d : Char} (hd : escaped? allowed d ≠ none)
    (h : ['\\', d] <:+: s) : (decodeEscapes allowed s).length < s.length := by
  fun_induction decodeEscapes allowed s with
  | case1 => simp at h
  | case2 c => simpa using h.length_le
  | case3 d' s e he ih =>
      exact Nat.succ_lt_succ (Nat.lt_succ_of_le (length_decodeEscapes_le allowed s))
  | case4 d' s he ih =>
      rcases List.infix_cons_iff.1 h with hfront | hrest
      · rw [List.cons_prefix_cons, List.cons_prefix_cons] at hfront
        exact absurd (hfront.2.1 ▸ he) hd
      · exact Nat.succ_lt_succ (ih hrest)
  | case5 c d' s hc ih =>
      rcases List.infix_cons_iff.1 h with hfront | hrest
      · exact absurd (List.cons_prefix_cons.1 hfront).1.symm hc
      · exact Nat.succ_lt_succ (ih hrest)

theorem decodeEscapes_of_no_escape {s : Text}
    (h : ∀ d, ['\\', d] <:+: s → escaped? allowed d = none) : decodeEscapes allowed s = s := by
  fun_induction decodeEscapes allowed s with
  | case1 => rfl
  | case2 c => rfl
  | case3 d s e he ih =>
      have hnone := h d (List.infix_cons_iff.2 (.inl (List.prefix_append ['\\', d] s)))
      rw [he] at hnone
      cases hnone
  | case4 d s he ih => rw [ih fun d' hd' => h d' (List.infix_cons_iff.2 (.inr hd'))]
  | case5 c d s hc ih => rw [ih fun d' hd' => h d' (List.infix_cons_iff.2 (.inr hd'))]

/-- Decoding goes part by part and never makes a text longer. A text can be cut without any
effect on what it is decoded to, whatever may follow, exactly if an even number of
backslashes stands before the cut. The decoded text has no more characters and no more bytes
than the text and is empty only if the text is, and it is the text itself exactly if no
backslash stands directly before a backslash, one of the letters `n`, `t` and `r` or a
character that may be escaped. -/
theorem decoding_is_compositional (allowed : List Char) :
    (∀ a, Even (backslashesAtEnd a) ↔ ∀ b,
      decodeEscapes allowed (a ++ b) = decodeEscapes allowed a ++ decodeEscapes allowed b) ∧
    ∀ s, (decodeEscapes allowed s).length ≤ s.length ∧
      (decodeEscapes allowed s).utf8Size ≤ s.utf8Size ∧
      (decodeEscapes allowed s = [] ↔ s = []) ∧
      (decodeEscapes allowed s = s ↔
        ∀ d, (d = '\\' ∨ d = 'n' ∨ d = 't' ∨ d = 'r' ∨ d ∈ allowed) → ¬['\\', d] <:+: s) := by
  constructor
  · intro a
    constructor
    · intro h b
      exact decodeEscapes_append h b
    · intro h
      exact even_of_decodeEscapes_append (h ['\\'])
  · intro s
    refine ⟨length_decodeEscapes_le allowed s, utf8Size_decodeEscapes_le allowed s,
      decodeEscapes_eq_nil_iff, ?_⟩
    constructor
    · intro hsame d hd hpair
      have hescaped : escaped? allowed d ≠ none := fun hnone => escaped?_eq_none_iff.1 hnone hd
      have hshorter := length_decodeEscapes_lt hescaped hpair
      rw [hsame] at hshorter
      exact Nat.lt_irrefl _ hshorter
    · intro h
      exact decodeEscapes_of_no_escape fun d hpair =>
        escaped?_eq_none_iff.2 fun hd => h d hd hpair

/-- A cut behind a doubled backslash, where a letter follows that a backslash could escape. -/
theorem decoding_is_compositional_behind_doubled_backslash :
    let a : Text := ['x', '\\', '\\']
    let b : Text := ['n', '\\', ',']
    Even (backslashesAtEnd a) ∧
      decodeEscapes itemMarks (a ++ b) = decodeEscapes itemMarks a ++ decodeEscapes itemMarks b ∧
      decodeEscapes itemMarks (a ++ b) = ['x', '\\', 'n', ','] := by
  intro a b
  have heven : Even (backslashesAtEnd a) := by decide
  exact ⟨heven, ((decoding_is_compositional itemMarks).1 a).1 heven b, rfl⟩

end Text

end PromptDraw
