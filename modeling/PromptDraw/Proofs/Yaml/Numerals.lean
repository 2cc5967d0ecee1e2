import PromptDraw.Yaml.Numeral
import PromptDraw.Proofs.Text.Numerals
import PromptDraw.Proofs.Yaml.Plain

/-!
Words of letters, digits and underscores are plain scalars wherever they stand. The
decimal numeral of a number is one of them and is read as that number.
-/

namespace PromptDraw

namespace Yaml

def isWordChar (c : Char) : Bool :=
  c.isDigit || ('a' ≤ c && c ≤ 'z') || ('A' ≤ c && c ≤ 'Z') || c == '_'

section WordChar

variable {c : Char} (hc : isWordChar c = true)

include hc

theorem ne_of_isWordChar {d : Char} (hd : isWordChar d = false) : c ≠ d := by
  rintro rfl
  exact Bool.false_ne_true (hd.symm.trans hc)

theorem isSpace_of_isWordChar : isSpace c = false := by
  rw [isSpace, beq_false_of_ne (ne_of_isWordChar hc rfl), beq_false_of_ne (ne_of_isWordChar hc rfl)]
  rfl

theorem isBreak_of_isWordChar : isBreak c = false := by
  refine Bool.eq_false_iff.2 fun hline => ?_
  simp only [isBreak, Bool.or_eq_true, beq_iff_eq] at hline
  rcases hline with (((rfl | rfl) | rfl) | rfl) | rfl <;> cases hc

theorem not_mem_indicators_of_isWordChar : c ∉ Lexer.indicators := by
  have hnone : Lexer.indicators.all (!isWordChar ·) = true := by decide
  intro hmark
  simpa [hc] using List.all_eq_true.1 hnone c hmark

theorem isAllowed_of_isWordChar : isAllowed c = true := by
  have hbounds : 0x20 ≤ c.toNat ∧ c.toNat ≤ 0x7E := by
    simp only [isWordChar, Char.isDigit, Bool.or_eq_true, Bool.and_eq_true, decide_eq_true_eq,
      beq_iff_eq] at hc
    rcases hc with ((hc | hc) | hc) | rfl
    · change 48 ≤ c.toNat ∧ c.toNat ≤ 57 at hc
      omega
    · change 97 ≤ c.toNat ∧ c.toNat ≤ 122 at hc
      omega
    · change 65 ≤ c.toNat ∧ c.toNat ≤ 90 at hc
      omega
    · decide
  simp [isAllowed, hbounds]

end WordChar

section Word

variable {s : Text} (h : s.all isWordChar = true)

include h

theorem isPlainTail_of_word (behind : Text) : IsPlainTail behind false s := by
  induction s with
  | nil => exact .nil
  | cons c s ih =>
      rw [List.all_cons, Bool.and_eq_true] at h
      obtain ⟨hc, hs⟩ := h
      refine .cons (isAllowed_of_isWordChar hc) (isBreak_of_isWordChar hc) (fun _ => rfl)
        (fun hcolon => absurd hcolon (ne_of_isWordChar hc rfl)) ?_
      rw [isSpace_of_isWordChar hc]
      exact ih hs

theorem isPlain_of_word (hs : s ≠ []) (behind : Text) : IsPlain behind s := by
  obtain ⟨c, t, rfl⟩ := List.exists_cons_of_ne_nil hs
  have hc := List.all_eq_true.1 h c List.mem_cons_self
  exact ⟨⟨c, t, rfl, .inl ⟨not_mem_indicators_of_isWordChar hc, isSpace_of_isWordChar hc⟩⟩,
    isPlainTail_of_word h behind⟩

end Word

theorem isPlain_ofNat (n : Nat) (behind : Text) : IsPlain behind (Text.ofNat n) := by
  refine isPlain_of_word (List.all_eq_true.2 fun c hc => ?_) (Text.ofNat_ne_nil n) behind
  simp [isWordChar, Text.isDigit_of_mem_ofNat hc]

namespace Numeral

theorem push?_digit (value : Nat) {c : Char} (h : c.isDigit = true) :
    push? 10 value c = some (10 * value + (c.toNat - '0'.toNat)) := by
  rw [Char.isDigit, Bool.and_eq_true, decide_eq_true_eq, decide_eq_true_eq] at h
  obtain ⟨hzero, hnine⟩ : '0' ≤ c ∧ c ≤ '9' := h
  have hdigit : digit? c = some (c.toNat - '0'.toNat) := if_pos ⟨hzero, hnine⟩
  have hlt : c.toNat - '0'.toNat < 10 := Nat.sub_lt_left_of_lt_add hzero (Nat.lt_succ_of_le hnine)
  rw [push?, hdigit, Option.bind_eq_bind, Option.bind_some, if_pos hlt, Nat.mul_comm]
  rfl

/-- Digits are read as the standard library reads them. -/
theorem foldlM_push? (value : Nat) {s : Text} (h : ∀ c ∈ s, c.isDigit = true) :
    s.foldlM (push? 10) value = some (Nat.ofDigitChars 10 s value) := by
  induction s generalizing value with
  | nil => rfl
  | cons c s ih =>
      obtain ⟨hc, hs⟩ := List.forall_mem_cons.1 h
      rw [List.foldlM_cons, push?_digit value hc, Option.bind_eq_bind, Option.bind_some, ih _ hs]
      rfl

theorem value?_ofNat (n : Nat) : value? (Text.ofNat n) = some n := by
  have hdigits : ∀ c ∈ Text.ofNat n, c.isDigit = true := fun c => Text.isDigit_of_mem_ofNat
  have hten : ofDigits? 10 (Text.ofNat n) = some n := by
    rw [ofDigits?, if_neg (Text.ofNat_ne_nil n), foldlM_push? 0 hdigits, Text.ofDigitChars_ofNat]
  have hhead := Text.eq_zero_of_head?_ofNat (n := n)
  obtain ⟨c, s, hs⟩ := List.exists_cons_of_ne_nil (Text.ofNat_ne_nil n)
  rw [hs] at hdigits hten hhead
  by_cases hzero : c = '0'
  · -- Only the numeral of zero starts with a zero.
    obtain rfl := hhead (by rw [hzero]; rfl)
    rfl
  · have hplus : c ≠ '+' := by
      rintro rfl
      exact Bool.false_ne_true (hdigits '+' List.mem_cons_self)
    simpa [hs, value?, unsigned?, hplus, hzero] using hten

end Numeral

end Yaml

end PromptDraw
