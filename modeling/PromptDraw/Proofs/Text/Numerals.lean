import PromptDraw.Text.Quoted

/-!
Decimal numerals. They hold digits only and none of them starts with a zero but the one
of zero itself, so a reader that refuses leading zeros reads each of them.
-/

namespace PromptDraw

namespace Text

theorem ofNat_ne_nil (n : Nat) : ofNat n ≠ [] :=
  Nat.toDigits_ne_nil

theorem isDigit_of_mem_ofNat {n : Nat} {c : Char} (h : c ∈ ofNat n) : c.isDigit = true :=
  Nat.isDigit_of_mem_toDigits (by decide) (by decide) h

theorem ofDigitChars_ofNat (n : Nat) : Nat.ofDigitChars 10 (ofNat n) 0 = n :=
  Nat.ofDigitChars_ten_toDigits

theorem ofNat_of_ge {n : Nat} (h : 10 ≤ n) :
    ofNat n = ofNat (n / 10) ++ [Nat.digitChar (n % 10)] :=
  Nat.toDigits_of_base_le (by decide) h

theorem eq_zero_of_head?_ofNat {n : Nat} (h : (ofNat n).head? = some '0') : n = 0 := by
  induction n using Nat.strongRecOn with
  | ind n ih =>
      by_cases hsmall : n < 10
      · rw [ofNat, Nat.toDigits_of_lt_base hsmall, List.head?_cons, Option.some.injEq] at h
        exact Nat.digitChar_eq_zero.1 h
      · -- The first digit is that of a tenth, which is not zero.
        have hge : 10 ≤ n := Nat.le_of_not_lt hsmall
        obtain ⟨c, s, hs⟩ := List.exists_cons_of_ne_nil (ofNat_ne_nil (n / 10))
        rw [ofNat_of_ge hge, hs] at h
        have htenth := ih (n / 10) (by omega) (hs ▸ h)
        omega

end Text

end PromptDraw
