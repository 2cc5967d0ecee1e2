import PromptDraw.Json.Reader
import PromptDraw.Proofs.Text.Numerals

/-!
Reading JSON values that hold no others, with any layout in front. A string is read back
character by character, since each is written in one of three forms that do not run into
what follows. A numeral is read back where no digit follows it.
-/

namespace PromptDraw

namespace Json

def IsLayout (w : Text) : Prop := ∀ c ∈ w, isLayout c = true

theorem isLayout_nil : IsLayout [] := List.forall_mem_nil _

theorem isLayout_newline (level : Nat) : IsLayout (newline level) := by
  intro c hc
  rcases List.mem_cons.1 hc with rfl | hc
  · rfl
  · rw [List.eq_of_mem_replicate hc]
    rfl

theorem isLayout_of_isDigit {c : Char} (h : c.isDigit = true) : isLayout c = false := by
  rw [Bool.eq_false_iff]
  intro hlayout
  simp only [isLayout, Bool.or_eq_true, beq_iff_eq] at hlayout
  rcases hlayout with ((rfl | rfl) | rfl) | rfl <;> cases h

/-- Every text is layout with a text behind it that starts with none. -/
theorem exists_layout (s : Text) : ∃ w, IsLayout w ∧ s = w ++ skipLayout s :=
  ⟨s.takeWhile isLayout, fun c hc => List.all_eq_true.1 List.all_takeWhile c hc,
    s.takeWhile_append_dropWhile.symm⟩

theorem skipLayout_cons {c : Char} (hc : isLayout c = false) (s : Text) :
    skipLayout (c :: s) = c :: s := by
  rw [skipLayout, List.dropWhile_cons, hc]
  rfl

section Layout

variable {w : Text} (hw : IsLayout w)

include hw

theorem skipLayout_append (s : Text) : skipLayout (w ++ s) = skipLayout s :=
  List.dropWhile_append_of_pos hw

theorem skipLayout_layout {c : Char} (hc : isLayout c = false) (rest : Text) :
    skipLayout (w ++ c :: rest) = c :: rest := by
  rw [skipLayout_append hw, skipLayout_cons hc]

theorem readValue?_layout (fuel : Nat) (s : Text) :
    readValue? fuel (w ++ s) = readValue? fuel s := by
  cases fuel with
  | zero => rfl
  | succ fuel => rw [readValue?, readValue?, skipLayout_append hw]

end Layout

/-- A text behind which a numeral does not go on. -/
def EndsNumeral (rest : Text) : Prop := ∀ c, rest.head? = some c → c.isDigit = false

theorem endsNumeral_layout {w : Text} (hw : IsLayout w) {rest : Text} (hrest : EndsNumeral rest) :
    EndsNumeral (w ++ rest) := by
  cases w with
  | nil => exact hrest
  | cons d w =>
      intro c hc
      obtain rfl := Option.some.inj hc
      have hlayout := hw d List.mem_cons_self
      rw [Bool.eq_false_iff]
      intro hdigit
      rw [isLayout_of_isDigit hdigit] at hlayout
      cases hlayout

theorem endsNumeral_cons {c : Char} (hc : c.isDigit = false) (rest : Text) :
    EndsNumeral (c :: rest) := by
  intro d hd
  obtain rfl := Option.some.inj hd
  exact hc

theorem readNumber?_ofNat (n : Nat) {rest : Text} (h : EndsNumeral rest) :
    readNumber? (Text.ofNat n ++ rest) = some (n, rest) := by
  have hdigits : ∀ c ∈ Text.ofNat n, c.isDigit = true := fun c => Text.isDigit_of_mem_ofNat
  have hend : rest.takeWhile Char.isDigit = [] ∧ rest.dropWhile Char.isDigit = rest := by
    cases rest with
    | nil => exact ⟨rfl, rfl⟩
    | cons c rest => simp [h c rfl]
  have hread : ¬(Text.ofNat n = [] ∨ (Text.ofNat n).head? = some '0' ∧ Text.ofNat n ≠ ['0']) := by
    rintro (hnil | ⟨hhead, hne⟩)
    · exact Text.ofNat_ne_nil n hnil
    · rw [Text.eq_zero_of_head?_ofNat hhead] at hne
      exact hne rfl
  simp only [readNumber?, List.takeWhile_append_of_pos hdigits,
    List.dropWhile_append_of_pos hdigits, hend, List.append_nil, if_neg hread,
    Text.ofDigitChars_ofNat]

/-- A character is written as a pair, by its number or as itself. -/
theorem stringChar_cases (c : Char) :
    (∃ e, shortEscape? e = some c ∧ stringChar c = ['\\', e]) ∨
    (c < ' ' ∧ stringChar c =
      ['\\', 'u', '0', '0', Nat.digitChar (c.toNat / 16), Nat.digitChar (c.toNat % 16)]) ∨
    (c ≠ '"' ∧ c ≠ '\\' ∧ ¬c < ' ' ∧ stringChar c = [c]) := by
  unfold stringChar
  split
  · exact .inl ⟨'"', by subst_vars; exact ⟨rfl, rfl⟩⟩
  split
  · exact .inl ⟨'\\', by subst_vars; exact ⟨rfl, rfl⟩⟩
  split
  · exact .inl ⟨'b', by subst_vars; exact ⟨rfl, rfl⟩⟩
  split
  · exact .inl ⟨'f', by subst_vars; exact ⟨rfl, rfl⟩⟩
  split
  · exact .inl ⟨'n', by subst_vars; exact ⟨rfl, rfl⟩⟩
  split
  · exact .inl ⟨'r', by subst_vars; exact ⟨rfl, rfl⟩⟩
  split
  · exact .inl ⟨'t', by subst_vars; exact ⟨rfl, rfl⟩⟩
  split
  · exact .inr (.inl ⟨‹_›, rfl⟩)
  · exact .inr (.inr ⟨‹_›, ‹_›, ‹_›, rfl⟩)

/-- There are few enough control characters to look at each. -/
theorem of_control {P : Char → Prop} (h : ∀ n < 32, P (Char.ofNat n)) {c : Char} (hc : c < ' ') :
    P c := by
  have hnumber := h c.toNat hc
  rwa [Char.ofNat_toNat] at hnumber

theorem codeUnit?_control {c : Char} (h : c < ' ') :
    codeUnit? '0' '0' (Nat.digitChar (c.toNat / 16)) (Nat.digitChar (c.toNat % 16)) = some c :=
  of_control (P := fun c => codeUnit? '0' '0' (Nat.digitChar (c.toNat / 16))
    (Nat.digitChar (c.toNat % 16)) = some c) (by decide) h

theorem not_control_of_shortEscape? {e c : Char} (h : shortEscape? e = some c) : ¬e < ' ' := by
  intro hcontrol
  have hnone := of_control (P := fun e => shortEscape? e = none) (by decide) hcontrol
  rw [h] at hnone
  cases hnone

section Strings

variable (s : Text)

theorem readString?_pair {e c : Char} (h : shortEscape? e = some c) :
    readString? ('\\' :: e :: s) =
      (readString? s).map fun (text, rest) => (c :: text, rest) := by
  have hshort : e ≠ 'u' := by
    rintro rfl
    cases h
  rw [readString?, h]
  · cases readString? s <;> rfl
  · intro _ _ _ _ _ hnumber
    exact absurd hnumber hshort

theorem readString?_number {a b c d e : Char} (h : codeUnit? a b c d = some e) :
    readString? ('\\' :: 'u' :: a :: b :: c :: d :: s) =
      (readString? s).map fun (text, rest) => (e :: text, rest) := by
  rw [readString?, h]
  cases readString? s <;> rfl

theorem readString?_plain {c : Char} (hquote : c ≠ '"') (hescape : c ≠ '\\') (h : ¬c < ' ') :
    readString? (c :: s) = (readString? s).map fun (text, rest) => (c :: text, rest) := by
  rw [readString?, if_neg h]
  · exact hquote
  · intro _ _ _ _ _ hnumber
    exact absurd hnumber hescape
  · intro _ _ hpair
    exact absurd hpair hescape

theorem readString?_stringChar (c : Char) :
    readString? (stringChar c ++ s) =
      (readString? s).map fun (text, rest) => (c :: text, rest) := by
  obtain ⟨e, he, hchar⟩ | ⟨hcontrol, hchar⟩ | ⟨hquote, hescape, hplain, hchar⟩ :=
    stringChar_cases c
  · rw [hchar]
    exact readString?_pair s he
  · rw [hchar]
    exact readString?_number s (codeUnit?_control hcontrol)
  · rw [hchar]
    exact readString?_plain s hquote hescape hplain

theorem readString?_text (value : Text) :
    readString? (value.flatMap stringChar ++ '"' :: s) = some (value, s) := by
  induction value with
  | nil => rfl
  | cons c value ih =>
      rw [List.flatMap_cons, List.append_assoc, readString?_stringChar, ih]
      rfl

theorem stringText_append (value : Text) :
    stringText value ++ s = '"' :: (value.flatMap stringChar ++ '"' :: s) := by
  simp [stringText]

end Strings

theorem not_control_of_mem_stringChar {c d : Char} (h : d ∈ stringChar c) : ¬d < ' ' := by
  obtain ⟨e, he, hchar⟩ | ⟨hcontrol, hchar⟩ | ⟨-, -, hplain, hchar⟩ := stringChar_cases c
  · rw [hchar] at h
    rcases List.mem_cons.1 h with rfl | h
    · decide
    · rw [List.mem_singleton.1 h]
      exact not_control_of_shortEscape? he
  · have hall : (stringChar c).all (¬· < ' ') = true :=
      of_control (P := fun c => (stringChar c).all (¬· < ' ') = true) (by decide) hcontrol
    exact of_decide_eq_true (List.all_eq_true.1 hall d h)
  · rw [hchar, List.mem_singleton] at h
    exact h ▸ hplain

/-- No control character is written, so a string stays on its line. -/
theorem not_control_of_mem_stringText {value : Text} {c : Char} (h : c ∈ stringText value) :
    ¬c < ' ' := by
  simp only [stringText, List.mem_append, List.mem_singleton, List.mem_flatMap] at h
  rcases h with (rfl | ⟨d, -, hd⟩) | rfl
  · decide
  · exact not_control_of_mem_stringChar hd
  · decide

end Json

end PromptDraw
