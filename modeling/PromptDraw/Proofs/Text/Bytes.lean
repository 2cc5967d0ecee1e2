import PromptDraw.Text.Basic

/-!
A text as the bytes of its UTF-8, looked at and cut by offsets into them. A byte below
0x80 is a character by itself and no byte of any other, so a test for such a character
tells nothing wrong at any offset. Cutting is different: it fails where an offset lies
behind the text or inside a character.
-/

namespace PromptDraw

namespace Text

def bytes (s : Text) : List UInt8 :=
  s.flatMap String.utf8EncodeChar

/-- Whether the byte at offset `i` is the character `c`. -/
def isAt (s : Text) (i : Nat) (c : Char) : Bool :=
  s.bytes[i]? == some c.toUInt8

/-- The text before byte `n` and the text from there on. There is no such place inside
a character and none behind the text. -/
def splitAt? : (n : Nat) → Text → Option (Text × Text)
  | 0, s => some ([], s)
  | _ + 1, [] => none
  | n + 1, c :: s =>
    if c.utf8Size ≤ n + 1 then
      (splitAt? (n + 1 - c.utf8Size) s).map fun (before, after) => (c :: before, after)
    else none

/-- Two offsets between which a text cannot be cut out of another. -/
structure BadCut where
  start : Nat
  stop : Nat
deriving DecidableEq, Repr

/-- The part of a text from byte `start` up to byte `stop`. -/
def cut (s : Text) (start stop : Nat) : Except BadCut Text :=
  match (s.splitAt? stop).bind fun (upTo, _) => upTo.splitAt? start with
  | some (_, part) => .ok part
  | none => .error ⟨start, stop⟩

/-- Two offsets in order, neither behind the text nor inside a character. -/
def IsRange (s : Text) (start stop : Nat) : Prop :=
  ∃ before part after, s = before ++ part ++ after ∧ start = before.utf8Size ∧
    stop = (before ++ part).utf8Size

@[simp] theorem bytes_cons (c : Char) (s : Text) :
    bytes (c :: s) = String.utf8EncodeChar c ++ s.bytes := rfl

@[simp] theorem bytes_append (s t : Text) : bytes (s ++ t) = s.bytes ++ t.bytes :=
  List.flatMap_append

@[simp] theorem length_bytes (s : Text) : s.bytes.length = s.utf8Size := by
  induction s with
  | nil => rfl
  | cons c s ih => simp [ih]

theorem utf8Size_lt_append_cons (before : Text) (c : Char) (after : Text) :
    before.utf8Size < (before ++ c :: after).utf8Size := by
  rw [utf8Size_append, utf8Size_cons]
  exact Nat.lt_add_of_pos_right (Nat.add_pos_left c.utf8Size_pos _)

theorem splitAt?_utf8Size (before after : Text) :
    splitAt? before.utf8Size (before ++ after) = some (before, after) := by
  induction before with
  | nil => rw [utf8Size_nil, splitAt?, List.nil_append]
  | cons c before ih =>
      obtain ⟨n, hn⟩ := Nat.exists_eq_add_of_lt c.utf8Size_pos
      have hsize : utf8Size (c :: before) = n + utf8Size before + 1 := by
        rw [utf8Size_cons]
        omega
      have hrest : n + utf8Size before + 1 - c.utf8Size = utf8Size before := by omega
      rw [hsize, List.cons_append, splitAt?, if_pos (by omega), hrest, ih]
      rfl

theorem splitAt?_eq_some_iff {n : Nat} {s before after : Text} :
    splitAt? n s = some (before, after) ↔ s = before ++ after ∧ n = before.utf8Size := by
  constructor
  · intro h
    fun_induction splitAt? n s generalizing before with
    | case1 s =>
        simp only [Option.some.injEq, Prod.mk.injEq] at h
        obtain ⟨rfl, rfl⟩ := h
        exact ⟨rfl, rfl⟩
    | case2 => simp at h
    | case3 n c s hfits ih =>
        simp only [Option.map_eq_some_iff, Prod.exists, Prod.mk.injEq] at h
        obtain ⟨before', after', hsplit, rfl, rfl⟩ := h
        obtain ⟨rfl, hsize⟩ := ih hsplit
        refine ⟨rfl, ?_⟩
        rw [utf8Size_cons]
        omega
    | case4 => simp at h
  · rintro ⟨rfl, rfl⟩
    exact splitAt?_utf8Size before after

/-- A cut succeeds exactly between offsets that lie between characters and in order. -/
theorem cut_eq_ok_iff {s part : Text} {start stop : Nat} :
    cut s start stop = .ok part ↔
      ∃ before after, s = before ++ part ++ after ∧ start = before.utf8Size ∧
        stop = (before ++ part).utf8Size := by
  constructor
  · intro h
    unfold cut at h
    split at h
    · rename_i before part' hsplit
      obtain rfl := Except.ok.inj h
      simp only [Option.bind_eq_some_iff, Prod.exists] at hsplit
      obtain ⟨upTo, after, hstop, hstart⟩ := hsplit
      obtain ⟨rfl, rfl⟩ := splitAt?_eq_some_iff.1 hstop
      obtain ⟨rfl, rfl⟩ := splitAt?_eq_some_iff.1 hstart
      exact ⟨before, after, rfl, rfl, rfl⟩
    · cases h
  · rintro ⟨before, after, rfl, rfl, rfl⟩
    simp only [cut, splitAt?_utf8Size, Option.bind_some]

theorem exists_cut_iff {s : Text} {start stop : Nat} :
    (∃ part, cut s start stop = .ok part) ↔ s.IsRange start stop := by
  simp only [cut_eq_ok_iff, IsRange]
  exact exists_comm

theorem cut_append (before part after : Text) :
    cut (before ++ part ++ after) before.utf8Size (before ++ part).utf8Size = .ok part :=
  cut_eq_ok_iff.2 ⟨before, after, rfl, rfl, rfl⟩

theorem cut_rest (before after : Text) :
    cut (before ++ after) before.utf8Size (before ++ after).utf8Size = .ok after := by
  have hcut := cut_append before after []
  rwa [List.append_nil] at hcut

/-- What is looked at behind a part of a text does not depend on that part. -/
theorem isAt_append (before after : Text) (k : Nat) (c : Char) :
    isAt (before ++ after) (before.utf8Size + k) c = after.isAt k c := by
  rw [isAt, isAt, bytes_append, ← length_bytes, List.getElem?_append_right (Nat.le_add_right _ _),
    Nat.add_sub_cancel_left]

theorem isAt_nil (k : Nat) (c : Char) : isAt [] k c = false := by
  simp [isAt]

theorem isAt_of_ne {s : Text} {i : Nat} {a b : Char} (h : s.isAt i a = true)
    (hne : a.toUInt8 ≠ b.toUInt8) : s.isAt i b = false := by
  rw [isAt, beq_iff_eq] at h
  rw [isAt, h, beq_eq_false_iff_ne, Ne, Option.some.injEq]
  exact hne

theorem toNat_toUInt8 {c : Char} (hc : c.utf8Size = 1) : c.toUInt8.toNat = c.toNat := by
  rw [Char.utf8Size_eq_one_iff, UInt32.le_iff_toNat_le] at hc
  have hsmall : c.toNat ≤ 127 := hc
  exact Nat.mod_eq_of_lt (Nat.lt_of_le_of_lt hsmall (by decide))

/-- All bytes of a character that has several are 0x80 or more. -/
theorem high_of_mem_utf8EncodeChar {c : Char} (hwide : c.utf8Size ≠ 1) {b : UInt8}
    (h : b ∈ String.utf8EncodeChar c) : 128 ≤ b.toNat := by
  have hc : 127 < c.val.toNat := by
    rw [Ne, Char.utf8Size_eq_one_iff, UInt32.le_iff_toNat_le] at hwide
    exact Nat.lt_of_not_le hwide
  unfold String.utf8EncodeChar at h
  simp only [Nat.not_le.2 hc, if_false] at h
  split at h
  · simp only [List.mem_cons, List.not_mem_nil, or_false] at h
    rcases h with rfl | rfl <;> rw [UInt8.toNat_ofNat'] <;> omega
  · split at h
    · simp only [List.mem_cons, List.not_mem_nil, or_false] at h
      rcases h with rfl | rfl | rfl <;> rw [UInt8.toNat_ofNat'] <;> omega
    · simp only [List.mem_cons, List.not_mem_nil, or_false] at h
      rcases h with rfl | rfl | rfl | rfl <;> rw [UInt8.toNat_ofNat'] <;> omega

theorem isAt_wide {c a : Char} (hwide : c.utf8Size ≠ 1) (ha : a.utf8Size = 1) (s : Text) {k : Nat}
    (hk : k < c.utf8Size) : isAt (c :: s) k a = false := by
  have hlt : k < (String.utf8EncodeChar c).length := by
    rwa [String.length_utf8EncodeChar]
  have hhigh := high_of_mem_utf8EncodeChar hwide (List.getElem_mem hlt)
  have hlow : a.toUInt8.toNat ≤ 127 := by
    rw [toNat_toUInt8 ha]
    exact UInt32.le_iff_toNat_le.1 (Char.utf8Size_eq_one_iff.1 ha)
  rw [isAt, bytes_cons, List.getElem?_append_left hlt, List.getElem?_eq_getElem hlt,
    beq_eq_false_iff_ne, Ne, Option.some.injEq]
  intro heq
  rw [heq] at hhigh
  omega

theorem isAt_head {a : Char} (ha : a.utf8Size = 1) (c : Char) (s : Text) :
    isAt (c :: s) 0 a = (c == a) := by
  by_cases hc : c.utf8Size = 1
  · have hsame : c.toUInt8 = a.toUInt8 ↔ c = a := by
      rw [← UInt8.toNat_inj, toNat_toUInt8 hc, toNat_toUInt8 ha]
      exact Char.toNat_inj
    rw [isAt, bytes_cons, String.utf8EncodeChar_eq_singleton hc, Bool.eq_iff_iff]
    simpa using hsame
  · have hne : c ≠ a := by
      rintro rfl
      exact hc ha
    rw [isAt_wide hc ha s c.utf8Size_pos, beq_eq_false_iff_ne.2 hne]

/-- Between characters the bytes tell the next character. -/
theorem isAt_boundary {a : Char} (ha : a.utf8Size = 1) (before after : Text) :
    isAt (before ++ after) before.utf8Size a = (after.head? == some a) := by
  have hshift : isAt (before ++ after) before.utf8Size a = isAt after 0 a :=
    isAt_append before after 0 a
  rw [hshift]
  cases after with
  | nil => exact isAt_nil 0 a
  | cons c after => rw [isAt_head ha, List.head?_cons, Option.some_beq_some]

theorem isAt_append_cons {a : Char} (ha : a.utf8Size = 1) (before after : Text) :
    isAt (before ++ a :: after) before.utf8Size a = true := by
  rw [isAt_boundary ha, List.head?_cons, beq_self_eq_true]

theorem isAt_next {a c : Char} (ha : a.utf8Size = 1) (hc : c.utf8Size = 1) (before after : Text) :
    isAt (before ++ c :: after) (before.utf8Size + 1) a = (after.head? == some a) := by
  have hnext := isAt_boundary ha (before ++ [c]) after
  rwa [List.append_assoc, List.singleton_append, utf8Size_append, utf8Size_cons, hc,
    utf8Size_nil] at hnext

theorem exists_cons_of_isAt {a : Char} (ha : a.utf8Size = 1) {before after : Text}
    (h : isAt (before ++ after) before.utf8Size a = true) : ∃ rest, after = a :: rest := by
  rw [isAt_boundary ha, beq_iff_eq] at h
  exact List.head?_eq_some_iff.1 h

/-- A byte of a text that is no character by itself. -/
def IsInner (s : Text) (i : Nat) : Prop :=
  i < s.utf8Size ∧ ∀ a : Char, a.utf8Size = 1 → s.isAt i a = false

/-- A loop that takes single steps where nothing can be told passes what is left of a
character, whatever it has seen of it. -/
theorem pass_inner {α : Type} {f : Nat → α} {before after : Text} {c : Char}
    (hstep : ∀ i, IsInner (before ++ c :: after) i → f i = f (i + 1)) :
    f (before.utf8Size + 1) = f (before.utf8Size + c.utf8Size) := by
  have hpass : ∀ k < c.utf8Size, f (before.utf8Size + 1) = f (before.utf8Size + (k + 1)) := by
    intro k
    induction k with
    | zero => exact fun _ => rfl
    | succ k ih =>
        intro hlt
        refine (ih (Nat.lt_of_succ_lt hlt)).trans (hstep _ ⟨?_, fun a ha => ?_⟩)
        · rw [utf8Size_append, utf8Size_cons]
          omega
        · rw [isAt_append]
          exact isAt_wide (by omega) ha after hlt
  have hlast := hpass (c.utf8Size - 1) (Nat.sub_lt c.utf8Size_pos Nat.one_pos)
  rwa [Nat.sub_add_cancel c.utf8Size_pos] at hlast

end Text

end PromptDraw
