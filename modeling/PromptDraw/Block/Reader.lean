import PromptDraw.Block.Basic

/-!
Reading one block from the front of a text. A reader gives what it read and the
text after it, or nothing; it never fails in any other way. What is read is
always the text up to where the rest begins. Which texts can be read is not
stated here.
-/

namespace PromptDraw

namespace Clause

/-- Reads the body of a separator and the closing quote and parenthesis after
it. A backslash takes the character after it into the body whatever it is, and a
quote that no parenthesis follows belongs to the body. -/
def readBody? (quote : Char) : Text → Option (Text × Text)
  | c :: d :: s =>
    if c = '\\' then
      (readBody? quote s).map fun (body, rest) => (c :: d :: body, rest)
    else if c = quote ∧ d = ')' then
      some ([], s)
    else
      (readBody? quote (d :: s)).map fun (body, rest) => (c :: body, rest)
  | _ => none

/-- Reads what follows the comma after a count: blank characters, a quoted
separator and the closing parenthesis of the block. -/
def read? (s : Text) : Option (Clause × Text) :=
  match s.dropWhile Text.isBlank with
  | [] => none
  | c :: t =>
    match Quote.ofChar? c with
    | none => none
    | some quote =>
      (readBody? c t).map fun (body, rest) => (⟨s.takeWhile Text.isBlank, quote, body⟩, rest)

theorem eq_append_of_readBody? {quote : Char} {s body rest : Text}
    (h : readBody? quote s = some (body, rest)) : s = body ++ quote :: ')' :: rest := by
  fun_induction readBody? quote s generalizing body with
  | case1 d s ih =>
    simp only [Option.map_eq_some_iff, Prod.exists, Prod.mk.injEq] at h
    obtain ⟨inner, rest', hread, rfl, rfl⟩ := h
    simp [ih hread]
  | case2 c d s hc hclose =>
    simp only [Option.some.injEq, Prod.mk.injEq] at h
    obtain ⟨rfl, rfl⟩ := h
    simp [hclose.1, hclose.2]
  | case3 c d s hc hclose ih =>
    simp only [Option.map_eq_some_iff, Prod.exists, Prod.mk.injEq] at h
    obtain ⟨inner, rest', hread, rfl, rfl⟩ := h
    simp [ih hread]
  | case4 => simp at h

theorem eq_append_of_read? {clause : Clause} {s rest : Text}
    (h : read? s = some (clause, rest)) : ',' :: s = clause.text ++ ')' :: rest := by
  unfold read? at h
  split at h
  · simp at h
  · rename_i c t hdrop
    split at h
    · simp at h
    · rename_i quote hquote
      simp only [Option.map_eq_some_iff, Prod.exists, Prod.mk.injEq] at h
      obtain ⟨body, rest', hread, rfl, rfl⟩ := h
      have hs := s.takeWhile_append_dropWhile (p := Text.isBlank)
      rw [hdrop, eq_append_of_readBody? hread] at hs
      rw [Quote.ofChar?_eq_some_iff.1 hquote] at hs
      simpa [text] using hs.symm

end Clause

namespace Block

def readClause? : Text → Option (Option Clause × Text)
  | c :: s =>
    if c = ')' then some (none, s)
    else if c = ',' then (Clause.read? s).map fun (clause, rest) => (some clause, rest)
    else none
  | [] => none

/-- Reads what follows the content of a block: two closing braces, the count in
parentheses and the separator that may go with it. -/
def readTail? : Text → Option ((Text × Option Clause) × Text)
  | c :: d :: e :: s =>
    if c = '}' ∧ d = '}' ∧ e = '(' ∧ s.takeWhile Char.isDigit ≠ [] then
      (readClause? (s.dropWhile Char.isDigit)).map fun (clause, rest) =>
        ((s.takeWhile Char.isDigit, clause), rest)
    else none
  | _ => none

/-- Reads the content of a block and what follows it. The content ends where
what follows it can be read; a brace that is not `escaped`, which means directly
after a backslash, cannot belong to it. -/
def readContent? (escaped : Bool) (s : Text) : Option (Block × Text) :=
  match readTail? s with
  | some ((digits, clause), rest) => some (⟨[], digits, clause⟩, rest)
  | none =>
    match s with
    | [] => none
    | c :: s =>
      if (c = '{' ∨ c = '}') ∧ ¬escaped then none
      else (readContent? (c == '\\') s).map fun (b, rest) =>
        ({ b with content := c :: b.content }, rest)

def read? : Text → Option (Block × Text)
  | c :: d :: s => if c = '{' ∧ d = '{' then readContent? false s else none
  | _ => none

theorem eq_append_of_readClause? {clause : Option Clause} {s rest : Text}
    (h : readClause? s = some (clause, rest)) :
    s = (clause.map Clause.text).getD [] ++ ')' :: rest := by
  unfold readClause? at h
  split at h
  · rename_i c s
    split at h
    · simp only [Option.some.injEq, Prod.mk.injEq] at h
      obtain ⟨rfl, rfl⟩ := h
      simp [*]
    · split at h
      · simp only [Option.map_eq_some_iff, Prod.exists, Prod.mk.injEq] at h
        obtain ⟨clause', rest', hread, rfl, rfl⟩ := h
        simpa [*] using Clause.eq_append_of_read? hread
      · simp at h
  · simp at h

theorem eq_append_of_readTail? {digits : Text} {clause : Option Clause} {s rest : Text}
    (h : readTail? s = some ((digits, clause), rest)) : s = tailText digits clause ++ rest := by
  unfold readTail? at h
  split at h
  · rename_i c d e s
    split at h
    · rename_i hopen
      simp only [Option.map_eq_some_iff, Prod.exists, Prod.mk.injEq] at h
      obtain ⟨clause', rest', hread, ⟨rfl, rfl⟩, rfl⟩ := h
      have hs := s.takeWhile_append_dropWhile (p := Char.isDigit)
      rw [eq_append_of_readClause? hread] at hs
      obtain ⟨rfl, rfl, rfl, -⟩ := hopen
      simp [tailText, hs]
    · simp at h
  · simp at h

theorem eq_append_of_readContent? {escaped : Bool} {b : Block} {s rest : Text}
    (h : readContent? escaped s = some (b, rest)) :
    s = b.content ++ tailText b.digits b.clause ++ rest := by
  fun_induction readContent? escaped s generalizing b with
  | case1 escaped s digits clause rest' htail =>
    simp only [Option.some.injEq, Prod.mk.injEq] at h
    obtain ⟨rfl, rfl⟩ := h
    simpa using eq_append_of_readTail? htail
  | case2 => simp at h
  | case3 => simp at h
  | case4 escaped htail c s hc ih =>
    simp only [Option.map_eq_some_iff, Prod.exists, Prod.mk.injEq] at h
    obtain ⟨inner, rest', hread, rfl, rfl⟩ := h
    simpa using ih hread

theorem eq_append_of_read? {b : Block} {s rest : Text} (h : read? s = some (b, rest)) :
    s = b.text ++ rest := by
  unfold read? at h
  split at h
  · rename_i c d s
    split at h
    · rename_i hopen
      simp [text, eq_append_of_readContent? h, hopen.1, hopen.2]
    · simp at h
  · simp at h

theorem text_ne_nil (b : Block) : b.text ≠ [] := by
  simp [text]

theorem length_lt_of_read? {b : Block} {s rest : Text} (h : read? s = some (b, rest)) :
    rest.length < s.length := by
  rw [eq_append_of_read? h, List.length_append]
  have := List.length_pos_iff.2 b.text_ne_nil
  omega

end Block

end PromptDraw
