import PromptDraw.Block.Meaning
import PromptDraw.Block.Reader
import PromptDraw.Proofs.Block.Reading
import PromptDraw.Proofs.Text.Bytes

/-!
The end of a block read byte by byte, by offsets into its prompt. In the body of a
separator the offsets move by one byte or, behind a backslash, by two, and so come to
stand inside characters. What has been found is cut out of the prompt by offsets again,
and a bad cut would be a failure of the whole. None happens: from a place between
characters each of these readers gives what the reader that goes by characters gives.
-/

namespace PromptDraw

theorem Quote.utf8Size_char (q : Quote) : q.char.utf8Size = 1 := by
  cases q <;> rfl

namespace ByteReader

open Text (BadCut)

/-- Reads on at byte `i` in the body of a separator that starts at byte `start`, and
gives the body and the offset behind the parenthesis. -/
def body (s : Text) (quote : Quote) (start i : Nat) : Except BadCut (Option (Text × Nat)) :=
  if s.utf8Size ≤ i then .ok none
  else if s.isAt i '\\' then
    if s.utf8Size ≤ i + 1 then .ok none else body s quote start (i + 2)
  else if s.isAt i quote.char ∧ s.isAt (i + 1) ')' then do
    let raw ← s.cut start i
    return some (raw, i + 2)
  else body s quote start (i + 1)
termination_by s.utf8Size - i

theorem body_of_plain {s : Text} {quote : Quote} {start i : Nat} (hlt : i < s.utf8Size)
    (hbackslash : s.isAt i '\\' = false)
    (hopen : ¬(s.isAt i quote.char = true ∧ s.isAt (i + 1) ')' = true)) :
    body s quote start i = body s quote start (i + 1) := by
  rw [body, if_neg (Nat.not_le.2 hlt), hbackslash, if_neg Bool.false_ne_true, if_neg hopen]

theorem body_pass (quote : Quote) (start : Nat) (before : Text) (c : Char) (after : Text) :
    body (before ++ c :: after) quote start (before.utf8Size + 1) =
      body (before ++ [c] ++ after) quote start (before ++ [c]).utf8Size := by
  rw [Text.utf8Size_append, List.append_assoc, List.singleton_append]
  exact Text.pass_inner fun _ hinner =>
    body_of_plain hinner.1 (hinner.2 '\\' rfl) fun h =>
      Bool.false_ne_true ((hinner.2 quote.char quote.utf8Size_char).symm.trans h.1)

/-- A backslash takes two bytes with it, of which the second may begin a longer
character. -/
theorem body_backslash (quote : Quote) (start : Nat) (before : Text) (d : Char) (after : Text) :
    body (before ++ '\\' :: d :: after) quote start before.utf8Size =
      body (before ++ ['\\', d] ++ after) quote start (before ++ ['\\', d]).utf8Size := by
  have hsize : (before ++ '\\' :: d :: after).utf8Size =
      before.utf8Size + (1 + (d.utf8Size + after.utf8Size)) := Text.utf8Size_append before _
  have hd := d.utf8Size_pos
  have hat := Text.isAt_append_cons (a := '\\') (by rfl) before (d :: after)
  have hpass := body_pass quote start (before ++ ['\\']) d after
  rw [List.append_assoc, Text.utf8Size_append before, List.append_assoc before] at hpass
  rw [body, if_neg (by omega), if_pos hat, if_neg (by omega)]
  exact hpass

theorem body_single (quote : Quote) (start : Nat) (before : Text) {c : Char} {after : Text}
    (hc : c ≠ '\\') (hopen : ¬(c = quote.char ∧ after.head? = some ')')) :
    body (before ++ c :: after) quote start before.utf8Size =
      body (before ++ [c] ++ after) quote start (before ++ [c]).utf8Size := by
  have hlt := Text.utf8Size_lt_append_cons before c after
  rw [← body_pass]
  refine body_of_plain hlt ?_ ?_
  · rw [Text.isAt_boundary rfl]
    simpa using hc
  · rintro ⟨hquote, hclose⟩
    rw [Text.isAt_boundary quote.utf8Size_char] at hquote
    obtain rfl : c = quote.char := by simpa using hquote
    rw [Text.isAt_next rfl quote.utf8Size_char, beq_iff_eq] at hclose
    exact hopen ⟨rfl, hclose⟩

theorem body_close (quote : Quote) (front part after : Text) :
    body (front ++ part ++ quote.char :: ')' :: after) quote front.utf8Size
        (front ++ part).utf8Size = .ok (some (part, (front ++ part).utf8Size + 2)) := by
  have hlt := Text.utf8Size_lt_append_cons (front ++ part) quote.char (')' :: after)
  have hbackslash : (front ++ part ++ quote.char :: ')' :: after).isAt (front ++ part).utf8Size
      '\\' = false := by
    rw [Text.isAt_boundary rfl]
    simpa using quote.char_ne_backslash
  have hquote := Text.isAt_append_cons quote.utf8Size_char (front ++ part) (')' :: after)
  have hclose := Text.isAt_next (a := ')') (by rfl) quote.utf8Size_char (front ++ part)
    (')' :: after)
  rw [List.head?_cons, beq_self_eq_true] at hclose
  rw [body, if_neg (Nat.not_le.2 hlt), hbackslash, if_neg Bool.false_ne_true,
    if_pos ⟨hquote, hclose⟩, Text.cut_append]
  rfl

theorem body_end (quote : Quote) (start : Nat) (before : Text) :
    body (before ++ []) quote start before.utf8Size = .ok none := by
  rw [body, List.append_nil, if_pos (Nat.le_refl _)]

/-- One character is too short for a quote and a parenthesis, whether or not it is a
backslash. -/
theorem body_last (quote : Quote) (start : Nat) (before : Text) (c : Char) :
    body (before ++ [c]) quote start before.utf8Size = .ok none := by
  by_cases hc : c = '\\'
  · subst hc
    have hat := Text.isAt_append_cons (a := '\\') (by rfl) before []
    have hsize : (before ++ ['\\']).utf8Size = before.utf8Size + 1 := Text.utf8Size_append before _
    rw [body, if_neg (by omega), if_pos hat, if_pos (by omega)]
  · rw [body_single quote start before hc (by simp)]
    exact body_end quote start (before ++ [c])

/-- Between characters, the body is what is read by characters. -/
theorem body_eq (quote : Quote) (front part after : Text) :
    body (front ++ part ++ after) quote front.utf8Size (front ++ part).utf8Size =
      .ok ((Clause.readBody? quote.char after).map fun (raw, _) =>
        (part ++ raw, (front ++ part ++ raw).utf8Size + 2)) := by
  fun_induction Clause.readBody? quote.char after generalizing part with
  | case1 d rest ih =>
      rw [body_backslash, List.append_assoc front part, ih, Option.map_map]
      simp [Function.comp_def]
  | case2 c d rest hc hclose =>
      obtain ⟨rfl, rfl⟩ := hclose
      rw [body_close]
      simp
  | case3 c d rest hc hclose ih =>
      have hopen : ¬(c = quote.char ∧ (d :: rest).head? = some ')') := by simpa using hclose
      rw [body_single quote _ _ hc hopen, List.append_assoc front part, ih, Option.map_map]
      simp [Function.comp_def]
  | case4 s hshort =>
      cases s with
      | nil => exact body_end quote front.utf8Size (front ++ part)
      | cons c rest =>
          cases rest with
          | nil => exact body_last quote front.utf8Size (front ++ part) c
          | cons d rest => exact absurd rfl (hshort c d rest)

/-- Reads a quoted separator and the parenthesis behind it at byte `i`. -/
def quoted (s : Text) (i : Nat) : Except BadCut (Option (Text × Nat)) :=
  if s.isAt i Quote.single.char then body s .single (i + 1) (i + 1)
  else if s.isAt i Quote.double.char then body s .double (i + 1) (i + 1)
  else .ok none

/-- Reads what follows the comma after a count. -/
def separator (s : Text) (start : Nat) : Except BadCut (Option (Text × Nat)) := do
  let rest ← s.cut start s.utf8Size
  quoted s (start + rest.utf8Size - Text.utf8Size (rest.dropWhile Text.isBlank))

theorem quoted_of_quote (q : Quote) (before after : Text) :
    quoted (before ++ q.char :: after) before.utf8Size =
      .ok ((Clause.readBody? q.char after).map fun (raw, _) =>
        (raw, (before ++ [q.char] ++ raw).utf8Size + 2)) := by
  have hbody := body_eq q (before ++ [q.char]) [] after
  have hat (a : Char) (ha : a.utf8Size = 1) := Text.isAt_boundary ha before (q.char :: after)
  simp only [List.append_nil, List.nil_append, List.append_assoc, List.singleton_append,
    Text.utf8Size_append before, Text.utf8Size_cons q.char, q.utf8Size_char, Text.utf8Size_nil,
    Nat.add_zero] at hbody ⊢
  unfold quoted
  rw [hat _ Quote.single.utf8Size_char, hat _ Quote.double.utf8Size_char]
  cases q with
  | single => exact hbody
  | double => exact hbody

theorem quoted_of_no_quote (before : Text) {after : Text}
    (h : ∀ q : Quote, after.head? ≠ some q.char) :
    quoted (before ++ after) before.utf8Size = .ok none := by
  have hat (q : Quote) : (before ++ after).isAt before.utf8Size q.char = false := by
    rw [Text.isAt_boundary q.utf8Size_char, beq_eq_false_iff_ne]
    exact h q
  unfold quoted
  rw [hat, if_neg Bool.false_ne_true, hat, if_neg Bool.false_ne_true]

theorem separator_eq (before after : Text) :
    separator (before ++ after) before.utf8Size =
      .ok ((Clause.read? after).map fun (clause, _) =>
        (clause.body, before.utf8Size + clause.text.utf8Size)) := by
  have hafter := after.takeWhile_append_dropWhile (p := Text.isBlank)
  have hstart : before.utf8Size + after.utf8Size - Text.utf8Size (after.dropWhile Text.isBlank) =
      (before ++ after.takeWhile Text.isBlank).utf8Size := by
    have hsize := congrArg Text.utf8Size hafter
    rw [Text.utf8Size_append] at hsize
    rw [Text.utf8Size_append]
    omega
  have hquoted : separator (before ++ after) before.utf8Size =
      quoted (before ++ after.takeWhile Text.isBlank ++ after.dropWhile Text.isBlank)
        (before ++ after.takeWhile Text.isBlank).utf8Size := by
    rw [separator, Text.cut_rest, ← hstart, List.append_assoc, hafter]
    rfl
  rw [hquoted]
  cases hrest : after.dropWhile Text.isBlank with
  | nil =>
      have hread : Clause.read? after = none := by simp only [Clause.read?, hrest]
      rw [hread, quoted_of_no_quote _ (by simp)]
      rfl
  | cons c rest =>
      cases hc : Quote.ofChar? c with
      | none =>
          have hread : Clause.read? after = none := by simp only [Clause.read?, hrest, hc]
          rw [hread, quoted_of_no_quote _ fun q hq => ?_]
          · rfl
          · rw [Quote.ofChar?_eq_some_iff.2 (Option.some.inj hq)] at hc
            cases hc
      | some q =>
          obtain rfl := Quote.ofChar?_eq_some_iff.1 hc
          have hsize (raw : Text) :
              (before ++ after.takeWhile Text.isBlank ++ [q.char] ++ raw).utf8Size + 2 =
                before.utf8Size +
                  (Clause.text ⟨after.takeWhile Text.isBlank, q, raw⟩).utf8Size := by
            have hcomma : ','.utf8Size = 1 := rfl
            simp only [Clause.text, Text.utf8Size_append, Text.utf8Size_cons, Text.utf8Size_nil,
              q.utf8Size_char, hcomma]
            omega
          simp only [Clause.read?, hrest, hc, quoted_of_quote, Option.map_map, Function.comp_def,
            hsize]

/-- What follows the content of a block. -/
structure Tail where
  stop : Nat
  count : Nat
  separator : Option Text
deriving DecidableEq, Repr

/-- Reads the end of a block behind its count, which ends before byte `i`. -/
def closing (s : Text) (count i : Nat) : Except BadCut (Option Tail) :=
  if s.isAt i ')' then .ok (some ⟨i + 1, count, none⟩)
  else if s.isAt i ',' then do
    let found ← separator s (i + 1)
    return found.map fun (raw, stop) => ⟨stop, count, some raw⟩
  else .ok none

def isDigit (b : UInt8) : Bool :=
  '0'.toUInt8 ≤ b && b ≤ '9'.toUInt8

/-- The offset behind the digits at byte `i`. -/
def digitsEnd (s : Text) (i : Nat) : Nat :=
  i + ((s.bytes.drop i).takeWhile isDigit).length

/-- Reads what follows the content of a block at byte `i`. -/
def tail (s : Text) (i : Nat) : Except BadCut (Option Tail) :=
  if s.isAt i '}' ∧ s.isAt (i + 1) '}' ∧ s.isAt (i + 2) '(' then
    if digitsEnd s (i + 3) = i + 3 then .ok none
    else do
      let digits ← s.cut (i + 3) (digitsEnd s (i + 3))
      closing s (min (Nat.ofDigitChars 10 digits 0) Block.maxCount) (digitsEnd s (i + 3))
  else .ok none

theorem closing_eq (count : Nat) (before after : Text) :
    closing (before ++ after) count before.utf8Size =
      .ok ((Block.readClause? after).map fun (clause, _) =>
        ⟨before.utf8Size + Text.utf8Size ((clause.map Clause.text).getD []) + 1, count,
          clause.map Clause.body⟩) := by
  have hat {a : Char} (ha : a.utf8Size = 1) := Text.isAt_boundary ha before after
  unfold closing
  rw [hat (by rfl), hat (by rfl)]
  cases after with
  | nil => rfl
  | cons c after =>
      rw [List.head?_cons, Option.some_beq_some, Option.some_beq_some, Block.readClause?]
      by_cases hclose : c = ')'
      · subst hclose
        rfl
      · by_cases hcomma : c = ','
        · subst hcomma
          have hseparator := separator_eq (before ++ [',']) after
          rw [List.append_assoc, Text.utf8Size_append] at hseparator
          have hsep : separator (before ++ ',' :: after) (before.utf8Size + 1) =
            .ok ((Clause.read? after).map fun (clause, _) =>
              (clause.body, before.utf8Size + 1 + clause.text.utf8Size)) := hseparator
          simp [hsep, bind, Except.bind, pure, Except.pure, Function.comp_def,
            Nat.add_right_comm]
        · simp [hclose, hcomma]

theorem isDigit_toUInt8 {c : Char} (hc : c.utf8Size = 1) : isDigit c.toUInt8 = c.isDigit := by
  have hcode := Text.toNat_toUInt8 hc
  rw [Bool.eq_iff_iff]
  simp only [isDigit, Char.isDigit, Bool.and_eq_true, decide_eq_true_eq, UInt8.le_iff_toNat_le,
    hcode, ge_iff_le, UInt32.le_iff_toNat_le]
  rfl

theorem utf8Size_of_isDigit {c : Char} (h : c.isDigit = true) : c.utf8Size = 1 := by
  rw [Char.utf8Size_eq_one_iff, UInt32.le_iff_toNat_le]
  have hle := (Char.isDigit_iff_toNat.1 h).2
  exact Nat.le_trans hle (by decide)

theorem isDigit_of_wide {c : Char} (hwide : c.utf8Size ≠ 1) {b : UInt8}
    (h : b ∈ String.utf8EncodeChar c) : isDigit b = false := by
  have hhigh := Text.high_of_mem_utf8EncodeChar hwide h
  have hnine : '9'.toUInt8.toNat = 57 := rfl
  rw [isDigit, Bool.and_eq_false_iff]
  refine .inr (decide_eq_false ?_)
  rw [UInt8.le_iff_toNat_le]
  omega

/-- The digits among the bytes are the digits among the characters. -/
theorem length_takeWhile_isDigit (s : Text) :
    (s.bytes.takeWhile isDigit).length = Text.utf8Size (s.takeWhile Char.isDigit) := by
  induction s with
  | nil => rfl
  | cons c s ih =>
      by_cases hc : c.utf8Size = 1
      · rw [Text.bytes_cons, String.utf8EncodeChar_eq_singleton hc]
        have hsame := isDigit_toUInt8 hc
        cases hdigit : c.isDigit with
        | true => simp [hsame, hdigit, ih, hc, Nat.add_comm]
        | false => simp [hsame, hdigit]
      · have hdigit : c.isDigit = false :=
          Bool.eq_false_iff.2 fun h => hc (utf8Size_of_isDigit h)
        obtain ⟨b, bs, hbytes⟩ := List.exists_cons_of_ne_nil (String.utf8EncodeChar_ne_nil (c := c))
        have hb : isDigit b = false := isDigit_of_wide hc (hbytes ▸ List.mem_cons_self)
        simp [hbytes, hb, hdigit]

theorem digitsEnd_eq (before after : Text) :
    digitsEnd (before ++ after) before.utf8Size =
      (before ++ after.takeWhile Char.isDigit).utf8Size := by
  rw [digitsEnd, Text.bytes_append, ← Text.length_bytes before, List.drop_left,
    length_takeWhile_isDigit, Text.utf8Size_append, Text.length_bytes]

/-- What the end of a block says. -/
def Tail.of (start : Nat) (digits : Text) (clause : Option Clause) : Tail :=
  ⟨start + (Block.tailText digits clause).utf8Size,
    min (Nat.ofDigitChars 10 digits 0) Block.maxCount, clause.map Clause.body⟩

/-- Whether a tail opens at a byte can be told from three bytes. -/
theorem opens_iff {before after : Text} :
    ((before ++ after).isAt before.utf8Size '}' = true ∧
      (before ++ after).isAt (before.utf8Size + 1) '}' = true ∧
      (before ++ after).isAt (before.utf8Size + 2) '(' = true) ↔
    ∃ rest, after = '}' :: '}' :: '(' :: rest := by
  constructor
  · rintro ⟨hfirst, hsecond, hthird⟩
    obtain ⟨rest, rfl⟩ := Text.exists_cons_of_isAt (by rfl) hfirst
    rw [Text.isAt_next (by rfl) (by rfl), beq_iff_eq] at hsecond
    obtain ⟨rest, rfl⟩ := List.head?_eq_some_iff.1 hsecond
    have hnext := Text.isAt_next (a := '(') (c := '}') (by rfl) (by rfl) (before ++ ['}']) rest
    rw [List.append_assoc, Text.utf8Size_append] at hnext
    have hhead : (rest.head? == some '(') = true := hnext.symm.trans hthird
    obtain ⟨rest, rfl⟩ := List.head?_eq_some_iff.1 (beq_iff_eq.1 hhead)
    exact ⟨rest, rfl⟩
  · rintro ⟨rest, rfl⟩
    exact ⟨Text.isAt_append before _ 0 '}', Text.isAt_append before _ 1 '}',
      Text.isAt_append before _ 2 '('⟩

theorem tail_of_opens (before after : Text) :
    tail (before ++ '}' :: '}' :: '(' :: after) before.utf8Size =
      .ok ((Block.readTail? ('}' :: '}' :: '(' :: after)).map fun ((digits, clause), _) =>
        Tail.of before.utf8Size digits clause) := by
  let front := before ++ ['}', '}', '(']
  have hs : before ++ '}' :: '}' :: '(' :: after = front ++ after := by simp [front]
  have hfirst : before.utf8Size + 3 = front.utf8Size :=
    (Text.utf8Size_append before ['}', '}', '(']).symm
  have hafter := after.takeWhile_append_dropWhile (p := Char.isDigit)
  rw [tail, if_pos (opens_iff.2 ⟨after, rfl⟩), hs, hfirst, digitsEnd_eq, Block.readTail?]
  generalize after.takeWhile Char.isDigit = digits at *
  generalize after.dropWhile Char.isDigit = rest at *
  subst hafter
  cases digits with
  | nil => simp
  | cons c digits =>
      have hlt := Text.utf8Size_lt_append_cons front c digits
      have hsize (clause : Option Clause) :
          (front ++ c :: digits).utf8Size + Text.utf8Size ((clause.map Clause.text).getD []) + 1 =
            before.utf8Size + (Block.tailText (c :: digits) clause).utf8Size := by
        have htail : (Block.tailText (c :: digits) clause).utf8Size =
            3 + Text.utf8Size (c :: digits) + Text.utf8Size ((clause.map Clause.text).getD []) +
              1 := by
          simp only [Block.tailText, Text.utf8Size_append]
          rfl
        rw [Text.utf8Size_append, ← hfirst, htail]
        omega
      rw [if_neg (Nat.ne_of_gt hlt), if_pos ⟨rfl, rfl, rfl, List.cons_ne_nil c digits⟩,
        ← List.append_assoc, Text.cut_append]
      simp only [bind, Except.bind, closing_eq, Option.map_map, Function.comp_def, Tail.of, hsize]

theorem tail_of_plain {s : Text} {i : Nat} (h : s.isAt i '}' = false) : tail s i = .ok none := by
  rw [tail, h, if_neg (by simp)]

theorem tail_eq (before after : Text) :
    tail (before ++ after) before.utf8Size =
      .ok ((Block.readTail? after).map fun ((digits, clause), _) =>
        Tail.of before.utf8Size digits clause) := by
  by_cases hopen : ∃ rest, after = '}' :: '}' :: '(' :: rest
  · obtain ⟨rest, rfl⟩ := hopen
    exact tail_of_opens before rest
  · have hread : Block.readTail? after = none := by
      unfold Block.readTail?
      split
      · rename_i c d e rest
        rw [if_neg]
        rintro ⟨rfl, rfl, rfl, -⟩
        exact hopen ⟨rest, rfl⟩
      · rfl
    rw [tail, if_neg (mt opens_iff.1 hopen), hread]
    rfl

end ByteReader

end PromptDraw
