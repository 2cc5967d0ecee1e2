import PromptDraw.Block.Grammar
import PromptDraw.Prompt.Report
import PromptDraw.Proofs.Block.ByteReader
import PromptDraw.Proofs.Block.Items

/-!
The content of a block read byte by byte, and divided into items byte by byte. Both
loops go through the characters of the content one byte at a time and over a backslash
together with the byte behind it, if that is a mark. All cuts are made beside a mark,
where no character is cut.
-/

namespace PromptDraw

namespace Block

theorem readContent?_of_tail {escaped : Bool} {s rest digits : Text} {clause : Option Clause}
    (h : readTail? s = some ((digits, clause), rest)) :
    readContent? escaped s = some (⟨[], digits, clause⟩, rest) := by
  unfold readContent?
  rw [h]

theorem readContent?_nil (escaped : Bool) : readContent? escaped [] = none := by
  rw [readContent?.eq_def]
  rfl

theorem readContent?_cons {escaped : Bool} {c : Char} {s : Text} (h : readTail? (c :: s) = none)
    (hc : Text.IsBrace c → escaped = true) :
    readContent? escaped (c :: s) = (readContent? (c == '\\') s).map fun (b, rest) =>
      ({ b with content := c :: b.content }, rest) := by
  have hstay : ¬((c = '{' ∨ c = '}') ∧ ¬escaped = true) := fun hbrace => hbrace.2 (hc hbrace.1)
  rw [readContent?.eq_def, h]
  simp only
  rw [if_neg hstay]

theorem readContent?_brace {c : Char} {s : Text} (h : readTail? (c :: s) = none)
    (hc : Text.IsBrace c) : readContent? false (c :: s) = none := by
  rw [readContent?.eq_def, h]
  simp only
  rw [if_pos ⟨hc, Bool.false_ne_true⟩]

/-- A backslash makes no difference to what is read behind it but for a brace. -/
theorem readContent?_escaped {s : Text} (h : ∀ c ∈ s.head?, ¬Text.IsBrace c) :
    readContent? true s = readContent? false s := by
  cases htail : readTail? s with
  | some result => rw [readContent?_of_tail htail, readContent?_of_tail htail]
  | none =>
      cases s with
      | nil => rw [readContent?_nil, readContent?_nil]
      | cons c s =>
          have hc : ¬Text.IsBrace c := h c rfl
          rw [readContent?_cons htail fun _ => rfl, readContent?_cons htail fun hb => absurd hb hc]

end Block

namespace ByteReader

open Text (BadCut)

/-- A block that was found, with the bytes it spans. -/
structure Found where
  start : Nat
  stop : Nat
  text : Text
  content : Text
  count : Nat
  separator : Option Text
deriving DecidableEq, Repr

/-- The block that starts at byte `start` and whose content ends at byte `i`. -/
def build (s : Text) (start i : Nat) (tail : Tail) : Except BadCut Found := do
  let text ← s.cut start tail.stop
  let content ← s.cut (start + 2) i
  return ⟨start, tail.stop, text, content, tail.count, tail.separator⟩

/-- Reads on at byte `i` in the content of a block that starts at byte `start`. -/
def block (s : Text) (start i : Nat) : Except BadCut (Option Found) := do
  match ← tail s i with
  | some tail => return some (← build s start i tail)
  | none =>
    if s.utf8Size ≤ i then return none
    else if s.isAt i '{' ∨ s.isAt i '}' then return none
    else if s.isAt i '\\' ∧ (s.isAt (i + 1) '{' ∨ s.isAt (i + 1) '}') then
      match ← tail s (i + 1) with
      | some tail => return some (← build s start (i + 1) tail)
      | none => block s start (i + 2)
    else block s start (i + 1)
termination_by s.utf8Size - i

/-- An occurrence as the search by bytes gives it. -/
def Found.of (o : Occurrence) : Found :=
  ⟨o.start, o.stop, o.block.text, o.block.content, o.block.count, o.block.rawSeparator⟩

/-- The end of a block and its content fit together. -/
theorem build_eq (front : Text) (b : Block) (rest : Text) :
    build (front ++ b.text ++ rest) front.utf8Size
        (front ++ ['{', '{'] ++ b.content).utf8Size
        (Tail.of (front ++ ['{', '{'] ++ b.content).utf8Size b.digits b.clause) =
      .ok (Found.of ⟨front.utf8Size, b⟩) := by
  have hstop : (Tail.of (front ++ ['{', '{'] ++ b.content).utf8Size b.digits b.clause).stop =
      (front ++ b.text).utf8Size := by
    simp [Tail.of, Block.text, Nat.add_assoc]
  have hcontent : front ++ b.text ++ rest =
      front ++ ['{', '{'] ++ b.content ++ (Block.tailText b.digits b.clause ++ rest) := by
    simp [Block.text]
  have hstart : front.utf8Size + 2 = (front ++ ['{', '{']).utf8Size :=
    (Text.utf8Size_append front ['{', '{']).symm
  rw [build, hstop, Text.cut_append, hcontent, hstart, Text.cut_append]
  simp only [bind, Except.bind, pure, Except.pure, Tail.of, Found.of, Occurrence.stop,
    Block.utf8Size, Block.count, Block.rawSeparator, Text.utf8Size_append]

theorem block_of_plain {s : Text} {start i : Nat} (hlt : i < s.utf8Size)
    (hclose : s.isAt i '}' = false) (hopen : s.isAt i '{' = false)
    (hpair : ¬(s.isAt i '\\' = true ∧
      (s.isAt (i + 1) '{' = true ∨ s.isAt (i + 1) '}' = true))) :
    block s start i = block s start (i + 1) := by
  have hbrace : ¬(s.isAt i '{' = true ∨ s.isAt i '}' = true) := by simp [hclose, hopen]
  rw [block, tail_of_plain hclose]
  simp only [bind, Except.bind]
  rw [if_neg (Nat.not_le.2 hlt), if_neg hbrace, if_neg hpair]

theorem block_pass (start : Nat) (before : Text) (c : Char) (after : Text) :
    block (before ++ c :: after) start (before.utf8Size + 1) =
      block (before ++ [c] ++ after) start (before ++ [c]).utf8Size := by
  rw [Text.utf8Size_append, List.append_assoc, List.singleton_append]
  exact Text.pass_inner fun _ hinner =>
    block_of_plain hinner.1 (hinner.2 '}' rfl) (hinner.2 '{' rfl) fun h =>
      Bool.false_ne_true ((hinner.2 '\\' rfl).symm.trans h.1)

theorem block_single (start : Nat) (before : Text) {c : Char} {after : Text}
    (hc : ¬Text.IsBrace c) (hpair : c = '\\' → ∀ d ∈ after.head?, ¬Text.IsBrace d) :
    block (before ++ c :: after) start before.utf8Size =
      block (before ++ [c] ++ after) start (before ++ [c]).utf8Size := by
  have hlt := Text.utf8Size_lt_append_cons before c after
  have hat {a : Char} (ha : a.utf8Size = 1) := Text.isAt_boundary ha before (c :: after)
  rw [← block_pass]
  refine block_of_plain hlt ?_ ?_ ?_
  · rw [hat (by rfl)]
    simpa using fun h => hc (.inr h)
  · rw [hat (by rfl)]
    simpa using fun h => hc (.inl h)
  · rintro ⟨hbackslash, hbrace⟩
    rw [hat (by rfl)] at hbackslash
    obtain rfl : c = '\\' := by simpa using hbackslash
    rw [Text.isAt_next (by rfl) (by rfl), Text.isAt_next (by rfl) (by rfl), beq_iff_eq,
      beq_iff_eq] at hbrace
    rcases hbrace with hbrace | hbrace
    · exact hpair rfl '{' hbrace (.inl rfl)
    · exact hpair rfl '}' hbrace (.inr rfl)

theorem block_of_tail {s : Text} {start i : Nat} {t : Tail} (h : tail s i = .ok (some t)) :
    block s start i = some <$> build s start i t := by
  rw [block, h]
  simp only [bind, Except.bind, pure, Except.pure]
  rfl

theorem block_of_pair {s : Text} {start i : Nat} (hlt : i < s.utf8Size)
    (hbackslash : s.isAt i '\\' = true)
    (hbrace : s.isAt (i + 1) '{' = true ∨ s.isAt (i + 1) '}' = true) :
    block s start i = (do
      match ← tail s (i + 1) with
      | some t => return some (← build s start (i + 1) t)
      | none => block s start (i + 2)) := by
  have hopen := Text.isAt_of_ne (b := '{') hbackslash (by decide)
  have hclose := Text.isAt_of_ne (b := '}') hbackslash (by decide)
  rw [block, tail_of_plain hclose]
  simp only [bind, Except.bind]
  rw [if_neg (Nat.not_le.2 hlt), if_neg (by simp [hopen, hclose]), if_pos ⟨hbackslash, hbrace⟩]

/-- The end of a block makes a block of what stands before it. -/
theorem build_of_readTail? (front part : Text) {after digits rest : Text} {clause : Option Clause}
    (h : Block.readTail? after = some ((digits, clause), rest)) :
    build (front ++ ['{', '{'] ++ part ++ after) front.utf8Size
        (front ++ ['{', '{'] ++ part).utf8Size
        (Tail.of (front ++ ['{', '{'] ++ part).utf8Size digits clause) =
      .ok (Found.of ⟨front.utf8Size, ⟨part, digits, clause⟩⟩) := by
  have hbuild := build_eq front ⟨part, digits, clause⟩ rest
  have hs : front ++ ['{', '{'] ++ part ++ after =
      front ++ Block.text ⟨part, digits, clause⟩ ++ rest := by
    simp [Block.text, Block.eq_append_of_readTail? h]
  rw [hs]
  exact hbuild

theorem block_end (start : Nat) (before : Text) :
    block (before ++ []) start before.utf8Size = .ok none := by
  have htail : tail (before ++ []) before.utf8Size = .ok none := tail_eq before []
  rw [block, htail]
  simp only [bind, Except.bind]
  rw [List.append_nil, if_pos (Nat.le_refl _)]
  rfl

theorem block_brace (start : Nat) (before : Text) {c : Char} {after : Text} (hc : Text.IsBrace c)
    (htail : Block.readTail? (c :: after) = none) :
    block (before ++ c :: after) start before.utf8Size = .ok none := by
  have hlt := Text.utf8Size_lt_append_cons before c after
  have hread := tail_eq before (c :: after)
  have hat {a : Char} (ha : a.utf8Size = 1) := Text.isAt_boundary ha before (c :: after)
  rw [block, hread, htail]
  simp only [bind, Except.bind, Option.map_none]
  rw [if_neg (Nat.not_le.2 hlt), hat (by rfl), hat (by rfl), if_pos]
  · rfl
  · rw [List.head?_cons, Option.some_beq_some, Option.some_beq_some, beq_iff_eq, beq_iff_eq]
    exact hc

theorem block_backslash (start : Nat) (before : Text) {d : Char} (hd : Text.IsBrace d)
    (after : Text) :
    block (before ++ ['\\'] ++ d :: after) start before.utf8Size = (do
      match ← tail (before ++ ['\\'] ++ d :: after) (before ++ ['\\']).utf8Size with
      | some t => return some (← build (before ++ ['\\'] ++ d :: after) start
          (before ++ ['\\']).utf8Size t)
      | none => block (before ++ ['\\', d] ++ after) start (before ++ ['\\', d]).utf8Size) := by
  have hs : before ++ ['\\'] ++ d :: after = before ++ '\\' :: d :: after := by simp
  have hs' : before ++ ['\\', d] ++ after = before ++ '\\' :: d :: after := by simp
  have hnext : (before ++ ['\\']).utf8Size = before.utf8Size + 1 := Text.utf8Size_append before _
  have hbehind : (before ++ ['\\', d]).utf8Size = before.utf8Size + 2 := by
    have hsize : d.utf8Size = 1 := by rcases hd with rfl | rfl <;> rfl
    rw [Text.utf8Size_append, Text.utf8Size_cons, Text.utf8Size_cons, hsize]
    rfl
  have hlt := Text.utf8Size_lt_append_cons before '\\' (d :: after)
  have hbackslash := Text.isAt_append_cons (a := '\\') (by rfl) before (d :: after)
  have hbrace : (before ++ '\\' :: d :: after).isAt (before.utf8Size + 1) '{' = true ∨
      (before ++ '\\' :: d :: after).isAt (before.utf8Size + 1) '}' = true := by
    rw [Text.isAt_next (by rfl) (by rfl), Text.isAt_next (by rfl) (by rfl), List.head?_cons,
      Option.some_beq_some, Option.some_beq_some, beq_iff_eq, beq_iff_eq]
    exact hd
  rw [hs, hs', hnext, hbehind, block_of_pair hlt hbackslash hbrace]

/-- What is found when some part of the content of a block has been read already. -/
def Found.behind (start : Nat) (part : Text) (read : Option (Block × Text)) : Option Found :=
  read.map fun (b, _) => Found.of ⟨start, { b with content := part ++ b.content }⟩

theorem Found.behind_some (start : Nat) (part content digits : Text) (clause : Option Clause)
    (rest : Text) : Found.behind start part (some (⟨content, digits, clause⟩, rest)) =
      some (Found.of ⟨start, ⟨part ++ content, digits, clause⟩⟩) := rfl

theorem Found.behind_cons (start : Nat) (part : Text) (c : Char) (read : Option (Block × Text)) :
    Found.behind start part
        (read.map fun (b, rest) => ({ b with content := c :: b.content }, rest)) =
      Found.behind start (part ++ [c]) read := by
  simp [Found.behind, Function.comp_def]

/-- Behind a backslash the content may end at a brace, or go on behind the brace. -/
theorem block_pair (front part : Text) {d : Char} {after : Text} (hd : Text.IsBrace d)
    (hrest : block (front ++ ['{', '{'] ++ (part ++ ['\\', d]) ++ after) front.utf8Size
        (front ++ ['{', '{'] ++ (part ++ ['\\', d])).utf8Size =
      .ok (Found.behind front.utf8Size (part ++ ['\\', d]) (Block.readContent? false after))) :
    block (front ++ ['{', '{'] ++ part ++ '\\' :: d :: after) front.utf8Size
        (front ++ ['{', '{'] ++ part).utf8Size =
      .ok (Found.behind front.utf8Size (part ++ ['\\'])
        (Block.readContent? true (d :: after))) := by
  have hbackslash := block_backslash front.utf8Size (front ++ ['{', '{'] ++ part) hd after
  have htail := tail_eq (front ++ ['{', '{'] ++ part ++ ['\\']) (d :: after)
  have hs : front ++ ['{', '{'] ++ part ++ '\\' :: d :: after =
      front ++ ['{', '{'] ++ part ++ ['\\'] ++ d :: after := by simp
  rw [hs, hbackslash, htail]
  cases hread : Block.readTail? (d :: after) with
  | some result =>
      obtain ⟨⟨digits, clause⟩, rest⟩ := result
      have hbuild := build_of_readTail? front (part ++ ['\\']) hread
      rw [← List.append_assoc] at hbuild
      rw [Block.readContent?_of_tail hread, Found.behind_some, List.append_nil]
      simp only [bind, Except.bind, Option.map_some, hbuild]
      rfl
  | none =>
      have hd' : (d == '\\') = false := by rcases hd with rfl | rfl <;> rfl
      rw [Block.readContent?_cons hread fun _ => rfl, hd', Found.behind_cons]
      simp only [bind, Except.bind, Option.map_none]
      rw [← List.append_assoc] at hrest
      rw [hrest, List.append_assoc, List.singleton_append]

/-- Between characters, the block is what is read by characters. -/
theorem block_eq (front part after : Text) :
    block (front ++ ['{', '{'] ++ part ++ after) front.utf8Size
        (front ++ ['{', '{'] ++ part).utf8Size =
      .ok (Found.behind front.utf8Size part (Block.readContent? false after)) := by
  -- The bytes do not say whether a backslash has been passed, so the characters behind
  -- a backslash are passed together with it.
  induction hn : after.length using Nat.strongRecOn generalizing part after with
  | ind n ih =>
      cases htail : Block.readTail? after with
      | some result =>
          obtain ⟨⟨digits, clause⟩, rest⟩ := result
          have hread := tail_eq (front ++ ['{', '{'] ++ part) after
          rw [htail] at hread
          rw [block_of_tail hread, build_of_readTail? front part htail,
            Block.readContent?_of_tail htail, Found.behind_some, List.append_nil]
          rfl
      | none =>
          cases after with
          | nil =>
              rw [block_end, Block.readContent?_nil]
              rfl
          | cons c after =>
              by_cases hc : Text.IsBrace c
              · rw [block_brace _ _ hc htail, Block.readContent?_brace htail hc]
                rfl
              · rw [Block.readContent?_cons htail fun hb => absurd hb hc, Found.behind_cons]
                by_cases hpair : c = '\\' ∧ ∃ d ∈ after.head?, Text.IsBrace d
                · obtain ⟨rfl, d, hhead, hd⟩ := hpair
                  obtain ⟨after, rfl⟩ := List.head?_eq_some_iff.1 hhead
                  have hlt : after.length < n :=
                    hn ▸ Nat.lt_add_of_pos_right (n := after.length) (k := 2) (by decide)
                  exact block_pair front part hd (ih after.length hlt (part ++ ['\\', d]) after rfl)
                · have hpair' : c = '\\' → ∀ d ∈ after.head?, ¬Text.IsBrace d :=
                    fun hbackslash d hd hbrace => hpair ⟨hbackslash, d, hd, hbrace⟩
                  have hsame : Block.readContent? (c == '\\') after =
                      Block.readContent? false after := by
                    cases hbackslash : c == '\\' with
                    | false => rfl
                    | true => exact Block.readContent?_escaped (hpair' (beq_iff_eq.1 hbackslash))
                  rw [block_single front.utf8Size _ hc hpair', List.append_assoc (front ++ _) part,
                    ih after.length (by simp [← hn]) (part ++ [c]) after rfl, hsame]

theorem block_eq_read? (before rest : Text) :
    block (before ++ '{' :: '{' :: rest) before.utf8Size (before.utf8Size + 2) =
      .ok ((Block.read? ('{' :: '{' :: rest)).map fun (b, _) =>
        Found.of ⟨before.utf8Size, b⟩) := by
  have hblock := block_eq before [] rest
  have hstart : (before ++ ['{', '{']).utf8Size = before.utf8Size + 2 :=
    Text.utf8Size_append before ['{', '{']
  rw [List.append_nil, hstart, List.append_assoc] at hblock
  exact hblock

/-- Divides a content on from byte `i`, the item there having started at byte `start`. -/
def items (s : Text) (start i : Nat) : Except BadCut (List Text) := do
  if s.utf8Size ≤ i then
    if start < s.utf8Size then return [← Text.cut s start s.utf8Size] else return []
  else if s.isAt i '\\' ∧ (s.isAt (i + 1) ',' ∨ s.isAt (i + 1) '{' ∨ s.isAt (i + 1) '}') then
    items s start (i + 2)
  else if s.isAt i ',' then
    let item ← Text.cut s start i
    return item :: (← items s (i + 1) (i + 1))
  else items s start (i + 1)
termination_by s.utf8Size - i

theorem items_of_plain {s : Text} {start i : Nat} (hlt : i < s.utf8Size)
    (hcomma : s.isAt i ',' = false)
    (hpair : ¬(s.isAt i '\\' = true ∧ (s.isAt (i + 1) ',' = true ∨ s.isAt (i + 1) '{' = true ∨
      s.isAt (i + 1) '}' = true))) :
    items s start i = items s start (i + 1) := by
  rw [items, if_neg (Nat.not_le.2 hlt), if_neg hpair, hcomma, if_neg Bool.false_ne_true]

theorem items_pass (start : Nat) (before : Text) (c : Char) (after : Text) :
    items (before ++ c :: after) start (before.utf8Size + 1) =
      items (before ++ [c] ++ after) start (before ++ [c]).utf8Size := by
  rw [Text.utf8Size_append, List.append_assoc, List.singleton_append]
  exact Text.pass_inner fun _ hinner =>
    items_of_plain hinner.1 (hinner.2 ',' rfl) fun h =>
      Bool.false_ne_true ((hinner.2 '\\' rfl).symm.trans h.1)

/-- A character that a backslash keeps from dividing a content or from ending it. -/
def IsKept (c : Char) : Prop := c = ',' ∨ c = '{' ∨ c = '}'

theorem isAt_kept {c : Char} (hc : c.utf8Size = 1) (before after : Text) :
    ((before ++ c :: after).isAt (before.utf8Size + 1) ',' = true ∨
      (before ++ c :: after).isAt (before.utf8Size + 1) '{' = true ∨
      (before ++ c :: after).isAt (before.utf8Size + 1) '}' = true) ↔
    ∃ d ∈ after.head?, IsKept d := by
  rw [Text.isAt_next (by rfl) hc, Text.isAt_next (by rfl) hc, Text.isAt_next (by rfl) hc]
  cases after with
  | nil => simp
  | cons d after => simp [IsKept]

theorem items_single (start : Nat) (before : Text) {c : Char} {after : Text}
    (hcomma : c ≠ ',') (hpair : c = '\\' → ∀ d ∈ after.head?, ¬IsKept d) :
    items (before ++ c :: after) start before.utf8Size =
      items (before ++ [c] ++ after) start (before ++ [c]).utf8Size := by
  have hlt := Text.utf8Size_lt_append_cons before c after
  have hat {a : Char} (ha : a.utf8Size = 1) := Text.isAt_boundary ha before (c :: after)
  rw [← items_pass]
  refine items_of_plain hlt ?_ ?_
  · rw [hat (by rfl)]
    simpa using hcomma
  · rintro ⟨hbackslash, hkept⟩
    rw [hat (by rfl)] at hbackslash
    obtain rfl : c = '\\' := by simpa using hbackslash
    obtain ⟨d, hhead, hd⟩ := (isAt_kept (by rfl) before after).1 hkept
    exact hpair rfl d hhead hd

theorem items_pair (start : Nat) (before : Text) {d : Char} (hd : IsKept d) (after : Text) :
    items (before ++ '\\' :: d :: after) start before.utf8Size =
      items (before ++ ['\\', d] ++ after) start (before ++ ['\\', d]).utf8Size := by
  have hlt := Text.utf8Size_lt_append_cons before '\\' (d :: after)
  have hbackslash := Text.isAt_append_cons (a := '\\') (by rfl) before (d :: after)
  have hkept := (isAt_kept (c := '\\') (by rfl) before (d :: after)).2 ⟨d, rfl, hd⟩
  have hbehind : (before ++ ['\\', d]).utf8Size = before.utf8Size + 2 := by
    have hsize : d.utf8Size = 1 := by rcases hd with rfl | rfl | rfl <;> rfl
    rw [Text.utf8Size_append, Text.utf8Size_cons, Text.utf8Size_cons, hsize]
    rfl
  rw [items, if_neg (Nat.not_le.2 hlt), if_pos ⟨hbackslash, hkept⟩, hbehind, List.append_assoc]
  rfl

theorem items_comma (front part after : Text) :
    items (front ++ part ++ ',' :: after) front.utf8Size (front ++ part).utf8Size =
      (part :: ·) <$> items (front ++ part ++ [','] ++ after) (front ++ part ++ [',']).utf8Size
        (front ++ part ++ [',']).utf8Size := by
  have hlt := Text.utf8Size_lt_append_cons (front ++ part) ',' after
  have hcomma := Text.isAt_append_cons (a := ',') (by rfl) (front ++ part) after
  have hbackslash := Text.isAt_of_ne (b := '\\') hcomma (by decide)
  have hnext : (front ++ part ++ [',']).utf8Size = (front ++ part).utf8Size + 1 :=
    Text.utf8Size_append (front ++ part) [',']
  have hs : front ++ part ++ [','] ++ after = front ++ part ++ ',' :: after := by simp
  rw [items, if_neg (Nat.not_le.2 hlt), hbackslash, if_neg (by simp), if_pos hcomma,
    Text.cut_append, hnext, hs]
  rfl

theorem items_end (front part : Text) :
    items (front ++ part ++ []) front.utf8Size (front ++ part).utf8Size =
      .ok (if part = [] then [] else [part]) := by
  rw [items, List.append_nil, if_pos (Nat.le_refl _)]
  cases part with
  | nil => simp [pure, Except.pure]
  | cons c part =>
      rw [if_pos (Text.utf8Size_lt_append_cons front c part), Text.cut_rest]
      rfl

end ByteReader

namespace Text

/-- A backslash makes no difference to what stands behind it but for a comma. -/
theorem segments_escaped {s : Text} (h : s.head? ≠ some ',') :
    s.segments true = s.segments false := by
  cases s with
  | nil => rfl
  | cons c s =>
      have hc : c ≠ ',' := by simpa using h
      rw [segments_stay (by simp [hc]), segments_stay (by simp [hc])]

end Text

namespace ByteReader

/-- Between characters, the items are those that the characters give. -/
theorem items_eq (front part after : Text) :
    items (front ++ part ++ after) front.utf8Size (front ++ part).utf8Size =
      .ok (Text.dropEmptyLast ((after.segments false).modifyHead (part ++ ·))) := by
  induction hn : after.length using Nat.strongRecOn generalizing front part after with
  | ind n ih =>
      cases after with
      | nil =>
          rw [items_end, Text.segments, List.modifyHead_cons, List.append_nil]
          cases part <;> rfl
      | cons c after =>
          have hlt : after.length < n := hn ▸ Nat.lt_succ_self after.length
          by_cases hcomma : c = ','
          · subst hcomma
            have hrest := ih after.length hlt (front ++ part ++ [',']) [] after rfl
            rw [List.append_nil] at hrest
            have hsegments : Text.segments false (',' :: after) =
                [] :: Text.segments false after := by
              rw [Text.segments, if_pos ⟨rfl, Bool.false_ne_true⟩]
            have hsame : (Text.segments false after).modifyHead ([] ++ ·) =
                Text.segments false after := congrFun List.modifyHead_id _
            rw [items_comma, hrest, hsame, hsegments, List.modifyHead_cons, List.append_nil,
              Text.dropEmptyLast_cons part (Text.segments_ne_nil false after)]
            rfl
          · by_cases hpair : c = '\\' ∧ ∃ d ∈ after.head?, IsKept d
            · obtain ⟨rfl, d, hhead, hd⟩ := hpair
              obtain ⟨after, rfl⟩ := List.head?_eq_some_iff.1 hhead
              rw [items_pair front.utf8Size _ hd, List.append_assoc front part,
                ih after.length (Nat.lt_of_succ_lt hlt) front (part ++ ['\\', d]) after rfl]
              have hd' : (d == '\\') = false := by rcases hd with rfl | rfl | rfl <;> rfl
              rw [Text.segments_stay (by simp), beq_self_eq_true, Text.segments_stay (by simp), hd',
                List.modifyHead_modifyHead, List.modifyHead_modifyHead]
              simp only [List.append_assoc, List.cons_append, List.nil_append, Function.comp_def]
            · have hpair' : c = '\\' → ∀ d ∈ after.head?, ¬IsKept d :=
                fun hbackslash d hhead hd => hpair ⟨hbackslash, d, hhead, hd⟩
              rw [items_single front.utf8Size _ hcomma hpair', List.append_assoc front part,
                ih after.length hlt front (part ++ [c]) after rfl]
              have hsame : Text.segments (c == '\\') after = Text.segments false after := by
                cases hbackslash : c == '\\' with
                | false => rfl
                | true =>
                    refine Text.segments_escaped fun hhead => ?_
                    exact hpair' (beq_iff_eq.1 hbackslash) ',' hhead (.inl rfl)
              rw [Text.segments_stay (by simp [hcomma]), hsame, List.modifyHead_modifyHead]
              simp only [List.append_assoc, List.cons_append, List.nil_append, Function.comp_def]

theorem items_eq_rawItems (content : Text) : items content 0 0 = .ok content.rawItems := by
  have hitems := items_eq [] [] content
  have hsame : (content.segments false).modifyHead ([] ++ ·) = content.segments false :=
    congrFun List.modifyHead_id _
  rw [hsame] at hitems
  exact hitems

end ByteReader

end PromptDraw
