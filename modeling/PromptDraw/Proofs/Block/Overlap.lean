import Mathlib.Data.List.Chain
import PromptDraw.Proofs.Block.Reading

/-!
What a text that starts before a block can have to do with it. Nothing before the
body of a separator can reach over two opening braces, so a block that starts
earlier either ends before them or reads over them inside its separator. There it
sees a block only through what it does to the search for the closing quote, and
two blocks that do the same to that search cannot be told apart from before.
-/

namespace PromptDraw

namespace Text

/-- No pair of opening braces is in the text. -/
def PairFree (s : Text) : Prop :=
  s.IsChain fun c d => ¬(c = '{' ∧ d = '{')

theorem pairFree_append {s t : Text} (hs : PairFree s) (ht : PairFree t)
    (hseam : ¬(s.getLast? = some '{' ∧ t.head? = some '{')) : PairFree (s ++ t) := by
  refine List.isChain_append.2 ⟨hs, ht, ?_⟩
  rintro c hc d hd ⟨rfl, rfl⟩
  exact hseam ⟨hc, hd⟩

theorem pairFree_of_ne {s : Text} (h : ∀ c ∈ s, c ≠ '{') : PairFree s := by
  induction s with
  | nil => exact .nil
  | cons c s ih =>
      have hrest := ih fun d hd => h d (List.mem_cons_of_mem c hd)
      refine List.isChain_cons.2 ⟨?_, hrest⟩
      rintro d - ⟨hc, -⟩
      exact h c List.mem_cons_self hc

theorem PairFree.ne_append {s : Text} (h : PairFree s) (u v : Text) :
    s ≠ u ++ '{' :: '{' :: v := by
  rintro rfl
  have hpair := (List.isChain_append.1 h).2.1
  exact (List.isChain_cons_cons.1 hpair).1 ⟨rfl, rfl⟩

/-- In a content only a brace behind a backslash is allowed, and a brace is no
backslash. -/
theorem IsContent.pairFree {escaped : Bool} {s : Text} (h : IsContent escaped s) :
    PairFree s := by
  induction h with
  | nil => exact .nil
  | @cons escaped c s _ hrest ih =>
      refine List.isChain_cons.2 ⟨?_, ih⟩
      rintro d hd ⟨rfl, rfl⟩
      cases hrest with
      | nil => cases hd
      | cons hbrace _ =>
          cases hd
          exact absurd (hbrace (.inl rfl)) (by decide)

theorem IsContent.head?_ne {s : Text} (h : IsContent false s) : s.head? ≠ some '{' := by
  intro hhead
  cases h with
  | nil => cases hhead
  | cons hbrace _ =>
      cases hhead
      exact absurd (hbrace (.inl rfl)) (by decide)

/-- Behind its first brace a block holds no pair of braces before the body of its
separator. -/
theorem IsContent.pairFree_cons {content rest : Text} (hcontent : IsContent false content)
    (hrest : ∀ c ∈ rest, c ≠ '{') : PairFree ('{' :: (content ++ rest)) := by
  have hfront : PairFree ('{' :: content) := by
    refine List.isChain_cons.2 ⟨?_, hcontent.pairFree⟩
    rintro c hc ⟨-, rfl⟩
    exact hcontent.head?_ne hc
  refine pairFree_append hfront (pairFree_of_ne hrest) ?_
  rintro ⟨-, hhead⟩
  exact hrest '{' (List.mem_of_mem_head? hhead) rfl

/-- Where two braces stand behind a text without such a pair, the text ends before
them. -/
theorem PairFree.exists_inner {t y gap w : Text} (hfree : PairFree t)
    (hlast : t.getLast? ≠ some '{') (h : t ++ y = gap ++ '{' :: '{' :: w) :
    ∃ inner, gap = t ++ inner ∧ y = inner ++ '{' :: '{' :: w := by
  rcases List.append_eq_append_iff.1 h with hinside | ⟨overlap, ht, hw⟩
  · exact hinside
  · cases overlap with
    | nil =>
        rw [List.append_nil] at ht
        exact ⟨[], by rw [List.append_nil, ht], hw.symm⟩
    | cons c overlap =>
        obtain ⟨rfl, hrest⟩ := List.cons.inj hw
        cases overlap with
        | nil => exact absurd (by rw [ht, List.getLast?_concat]) hlast
        | cons d overlap =>
            obtain ⟨rfl, -⟩ := List.cons.inj hrest
            exact absurd ht (hfree.ne_append gap overlap)

/-- The part of a block before the body of its separator cannot reach over two
braces that stand behind its first character. -/
theorem IsContent.exists_inner {content rest y gap w : Text} (hcontent : IsContent false content)
    (hrest : ∀ c ∈ rest, c ≠ '{') (hne : rest ≠ []) (hgap : gap ≠ [])
    (h : '{' :: '{' :: (content ++ rest) ++ y = gap ++ '{' :: '{' :: w) :
    ∃ inner, gap = '{' :: '{' :: (content ++ rest) ++ inner ∧ y = inner ++ '{' :: '{' :: w := by
  obtain ⟨c, gap, rfl⟩ := List.exists_cons_of_ne_nil hgap
  have hlast : ('{' :: (content ++ rest)).getLast? ≠ some '{' := by
    intro hbrace
    rw [← List.cons_append, List.getLast?_append_of_ne_nil _ hne] at hbrace
    exact hrest '{' (List.mem_of_getLast? hbrace) rfl
  simp only [List.cons_append, List.cons.injEq] at h
  obtain ⟨rfl, htail⟩ := h
  have hfree := hcontent.pairFree_cons hrest
  obtain ⟨inner, hinner, hy⟩ := hfree.exists_inner hlast htail
  exact ⟨inner, by rw [hinner]; rfl, hy⟩

end Text

namespace Clause

/-- Where a search for the end of a separator stands. -/
inductive Scan where
  /-- Between two units of the body. -/
  | between
  /-- Behind a backslash, which takes the next character. -/
  | escaped
  /-- Behind a quote, which a parenthesis would close. -/
  | quoted
  /-- Behind the closing parenthesis. -/
  | closed
deriving DecidableEq

namespace Scan

def unit (quote c : Char) : Scan :=
  if c = '\\' then escaped else if c = quote then quoted else between

def step (quote : Char) : Scan → Char → Scan
  | between, c => unit quote c
  | escaped, _ => between
  | quoted, c => if c = ')' then closed else unit quote c
  | closed, _ => closed

/-- Where the search stands behind a text, if it stands at `scan` before it. -/
def run (quote : Char) (scan : Scan) (s : Text) : Scan :=
  s.foldl (step quote) scan

@[simp] theorem run_nil (quote : Char) (scan : Scan) : run quote scan [] = scan := rfl

@[simp] theorem run_cons (quote : Char) (scan : Scan) (c : Char) (s : Text) :
    run quote scan (c :: s) = run quote (step quote scan c) s := rfl

@[simp] theorem run_append (quote : Char) (scan : Scan) (s t : Text) :
    run quote scan (s ++ t) = run quote (run quote scan s) t :=
  List.foldl_append

theorem run_closed (quote : Char) (s : Text) : run quote closed s = closed := by
  induction s with
  | nil => rfl
  | cons c s ih => exact ih

theorem unit_ne_closed (quote c : Char) : unit quote c ≠ closed := by
  unfold unit
  split
  · exact Scan.noConfusion
  split
  · exact Scan.noConfusion
  · exact Scan.noConfusion

/-- A character that means nothing inside a separator leads between two units,
wherever the search stands. -/
theorem step_of_plain {quote c : Char} (hbackslash : c ≠ '\\') (hquote : c ≠ quote)
    (hparenthesis : c ≠ ')') {scan : Scan} (hopen : scan ≠ closed) :
    step quote scan c = between := by
  have hunit : unit quote c = between := by simp only [unit, if_neg hbackslash, if_neg hquote]
  cases scan with
  | between => exact hunit
  | escaped => rfl
  | quoted => simp only [step, if_neg hparenthesis, hunit]
  | closed => exact absurd rfl hopen

theorem run_of_plain {quote : Char} {s : Text}
    (hplain : ∀ c ∈ s, c ≠ '\\' ∧ c ≠ quote ∧ c ≠ ')') (hne : s ≠ []) {scan : Scan}
    (hopen : scan ≠ closed) : run quote scan s = between := by
  induction s generalizing scan with
  | nil => exact absurd rfl hne
  | cons c s ih =>
      obtain ⟨hbackslash, hquote, hparenthesis⟩ := hplain c List.mem_cons_self
      rw [run_cons, step_of_plain hbackslash hquote hparenthesis hopen]
      by_cases hs : s = []
      · subst hs
        rfl
      · exact ih (fun d hd => hplain d (List.mem_cons_of_mem c hd)) hs Scan.noConfusion

/-- A separator can be read exactly where the search for its end closes. -/
theorem isSome_readBody?_iff (quote : Char) (s : Text) :
    (readBody? quote s).isSome ↔ run quote between s = closed := by
  fun_induction readBody? quote s with
  | case1 d s ih =>
      have hrun : run quote between ('\\' :: d :: s) = run quote between s := by
        simp [step, unit]
      rw [Option.isSome_map, ih, hrun]
  | case2 c d s hc hclose =>
      obtain ⟨rfl, rfl⟩ := hclose
      have hrun : run c between (c :: ')' :: s) = closed := by
        simp [step, unit, hc, run_closed]
      rw [hrun]
      exact iff_of_true rfl rfl
  | case3 c d s hc hclose ih =>
      have hrun : run quote between (c :: d :: s) = run quote between (d :: s) := by
        by_cases hquote : c = quote
        · subst hquote
          have hd : d ≠ ')' := fun hd => hclose ⟨rfl, hd⟩
          simp [step, unit, hc, hd]
        · simp [step, unit, hc, hquote]
      rw [Option.isSome_map, ih, hrun]
  | case4 s hshort =>
      cases s with
      | nil => simp
      | cons c s =>
          cases s with
          | nil => simpa [step] using unit_ne_closed quote c
          | cons d s => exact absurd rfl (hshort c d s)

end Scan

/-- Two texts that do the same to every search for the end of a separator. -/
def SameScan (s t : Text) : Prop :=
  ∀ (quote : Quote) (scan : Scan), scan.run quote.char s = scan.run quote.char t

/-- Characters that mean nothing inside a separator can be exchanged for others. -/
theorem sameScan_of_plain (before after : Text) {s t : Text} (hs : s ≠ []) (ht : t ≠ [])
    (hplain : ∀ c ∈ s ++ t, c ≠ '\\' ∧ c ≠ '\'' ∧ c ≠ '"' ∧ c ≠ ')') :
    SameScan (before ++ s ++ after) (before ++ t ++ after) := by
  intro quote scan
  have hquote : ∀ c ∈ s ++ t, c ≠ '\\' ∧ c ≠ quote.char ∧ c ≠ ')' := by
    intro c hc
    obtain ⟨hbackslash, hsingle, hdouble, hparenthesis⟩ := hplain c hc
    refine ⟨hbackslash, ?_, hparenthesis⟩
    cases quote
    · exact hsingle
    · exact hdouble
  simp only [Scan.run_append]
  by_cases hopen : scan.run quote.char before = .closed
  · simp only [hopen, Scan.run_closed]
  · rw [Scan.run_of_plain (fun c hc => hquote c (List.mem_append_left t hc)) hs hopen,
      Scan.run_of_plain (fun c hc => hquote c (List.mem_append_right s hc)) ht hopen]

end Clause

namespace Quote

theorem char_ne_brace (q : Quote) : q.char ≠ '{' := by
  cases q <;> decide

end Quote

namespace Block

/-- All of a block before the body of its separator. -/
def opening (b : Block) (clause : Clause) : Text :=
  '{' :: '{' :: (b.content ++
    (['}', '}', '('] ++ b.digits ++ [','] ++ clause.gap ++ [clause.quote.char]))

theorem text_of_clause {b : Block} {clause : Clause} (h : b.clause = some clause) :
    b.text = b.opening clause ++ (clause.body ++ [clause.quote.char, ')']) := by
  simp [text, tailText, Clause.text, opening, h]

theorem text_of_no_clause {b : Block} (h : b.clause = none) :
    b.text = '{' :: '{' :: (b.content ++ (['}', '}', '('] ++ b.digits ++ [')'])) := by
  simp [text, tailText, h]

theorem WellFormed.count_ne_brace {b : Block} (h : b.WellFormed) {c : Char}
    (hc : c ∈ ['}', '}', '('] ++ b.digits) : c ≠ '{' := by
  rintro rfl
  rcases List.mem_append.1 hc with hc | hc
  · exact absurd hc (by decide)
  · exact absurd (h.digits _ hc) (by decide)

/-- A block that starts before two braces ends before them, or has them behind the
opening quote of its separator. -/
theorem Starts.before_or_inside {b : Block} {gap w rest : Text}
    (h : b.Starts (gap ++ '{' :: '{' :: w) rest) (hgap : gap ≠ []) :
    (∃ inner, gap = b.text ++ inner) ∨
      ∃ clause inner, b.clause = some clause ∧ gap = b.opening clause ++ inner ∧
        clause.body ++ clause.quote.char :: ')' :: rest = inner ++ '{' :: '{' :: w := by
  obtain ⟨hb, hs⟩ := h
  cases hclause : b.clause with
  | none =>
      left
      have hrest : ∀ c ∈ ['}', '}', '('] ++ b.digits ++ [')'], c ≠ '{' := by
        intro c hc
        rcases List.mem_append.1 hc with hc | hc
        · exact hb.count_ne_brace hc
        · rw [List.mem_singleton.1 hc]
          decide
      rw [text_of_no_clause hclause] at hs ⊢
      obtain ⟨inner, hinner, -⟩ := hb.content.exists_inner hrest (by simp) hgap hs.symm
      exact ⟨inner, hinner⟩
  | some clause =>
      right
      have hrest : ∀ c ∈ ['}', '}', '('] ++ b.digits ++ [','] ++ clause.gap ++
          [clause.quote.char], c ≠ '{' := by
        intro c hc
        simp only [List.mem_append, List.mem_singleton] at hc
        rcases hc with ((hc | rfl) | hc) | rfl
        · exact hb.count_ne_brace (List.mem_append.2 hc)
        · decide
        · rintro rfl
          exact absurd ((hb.clause clause hclause).gap _ hc) (by decide)
        · exact clause.quote.char_ne_brace
      rw [text_of_clause hclause, List.append_assoc] at hs
      obtain ⟨inner, hinner, hbody⟩ := hb.content.exists_inner hrest (by simp) hgap hs.symm
      exact ⟨clause, inner, rfl, hinner, by simpa using hbody⟩

/-- If the search for the end of the separator closes, there is a block. -/
theorem exists_starts_of_closed {b : Block} {clause : Clause} (hb : b.WellFormed)
    (hclause : b.clause = some clause) {s : Text}
    (h : Clause.Scan.run clause.quote.char .between s = .closed) :
    ∃ b' rest, Starts b' (b.opening clause ++ s) rest := by
  obtain ⟨⟨body, rest⟩, hread⟩ :=
    Option.isSome_iff_exists.1 ((Clause.Scan.isSome_readBody?_iff _ _).2 h)
  have hclause' : (⟨clause.gap, clause.quote, body⟩ : Clause).WellFormed :=
    ⟨(hb.clause clause hclause).gap, Clause.isBody_of_readBody? hread⟩
  refine ⟨{ b with clause := some ⟨clause.gap, clause.quote, body⟩ }, rest, ?_, ?_⟩
  · refine ⟨hb.content, hb.digits_ne_nil, hb.digits, ?_⟩
    rintro _ ⟨⟩
    exact hclause'
  · rw [Clause.eq_append_of_readBody? hread, text_of_clause rfl]
    simp [opening]

/-- A place before a block at which no block starts is still none when the block
gives way to one that every search for the end of a separator runs through alike. -/
theorem read?_eq_none_of_sameScan {b b' : Block} (hscan : Clause.SameScan b.text b'.text)
    {gap after : Text} (hgap : gap ≠ []) (h : read? (gap ++ (b.text ++ after)) = none) :
    read? (gap ++ (b'.text ++ after)) = none := by
  have hnone : ∀ b₀ rest, ¬Starts b₀ (gap ++ (b.text ++ after)) rest := by
    intro b₀ rest hstarts
    rw [read?_eq_some_iff.2 hstarts] at h
    cases h
  cases hread : read? (gap ++ (b'.text ++ after)) with
  | none => rfl
  | some result =>
      obtain ⟨b₀, rest⟩ := result
      have hstarts := read?_eq_some_iff.1 hread
      have hopens : b'.text ++ after =
          '{' :: '{' :: (b'.content ++ tailText b'.digits b'.clause ++ after) := by
        rw [text_eq_cons]
        rfl
      rw [hopens] at hstarts
      rcases hstarts.before_or_inside hgap with
        ⟨inner, hinner⟩ | ⟨clause, inner, hclause, hinner, hbody⟩
      · -- It would have started before already.
        have hbefore : Starts b₀ (gap ++ (b.text ++ after)) (inner ++ (b.text ++ after)) :=
          ⟨hstarts.1, by rw [hinner, List.append_assoc]⟩
        exact absurd hbefore (hnone _ _)
      · -- Its separator would have ended somewhere before already.
        rw [← hopens] at hbody
        have hclosed : Clause.Scan.run clause.quote.char .between (inner ++ (b'.text ++ after)) =
            .closed := by
          rw [← Clause.Scan.isSome_readBody?_iff, ← hbody,
            Clause.readBody?_append (hstarts.1.clause clause hclause).body]
          rfl
        have hclosed' : Clause.Scan.run clause.quote.char .between (inner ++ (b.text ++ after)) =
            .closed := by
          rw [Clause.Scan.run_append, Clause.Scan.run_append] at hclosed ⊢
          rw [hscan, hclosed]
        obtain ⟨b₁, rest', hstarts'⟩ := exists_starts_of_closed hstarts.1 hclause hclosed'
        rw [← List.append_assoc, ← hinner] at hstarts'
        exact absurd hstarts' (hnone _ _)

end Block

end PromptDraw
