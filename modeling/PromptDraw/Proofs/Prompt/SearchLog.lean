import PromptDraw.Diagnostic
import PromptDraw.Proofs.Prompt.Cursor

/-!
The log of a search. A search meets blocks and pairs of opening braces that start no
block, each at an offset of its own, from left to right. Every block is met once, and
so is every pair outside the blocks, pairs that overlap included; a pair inside a block
is never looked at. It makes no difference whether the blocks are asked for one by one
or taken all together.
-/

namespace PromptDraw

namespace Finding

/-- Where the thing that is met starts. -/
def start : Finding → Nat
  | block o => o.start
  | braces offset => offset

def block? : Finding → Option Occurrence
  | block o => some o
  | braces _ => none

def skipped? : Finding → Option Nat
  | block _ => none
  | braces offset => some offset

theorem skipped?_eq_some_iff {f : Finding} {n : Nat} : f.skipped? = some n ↔ f = .braces n := by
  cases f with
  | block o => simp [skipped?]
  | braces offset => simp [skipped?]

end Finding

/-- Two opening braces stand behind each other in a text, the first of them at byte `n`
when the text starts at `offset`. -/
def Text.OpensAt (offset : Nat) (s : Text) (n : Nat) : Prop :=
  ∃ before after, s = before ++ '{' :: '{' :: after ∧ n = offset + before.utf8Size

def Occurrence.Covers (o : Occurrence) (n : Nat) : Prop :=
  o.start ≤ n ∧ n < o.stop

namespace Text.OpensAt

variable {offset n : Nat} {s t : Text}

theorem le (h : OpensAt offset s n) : offset ≤ n := by
  obtain ⟨before, after, -, rfl⟩ := h
  exact Nat.le_add_right _ _

theorem not_nil : ¬OpensAt offset [] n := by
  rintro ⟨before, after, h, -⟩
  simp at h

theorem cons_iff {c : Char} :
    OpensAt offset (c :: s) n ↔
      (n = offset ∧ c = '{' ∧ s.head? = some '{') ∨ OpensAt (offset + c.utf8Size) s n := by
  constructor
  · rintro ⟨before, after, heq, rfl⟩
    rcases List.cons_eq_append_iff.1 heq with ⟨rfl, hs⟩ | ⟨before', rfl, rfl⟩
    · obtain ⟨rfl, rfl⟩ := List.cons.inj hs
      exact .inl ⟨rfl, rfl, rfl⟩
    · refine .inr ⟨before', after, rfl, ?_⟩
      rw [utf8Size_cons, Nat.add_assoc]
  · rintro (⟨rfl, rfl, hhead⟩ | ⟨before, after, rfl, rfl⟩)
    · obtain ⟨after, rfl⟩ := List.head?_eq_some_iff.1 hhead
      exact ⟨[], after, rfl, rfl⟩
    · refine ⟨c :: before, after, rfl, ?_⟩
      rw [utf8Size_cons, Nat.add_assoc]

/-- Behind a part of a text only the rest of it counts. -/
theorem append_iff (h : offset + s.utf8Size ≤ n) :
    OpensAt offset (s ++ t) n ↔ OpensAt (offset + s.utf8Size) t n := by
  induction s generalizing offset with
  | nil => rfl
  | cons c s ih =>
      have hsize : offset + utf8Size (c :: s) = offset + c.utf8Size + utf8Size s := by
        rw [utf8Size_cons, Nat.add_assoc]
      have hpos := c.utf8Size_pos
      have hlater : n ≠ offset := by omega
      rw [hsize] at h ⊢
      rw [List.cons_append, cons_iff, ih h]
      simp [hlater]

end Text.OpensAt

namespace Piece

theorem opensBrace_iff {ps : List Piece} :
    opensBrace ps = true ↔ (textOf ps).head? = some '{' := by
  cases ps with
  | nil => simp [opensBrace]
  | cons p ps =>
      cases p with
      | char c => simp [opensBrace, text]
      | block b => simp [opensBrace, text, Block.text]

theorem utf8Size_char (c : Char) : utf8Size (char c) = c.utf8Size := rfl

theorem utf8Size_pos (p : Piece) : 0 < p.utf8Size := by
  cases p with
  | block b => exact Nat.add_pos_left (Char.utf8Size_pos _) _
  | char c => exact c.utf8Size_pos

/-- What a search meets at a piece that stands at `offset`. -/
def met? (offset : Nat) (p : Piece) (rest : List Piece) : Option Finding :=
  match p with
  | block b => some (.block ⟨offset, b⟩)
  | char c => if c = '{' ∧ opensBrace rest then some (.braces offset) else none

theorem findings_cons (offset : Nat) (p : Piece) (rest : List Piece) :
    findings offset (p :: rest) =
      (met? offset p rest).toList ++ findings (offset + p.utf8Size) rest := by
  cases p with
  | block b => rfl
  | char c =>
      rw [findings, met?, utf8Size_char]
      split <;> rfl

theorem start_of_met? {offset : Nat} {p : Piece} {rest : List Piece} {f : Finding}
    (h : met? offset p rest = some f) : f.start = offset := by
  cases p with
  | block b =>
      obtain rfl := Option.some.inj h
      rfl
  | char c =>
      obtain ⟨-, hf⟩ := Option.ite_none_right_eq_some.1 h
      obtain rfl := Option.some.inj hf
      rfl

theorem le_start_of_mem_findings {offset : Nat} {ps : List Piece} {f : Finding}
    (h : f ∈ findings offset ps) : offset ≤ f.start := by
  induction ps generalizing offset with
  | nil => simp [findings] at h
  | cons p ps ih =>
      rw [findings_cons, List.mem_append, Option.mem_toList] at h
      rcases h with hhere | hrest
      · exact Nat.le_of_eq (start_of_met? hhere).symm
      · exact Nat.le_trans (Nat.le_add_right _ _) (ih hrest)

theorem pairwise_findings (offset : Nat) (ps : List Piece) :
    (findings offset ps).Pairwise (fun f f' => f.start < f'.start) := by
  induction ps generalizing offset with
  | nil => exact .nil
  | cons p ps ih =>
      rw [findings_cons, List.pairwise_append]
      refine ⟨?_, ih _, ?_⟩
      · cases met? offset p ps with
        | none => exact .nil
        | some f => exact List.pairwise_singleton _ _
      · intro f hf f' hf'
        have hstart := start_of_met? (Option.mem_toList.1 hf)
        have hlater := le_start_of_mem_findings hf'
        have hpos := p.utf8Size_pos
        omega

theorem filterMap_block?_findings (offset : Nat) (ps : List Piece) :
    (findings offset ps).filterMap Finding.block? = occurrences offset ps := by
  induction ps generalizing offset with
  | nil => rfl
  | cons p ps ih =>
      cases p with
      | block b => simp only [findings, occurrences, List.filterMap_cons, Finding.block?, ih]
      | char c =>
          simp only [findings, occurrences]
          split
          · simp only [List.filterMap_cons, Finding.block?, ih]
          · exact ih _

theorem braces_mem_findings_char {offset n : Nat} {c : Char} {rest : List Piece} :
    .braces n ∈ findings offset (char c :: rest) ↔
      (n = offset ∧ c = '{' ∧ (textOf rest).head? = some '{') ∨
        .braces n ∈ findings (offset + c.utf8Size) rest := by
  rw [findings_cons, List.mem_append, Option.mem_toList, met?, Option.ite_none_right_eq_some,
    Option.some.injEq, Finding.braces.injEq, opensBrace_iff, utf8Size_char, and_comm,
    @eq_comm _ offset]

/-- A search passes over braces exactly where a pair opens outside of all blocks. -/
theorem braces_mem_findings_iff {offset n : Nat} {ps : List Piece} :
    .braces n ∈ findings offset ps ↔
      Text.OpensAt offset (textOf ps) n ∧ ∀ o ∈ occurrences offset ps, ¬o.Covers n := by
  induction ps generalizing offset with
  | nil => simp [findings, Text.OpensAt.not_nil]
  | cons p ps ih =>
      cases p with
      | block b =>
          rw [findings, List.mem_cons, or_iff_right Finding.noConfusion, ih, occurrences,
            List.forall_mem_cons, textOf_cons, text]
          -- Outside the block at the front means behind it.
          constructor
          · rintro ⟨hopens, hrest⟩
            have hbehind := hopens.le
            refine ⟨(Text.OpensAt.append_iff hbehind).2 hopens, ?_, hrest⟩
            exact fun hcovers => Nat.not_lt.2 hbehind hcovers.2
          · rintro ⟨hopens, hfront, hrest⟩
            have hbehind : offset + b.utf8Size ≤ n :=
              Nat.le_of_not_lt fun hlt => hfront ⟨hopens.le, hlt⟩
            exact ⟨(Text.OpensAt.append_iff hbehind).1 hopens, hrest⟩
      | char c =>
          have hfree : ∀ o ∈ occurrences (offset + c.utf8Size) ps, ¬o.Covers offset := by
            intro o ho hcovers
            have hstart := le_start_of_mem_occurrences ho
            have hpos := c.utf8Size_pos
            have hle := hcovers.1
            omega
          rw [braces_mem_findings_char, ih, occurrences, textOf_cons, text, List.singleton_append,
            Text.OpensAt.cons_iff]
          constructor
          · rintro (⟨rfl, hopens⟩ | ⟨hopens, hrest⟩)
            · exact ⟨.inl ⟨rfl, hopens⟩, hfree⟩
            · exact ⟨.inr hopens, hrest⟩
          · rintro ⟨hhere | hopens, hrest⟩
            · exact .inl hhere
            · exact .inr ⟨hopens, hrest⟩

end Piece

namespace Cursor

/-- What is met when a cursor is asked for its next block `calls` times. -/
def met : Nat → Cursor → List Finding
  | 0, _ => []
  | calls + 1, cursor => cursor.next.1 ++ met calls cursor.advance

/-- What a cursor has before it, to the end of the text. -/
def ahead (cursor : Cursor) : List Finding :=
  cursor.takeAll.1

theorem ahead_ofText (s : Text) : (ofText s).ahead = s.findings := rfl

/-- Seeking meets the first of what is ahead and leaves the others. -/
theorem ahead_seek (offset : Nat) (s : Text) :
    (seek offset s).1.map .braces ++ ((seek offset s).2.1.map .block).toList ++
      (seek offset s).2.2.ahead = Piece.findings offset s.pieces := by
  induction s generalizing offset with
  | nil => rfl
  | cons c s ih =>
      cases hread : Block.read? (c :: s) with
      | some result =>
          rw [Text.pieces_of_read? hread]
          simp only [seek, hread]
          rfl
      | none =>
          have hopens : Piece.opensBrace (Text.pieces s) = true ↔ s.head? = some '{' := by
            rw [Piece.opensBrace_iff, Text.textOf_pieces]
          rw [Text.pieces_cons hread, Piece.findings, ← ih (offset + c.utf8Size)]
          simp only [seek, hread, hopens]
          split <;> rfl

theorem rest_seek_of_none {offset : Nat} {s : Text} (h : (seek offset s).2.1 = none) :
    (seek offset s).2.2.rest = [] := by
  induction s generalizing offset with
  | nil => rfl
  | cons c s ih =>
      cases hread : Block.read? (c :: s) with
      | some result =>
          simp only [seek, hread] at h
          cases h
      | none =>
          simp only [seek, hread] at h ⊢
          exact ih h

theorem next_append_ahead (cursor : Cursor) :
    cursor.next.1 ++ cursor.advance.ahead = cursor.ahead :=
  ahead_seek cursor.offset cursor.rest

/-- A cursor without a block before it has looked at everything when it says so. -/
theorem ahead_advance_of_remaining {cursor : Cursor} (h : cursor.remaining = []) :
    cursor.advance.ahead = [] := by
  have hfound : cursor.found? = none := by rw [found?_eq, h, List.head?_nil]
  have hrest : cursor.advance.rest = [] := rest_seek_of_none hfound
  rw [ahead, takeAll, hrest, Text.pieces_nil]
  rfl

/-- One call more than there are blocks meets all that is ahead, and further calls meet
nothing. -/
theorem met_eq_ahead {calls : Nat} {cursor : Cursor} (h : cursor.remaining.length ≤ calls) :
    met (calls + 1) cursor = cursor.ahead := by
  induction calls generalizing cursor with
  | zero =>
      have hnone := ahead_advance_of_remaining (List.eq_nil_of_length_eq_zero (Nat.le_zero.1 h))
      rw [← next_append_ahead, hnone]
      rfl
  | succ calls ih =>
      have htail : cursor.advance.remaining.length ≤ calls := by
        rw [remaining_advance, List.length_tail]
        omega
      rw [met, ih htail, next_append_ahead]

end Cursor

/-- Where the thing starts that an entry of a search is about. -/
def Diagnostic.start? : Diagnostic → Option Nat
  | blockFound o => some o.start
  | bracesSkipped offset => some offset
  | _ => none

namespace Finding

theorem start?_diagnostic (f : Finding) : f.diagnostic.start? = some f.start := by
  cases f <;> rfl

theorem filter_trace (fs : List Finding) :
    (fs.map diagnostic).filter (·.level = .trace) = (fs.filterMap block?).map .blockFound := by
  induction fs with
  | nil => rfl
  | cons f fs ih =>
      cases f with
      | block o => exact congrArg (Diagnostic.blockFound o :: ·) ih
      | braces offset => exact ih

theorem filter_debug (fs : List Finding) :
    (fs.map diagnostic).filter (·.level = .debug) = (fs.filterMap skipped?).map .bracesSkipped := by
  induction fs with
  | nil => rfl
  | cons f fs ih =>
      cases f with
      | block o => exact ih
      | braces offset => exact congrArg (Diagnostic.bracesSkipped offset :: ·) ih

theorem start_of_skipped? {f : Finding} {n : Nat} (h : f.skipped? = some n) : f.start = n := by
  rw [skipped?_eq_some_iff.1 h, start]

end Finding

namespace Text

/-- The offsets of the pairs of braces that a search passes over. -/
def skippedBraces (s : Text) : List Nat :=
  s.findings.filterMap Finding.skipped?

theorem pairwise_skippedBraces (s : Text) : s.skippedBraces.Pairwise (· < ·) := by
  refine List.Pairwise.filterMap Finding.skipped? ?_ (Piece.pairwise_findings 0 s.pieces)
  intro f f' hlt n hn n' hn'
  rwa [← Finding.start_of_skipped? hn, ← Finding.start_of_skipped? hn']

theorem mem_skippedBraces_iff {s : Text} {n : Nat} :
    n ∈ s.skippedBraces ↔ OpensAt 0 s n ∧ ∀ o ∈ s.occurrences, ¬o.Covers n := by
  have hfindings : n ∈ s.skippedBraces ↔ .braces n ∈ s.findings := by
    simp [skippedBraces, Finding.skipped?_eq_some_iff]
  rw [hfindings, findings, Piece.braces_mem_findings_iff, textOf_pieces]
  rfl

/-- Resolving a prompt adds nothing to what searching it says about the search. -/
theorem filter_resolutionLog (s : Text) :
    s.resolutionLog.filter (·.origin = "gacha::notation::scanner") = s.searchLog := by
  unfold resolutionLog searchLog
  induction s.findings with
  | nil => rfl
  | cons f fs ih =>
      rw [List.flatMap_cons, List.filter_append, ih, List.map_cons]
      cases f with
      | block o =>
          simp only
          split <;> rfl
      | braces offset => rfl

/-- The log of a search accounts for every pair of opening braces. A search to the end,
block by block and however often it is asked again, records the same as one in a single
go and as a resolution does. The entries start at increasing offsets. Each block has
one entry at trace level, at its start. The entries at debug level are one for each
offset at which a pair of braces opens in the text but in no block. -/
theorem search_log_accounts_for_braces (s : Text) :
    (∀ more, ((Cursor.ofText s).met (s.occurrences.length + 1 + more)).map Finding.diagnostic =
      s.searchLog) ∧
    s.resolutionLog.filter (·.origin = "gacha::notation::scanner") = s.searchLog ∧
    (∃ starts : List Nat, s.searchLog.map Diagnostic.start? = starts.map some ∧
      starts.Pairwise (· < ·)) ∧
    s.searchLog.filter (·.level = .trace) = s.occurrences.map .blockFound ∧
    ∃ skipped : List Nat,
      s.searchLog.filter (·.level = .debug) = skipped.map .bracesSkipped ∧
      (s.searchLog.filter (·.level = .debug)).map Diagnostic.message =
        skipped.map (fun n => "no token at offset " ++ toString n ++ ", leaving text as-is") ∧
      skipped.Pairwise (· < ·) ∧
      ∀ n, n ∈ skipped ↔
        (∃ before after, s = before ++ '{' :: '{' :: after ∧ n = before.utf8Size) ∧
          ∀ o ∈ s.occurrences, ¬(o.start ≤ n ∧ n < o.stop) := by
  have hdebug : s.searchLog.filter (·.level = .debug) = s.skippedBraces.map .bracesSkipped :=
    Finding.filter_debug s.findings
  refine ⟨?_, filter_resolutionLog s, ⟨s.findings.map Finding.start, ?_, ?_⟩, ?_,
    s.skippedBraces, hdebug, ?_, pairwise_skippedBraces s, ?_⟩
  · intro more
    have hmore : (Cursor.ofText s).remaining.length ≤ s.occurrences.length + more :=
      Nat.le_add_right _ _
    rw [Nat.add_right_comm, Cursor.met_eq_ahead hmore, Cursor.ahead_ofText, searchLog]
  · simp only [searchLog, List.map_map, Function.comp_def, Finding.start?_diagnostic]
  · exact List.pairwise_map.2 (Piece.pairwise_findings 0 s.pieces)
  · rw [searchLog, Finding.filter_trace, findings, Piece.filterMap_block?_findings, occurrences]
  · rw [hdebug, List.map_map]
    rfl
  · intro n
    rw [mem_skippedBraces_iff, OpensAt]
    simp only [Nat.zero_add, Occurrence.Covers]

/-- Of four braces in a row the third starts the block; the others are passed over one
by one. -/
example :
    (Cursor.ofText ['{', '{', '{', '{', 'a', '}', '}', '(', '1', ')']).met 2 =
      [.braces 0, .braces 1, .block ⟨2, ⟨['a'], ['1'], none⟩⟩] := by decide

end Text

end PromptDraw
