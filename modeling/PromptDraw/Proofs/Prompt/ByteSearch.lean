import PromptDraw.Prompt.Findings
import PromptDraw.Proofs.Block.ByteContent
import PromptDraw.Proofs.Prompt.Cursor

/-!
A prompt searched byte by byte. The search looks for two braces behind its offset, tries
to read a block there and goes on behind the block, or one byte behind the place where
it failed. It finds the blocks of the prompt and never makes a bad cut.
-/

namespace PromptDraw

namespace ByteReader

open Text (BadCut)

/-- The offset of the first two opening braces. -/
def findBraces? : Text → Option Nat
  | c :: d :: s =>
    if c = '{' ∧ d = '{' then some 0 else (findBraces? (d :: s)).map (c.utf8Size + ·)
  | _ => none

theorem exists_of_findBraces? {s : Text} {offset : Nat} (h : findBraces? s = some offset) :
    ∃ gap rest, s = gap ++ '{' :: '{' :: rest ∧ offset = gap.utf8Size := by
  fun_induction findBraces? s generalizing offset with
  | case1 c d s hopen =>
      obtain ⟨rfl, rfl⟩ := hopen
      exact ⟨[], s, rfl, (Option.some.inj h).symm⟩
  | case2 c d s hopen ih =>
      obtain ⟨n, hn, rfl⟩ := Option.map_eq_some_iff.1 h
      obtain ⟨gap, rest, hs, rfl⟩ := ih hn
      exact ⟨c :: gap, rest, by rw [hs, List.cons_append], rfl⟩
  | case3 => cases h

/-- Finds the next block at byte `pos` or behind it, and gives the offset from which to
search on. -/
def next (s : Text) (pos : Nat) : Except BadCut (Option Found × Nat) :=
  match _hcut : Text.cut s pos s.utf8Size with
  | .error bad => .error bad
  | .ok rest =>
    match _hfind : findBraces? rest with
    | none => .ok (none, s.utf8Size)
    | some offset =>
      match block s (pos + offset) (pos + offset + 2) with
      | .error bad => .error bad
      | .ok (some found) => .ok (some found, found.stop)
      | .ok none => next s (pos + offset + 1)
termination_by s.utf8Size - pos
decreasing_by
  obtain ⟨before, after, hs, rfl, hstop⟩ := Text.cut_eq_ok_iff.1 _hcut
  obtain ⟨gap, inner, rfl, rfl⟩ := exists_of_findBraces? _hfind
  have hpos : 0 < Text.utf8Size ('{' :: '{' :: inner) := Nat.add_pos_left (by decide) _
  rw [hstop, Text.utf8Size_append, Text.utf8Size_append]
  omega

/-- What is found when the search is asked for the next block `calls` times, from byte
`pos` on. -/
def search (s : Text) : (calls pos : Nat) → Except BadCut (List Found)
  | 0, _ => .ok []
  | calls + 1, pos => do
    let (found, pos) ← next s pos
    return found.toList ++ (← search s calls pos)

section Steps

variable {s rest : Text} {pos : Nat} (hcut : Text.cut s pos s.utf8Size = .ok rest)
include hcut

theorem next_of_none (hfind : findBraces? rest = none) :
    next s pos = .ok (none, s.utf8Size) := by
  rw [next]
  split
  · rename_i hbad
    rw [hcut] at hbad
    cases hbad
  · rename_i rest' hcut'
    obtain rfl := Except.ok.inj (hcut.symm.trans hcut')
    split
    · rfl
    · rename_i hfind'
      rw [hfind] at hfind'
      cases hfind'

theorem next_of_some {offset : Nat} (hfind : findBraces? rest = some offset) :
    next s pos =
      (block s (pos + offset) (pos + offset + 2) >>= fun
        | some found => .ok (some found, found.stop)
        | none => next s (pos + offset + 1)) := by
  rw [next]
  split
  · rename_i hbad
    rw [hcut] at hbad
    cases hbad
  · rename_i rest' hcut'
    obtain rfl := Except.ok.inj (hcut.symm.trans hcut')
    split
    · rename_i hfind'
      rw [hfind] at hfind'
      cases hfind'
    · rename_i offset' hfind'
      obtain rfl := Option.some.inj (hfind.symm.trans hfind')
      cases block s (pos + offset) (pos + offset + 2) with
      | error bad => rfl
      | ok found => cases found <;> rfl

end Steps

theorem seek_cons {c : Char} {s : Text} (h : Block.read? (c :: s) = none) (offset : Nat) :
    (Cursor.seek offset (c :: s)).2 = (Cursor.seek (offset + c.utf8Size) s).2 := by
  simp only [Cursor.seek, h]

theorem read?_of_ne {c d : Char} {s : Text} (h : ¬(c = '{' ∧ d = '{')) :
    Block.read? (c :: d :: s) = none := by
  rw [Block.read?, if_neg h]

theorem seek_of_findBraces?_none {s : Text} (h : findBraces? s = none) (offset : Nat) :
    (Cursor.seek offset s).2 = (none, ⟨offset + s.utf8Size, []⟩) := by
  fun_induction findBraces? s generalizing offset with
  | case1 => cases h
  | case2 c d s hopen ih =>
      rw [seek_cons (read?_of_ne hopen), ih (Option.map_eq_none_iff.1 h), Text.utf8Size_cons c,
        Nat.add_assoc]
  | case3 s hshort =>
      cases s with
      | nil => rfl
      | cons c s =>
          cases s with
          | nil => rfl
          | cons d s => exact absurd rfl (hshort c d s)

/-- No block starts before two braces open. -/
theorem seek_gap {gap rest : Text}
    (h : findBraces? (gap ++ '{' :: '{' :: rest) = some gap.utf8Size) (offset : Nat) :
    (Cursor.seek offset (gap ++ '{' :: '{' :: rest)).2 =
      (Cursor.seek (offset + gap.utf8Size) ('{' :: '{' :: rest)).2 := by
  induction gap generalizing offset with
  | nil => rfl
  | cons c gap ih =>
      obtain ⟨d, s, hs⟩ : ∃ d s, gap ++ '{' :: '{' :: rest = d :: s :=
        List.exists_cons_of_ne_nil (by simp)
      rw [List.cons_append, hs] at h ⊢
      rw [findBraces?] at h
      split at h
      · have hpos := c.utf8Size_pos
        have hzero := Option.some.inj h
        rw [Text.utf8Size_cons] at hzero
        omega
      · rename_i hopen
        obtain ⟨n, hn, hsize⟩ := Option.map_eq_some_iff.1 h
        obtain rfl := Nat.add_left_cancel hsize
        rw [seek_cons (read?_of_ne hopen), ← hs, ih (hs ▸ hn), Text.utf8Size_cons, Nat.add_assoc]

theorem next_eq (before after : Text) :
    next (before ++ after) before.utf8Size =
      .ok ((Cursor.seek before.utf8Size after).2.1.map Found.of,
        (Cursor.seek before.utf8Size after).2.2.offset) := by
  induction hn : after.length using Nat.strongRecOn generalizing before after with
  | ind n ih =>
      have hcut := Text.cut_rest before after
      cases hfind : findBraces? after with
      | none =>
          rw [next_of_none hcut hfind, seek_of_findBraces?_none hfind, Text.utf8Size_append]
          rfl
      | some offset =>
          obtain ⟨gap, rest, rfl, rfl⟩ := exists_of_findBraces? hfind
          rw [next_of_some hcut hfind, seek_gap hfind]
          have hblock := block_eq_read? (before ++ gap) rest
          rw [List.append_assoc, Text.utf8Size_append] at hblock
          rw [hblock]
          cases hread : Block.read? ('{' :: '{' :: rest) with
          | some result => simp only [Cursor.seek, hread]; rfl
          | none =>
              have hlt : ('{' :: rest).length < n := by
                rw [← hn, List.length_append]
                exact Nat.lt_of_lt_of_le (Nat.lt_succ_self _) (Nat.le_add_left _ _)
              have hrest := ih _ hlt (before ++ gap ++ ['{']) ('{' :: rest) rfl
              have hs : before ++ (gap ++ '{' :: '{' :: rest) =
                  before ++ gap ++ ['{'] ++ '{' :: rest := by simp
              rw [Text.utf8Size_append, Text.utf8Size_append] at hrest
              rw [seek_cons hread, hs]
              exact hrest

/-- Being asked for blocks, the search gives those of the prompt in order, and nothing
more when there are no more. -/
theorem search_eq {s : Text} {cursor : Cursor} (h : cursor.StandsIn s) (calls : Nat) :
    search s calls cursor.offset = .ok ((cursor.remaining.take calls).map Found.of) := by
  induction calls generalizing cursor with
  | zero => rfl
  | succ calls ih =>
      have hnext : next s cursor.offset =
          .ok (cursor.found?.map Found.of, cursor.advance.offset) := by
        obtain ⟨before, hs, hoffset⟩ := h
        rw [hs, hoffset, next_eq, ← hoffset]
        rfl
      rw [search, hnext, Cursor.found?_eq]
      simp only [bind, Except.bind, ih h.advance, Cursor.remaining_advance]
      cases cursor.remaining with
      | nil => rw [List.tail_nil, List.take_nil, List.take_nil]; rfl
      | cons o rest => rfl

end ByteReader

namespace Text

/-- Searching a prompt byte by byte never cuts through a character or out of bounds. A cut
succeeds just between two offsets in order that both stand between characters of the
text or at its ends. However often the search of a prompt is asked for the next block,
all its cuts succeed, and what it finds are the blocks of the prompt; so do the cuts that
divide a content into items. The spans of blocks and of reports can be cut out as well. -/
theorem search_cuts_no_character (s : Text) :
    (∀ source start stop, (∃ part, cut source start stop = .ok part) ↔
      source.IsRange start stop) ∧
    (∀ calls, ByteReader.search s calls 0 =
      .ok ((s.occurrences.take calls).map ByteReader.Found.of)) ∧
    (∀ content, ByteReader.items content 0 0 = .ok content.rawItems) ∧
    (∀ o ∈ s.occurrences, s.cut o.start o.stop = .ok o.block.text) ∧
    ∀ r ∈ s.reports, s.cut r.start r.stop = .ok r.text := by
  have hspan : ∀ o ∈ s.occurrences, s.cut o.start o.stop = .ok o.block.text := by
    intro o ho
    obtain ⟨before, after, hs, -, hstart, hstop⟩ := exists_of_mem_occurrences ho
    exact cut_eq_ok_iff.2 ⟨before, after, hs, hstart, hstop⟩
  refine ⟨fun source start stop => exists_cut_iff, ?_, ByteReader.items_eq_rawItems, hspan, ?_⟩
  · intro calls
    exact ByteReader.search_eq (Cursor.standsIn_ofText s) calls
  · intro r hr
    obtain ⟨o, ho, rfl⟩ := List.mem_map.1 hr
    exact hspan o ho

end Text

end PromptDraw
