import PromptDraw.Prompt.Findings
import PromptDraw.Proofs.Prompt.Concatenation
import PromptDraw.Proofs.Prompt.RoundTrip

/-!
Taking blocks one by one. A cursor knows nothing but the text that is left to it, so
that text alone decides what it gives next, and what any copy of it gives, however
the two are used in between. A block in turn is read from its own characters and not
from what follows them. So a prompt is resolved block by block, each block being a
prompt of its own.
-/

namespace PromptDraw

variable {σ : Type}

namespace Cursor

/-- The block that a cursor gives when it is asked for the next one. -/
def found? (cursor : Cursor) : Option Occurrence :=
  cursor.next.2.1

def advance (cursor : Cursor) : Cursor :=
  cursor.next.2.2

/-- The blocks that a cursor has before it. -/
def remaining (cursor : Cursor) : List Occurrence :=
  cursor.takeAll.2.1

/-- A cursor in a prompt: its offset counts the bytes before the text that is left. -/
def StandsIn (s : Text) (cursor : Cursor) : Prop :=
  ∃ before, s = before ++ cursor.rest ∧ cursor.offset = before.utf8Size

theorem remaining_ofText (s : Text) : (ofText s).remaining = s.occurrences := rfl

theorem standsIn_ofText (s : Text) : StandsIn s (ofText s) :=
  ⟨[], rfl, rfl⟩

/-- Seeking takes the first of the blocks ahead and leaves the others. -/
theorem remaining_seek (offset : Nat) (s : Text) :
    (seek offset s).2.1 = (Piece.occurrences offset s.pieces).head? ∧
      (seek offset s).2.2.remaining = (Piece.occurrences offset s.pieces).tail := by
  induction s generalizing offset with
  | nil =>
      rw [Text.pieces_nil]
      exact ⟨rfl, by rw [seek, remaining, takeAll, Text.pieces_nil]; rfl⟩
  | cons c s ih =>
      cases hread : Block.read? (c :: s) with
      | some result =>
          rw [Text.pieces_of_read? hread]
          simp only [seek, hread]
          exact ⟨rfl, rfl⟩
      | none =>
          rw [Text.pieces_cons hread]
          simp only [seek, hread]
          exact ih (offset + c.utf8Size)

/-- The cursor that seeking leaves stands behind the block that was found. -/
theorem seek_stands (offset : Nat) (s : Text) :
    ∃ before, s = before ++ (seek offset s).2.2.rest ∧
      (seek offset s).2.2.offset = offset + before.utf8Size ∧
      ∀ o ∈ (seek offset s).2.1, o.stop = (seek offset s).2.2.offset := by
  induction s generalizing offset with
  | nil => exact ⟨[], rfl, rfl, by simp [seek]⟩
  | cons c s ih =>
      cases hread : Block.read? (c :: s) with
      | some result =>
          obtain ⟨b, rest⟩ := result
          have hseek : seek offset (c :: s) =
              ([], some ⟨offset, b⟩, ⟨offset + b.utf8Size, rest⟩) := by simp only [seek, hread]
          rw [hseek]
          refine ⟨b.text, Block.eq_append_of_read? hread, rfl, ?_⟩
          intro o ho
          obtain rfl := Option.some.inj ho
          rfl
      | none =>
          obtain ⟨before, hs, hoffset, hfound⟩ := ih (offset + c.utf8Size)
          refine ⟨c :: before, ?_, ?_, ?_⟩
          · simp only [seek, hread, List.cons_append, ← hs]
          · simp only [seek, hread, hoffset, Text.utf8Size_cons, Nat.add_assoc]
          · simpa only [seek, hread] using hfound

theorem found?_eq (cursor : Cursor) : cursor.found? = cursor.remaining.head? :=
  (remaining_seek cursor.offset cursor.rest).1

theorem remaining_advance (cursor : Cursor) : cursor.advance.remaining = cursor.remaining.tail :=
  (remaining_seek cursor.offset cursor.rest).2

theorem StandsIn.advance {s : Text} {cursor : Cursor} (h : cursor.StandsIn s) :
    cursor.advance.StandsIn s := by
  obtain ⟨before, hs, hoffset⟩ := h
  obtain ⟨passed, hrest, hadvance, -⟩ := seek_stands cursor.offset cursor.rest
  refine ⟨before ++ passed, ?_, ?_⟩
  · rw [hs, hrest, List.append_assoc]
    rfl
  · rw [Text.utf8Size_append, ← hoffset]
    exact hadvance

/-- Where a cursor stands says all about it. -/
theorem StandsIn.remaining_eq {s : Text} {cursor : Cursor} (h : cursor.StandsIn s) :
    cursor.remaining =
      (s.dropBytes cursor.offset).occurrences.map (Occurrence.shift cursor.offset) := by
  obtain ⟨before, hs, hoffset⟩ := h
  rw [hs, hoffset, Text.dropBytes_append, Text.occurrences, ← Piece.occurrences_eq_shift, ← hoffset]
  rfl

theorem offset_advance {cursor : Cursor} {o : Occurrence} (h : cursor.found? = some o) :
    cursor.advance.offset = o.stop := by
  obtain ⟨-, -, -, hstop⟩ := seek_stands cursor.offset cursor.rest
  exact (hstop o h).symm

/-- What is done with several cursors: one of them gives its next block, or is
copied. -/
inductive Action where
  | take (index : Nat)
  | copy (index : Nat)
deriving DecidableEq

/-- Uses some cursors, which gives the answers, each with the index of the cursor that
it comes from, and the cursors afterwards. A copy stands behind all the others. -/
def serve (cursors : List Cursor) : List Action → List (Nat × Option Occurrence) × List Cursor
  | [] => ([], cursors)
  | .take index :: actions =>
    match cursors[index]? with
    | none => serve cursors actions
    | some cursor =>
      let (answers, final) := serve (cursors.set index cursor.advance) actions
      ((index, cursor.found?) :: answers, final)
  | .copy index :: actions =>
    match cursors[index]? with
    | none => serve cursors actions
    | some cursor => serve (cursors ++ [cursor]) actions

/-- The answers of one cursor. -/
def answersOf (index : Nat) (answers : List (Nat × Option Occurrence)) :
    List (Option Occurrence) :=
  (answers.filter (·.1 = index)).map Prod.snd

/-- What a cursor answers when it is asked `calls` times and the blocks ahead of it are
`ahead`. -/
def answersTo (calls : Nat) (ahead : List Occurrence) : List (Option Occurrence) :=
  (List.range calls).map (ahead[·]?)

theorem answersTo_succ (calls : Nat) (ahead : List Occurrence) :
    answersTo (calls + 1) ahead = ahead.head? :: answersTo calls ahead.tail := by
  simp [answersTo, List.range_succ_eq_map, List.head?_eq_getElem?]

/-- A cursor answers as if it were alone: what is done with the others, its own copies
among them, makes no difference to it. -/
theorem answersOf_serve {cursors : List Cursor} {index : Nat} {cursor : Cursor}
    (h : cursors[index]? = some cursor) (actions : List Action) :
    answersOf index (serve cursors actions).1 =
      answersTo (actions.count (.take index)) cursor.remaining := by
  -- Only `take index` changes the cursor at `index`, and then it has one block less ahead.
  induction actions generalizing cursors cursor with
  | nil => rfl
  | cons action actions ih =>
      cases action with
      | copy other =>
          have hcount : (Action.copy other :: actions).count (.take index) =
              actions.count (.take index) := by simp
          rw [hcount, serve]
          split
          · exact ih h
          · exact ih (List.getElem?_append_left (List.getElem?_eq_some_iff.1 h).1 ▸ h)
      | take other =>
          by_cases hother : other = index
          · subst hother
            have hlt := (List.getElem?_eq_some_iff.1 h).1
            have hset : (cursors.set other cursor.advance)[other]? = some cursor.advance := by
              rw [List.getElem?_set_self hlt]
            rw [List.count_cons_self, answersTo_succ, ← found?_eq, ← remaining_advance, ← ih hset]
            simp only [serve, h, answersOf, decide_true, List.filter_cons_of_pos, List.map_cons]
          · have hcount : (Action.take other :: actions).count (.take index) =
                actions.count (.take index) := by simp [hother]
            rw [hcount, serve]
            split
            · exact ih h
            · rename_i cursor' _
              have hset : (cursors.set other cursor'.advance)[index]? = some cursor := by
                rw [List.getElem?_set_ne hother, h]
              simpa [answersOf, hother] using ih hset

theorem standsIn_of_mem_serve {s : Text} {cursors : List Cursor}
    (h : ∀ cursor ∈ cursors, cursor.StandsIn s) (actions : List Action) :
    ∀ cursor ∈ (serve cursors actions).2, cursor.StandsIn s := by
  induction actions generalizing cursors with
  | nil => exact h
  | cons action actions ih =>
      cases action with
      | take index =>
          rw [serve]
          split
          · exact ih h
          · rename_i cursor hcursor
            have hadvance := (h cursor (List.mem_of_getElem? hcursor)).advance
            refine ih fun other hother => ?_
            rcases List.mem_or_eq_of_mem_set hother with hmem | rfl
            · exact h other hmem
            · exact hadvance
      | copy index =>
          rw [serve]
          split
          · exact ih h
          · rename_i cursor hcursor
            have hcopied := h cursor (List.mem_of_getElem? hcursor)
            refine ih fun other hother => ?_
            rcases List.mem_append.1 hother with hmem | hmem
            · exact h other hmem
            · exact List.mem_singleton.1 hmem ▸ hcopied

/-- Some cursors that all come from one at the start of a prompt, at the moment when the
one at `index` has given a block. -/
def JustGave (s : Text) (index : Nat) (o : Occurrence) (cursors : List Cursor) : Prop :=
  ∃ history, serve (serve [ofText s] history).2 [.take index] = ([(index, some o)], cursors)

theorem JustGave.exists_cursor {s : Text} {index : Nat} {o : Occurrence} {cursors : List Cursor}
    (h : JustGave s index o cursors) :
    ∃ cursor, cursors[index]? = some cursor ∧
      cursor.remaining = (s.dropBytes o.stop).occurrences.map (Occurrence.shift o.stop) := by
  obtain ⟨history, hserve⟩ := h
  have hstand : ∀ cursor ∈ (serve [ofText s] history).2, cursor.StandsIn s :=
    standsIn_of_mem_serve (List.forall_mem_singleton.2 (standsIn_ofText s)) history
  generalize (serve [ofText s] history).2 = earlier at hserve hstand
  cases hcursor : earlier[index]? with
  | none => simp [serve, hcursor] at hserve
  | some cursor =>
      simp only [serve, hcursor, Prod.mk.injEq, List.cons.injEq, true_and, and_true] at hserve
      obtain ⟨hfound, rfl⟩ := hserve
      have hlt := (List.getElem?_eq_some_iff.1 hcursor).1
      have hadvance := (hstand cursor (List.mem_of_getElem? hcursor)).advance
      refine ⟨cursor.advance, List.getElem?_set_self hlt, ?_⟩
      rw [hadvance.remaining_eq, offset_advance hfound]

end Cursor

/-- Correctly written blocks are resolved alike inside and outside of their prompt. -/
theorem Occurrence.mapM_resolve_text {occurrences : List Occurrence}
    (h : ∀ o ∈ occurrences, o.block.WellFormed) (picker : Picker σ) :
    occurrences.mapM (fun o => o.block.text.resolve picker) =
      (occurrences.map report).mapM (Report.replacement picker) := by
  induction occurrences with
  | nil => rfl
  | cons o rest ih =>
      have hhead := Block.resolve_text (h o List.mem_cons_self) picker
      have hrest := ih fun other hother => h other (List.mem_cons_of_mem o hother)
      rw [List.mapM_cons, List.map_cons, List.mapM_cons, hhead, hrest, replacement_report]

namespace Text

theorem wellFormed_of_mem_occurrences {s : Text} {o : Occurrence} (h : o ∈ s.occurrences) :
    o.block.WellFormed := by
  obtain ⟨-, -, -, hwell, -⟩ := exists_of_mem_occurrences h
  exact hwell

theorem resolve_blockwise (picker : Picker σ) (s : Text) :
    s.resolve picker = (do
      let texts ← s.occurrences.mapM fun o => o.block.text.resolve picker
      return s.splice 0 (s.reports.zip texts)) := by
  have hwell : ∀ o ∈ s.occurrences, o.block.WellFormed := fun o => wellFormed_of_mem_occurrences
  rw [resolve_eq_splice, Occurrence.mapM_resolve_text hwell, map_eq_pure_bind, reports]

theorem slice_occurrence {s : Text} {o : Occurrence} (h : o ∈ s.occurrences) :
    s.slice o.start o.stop = o.block.text :=
  slice_report (List.mem_map_of_mem h)

/-- Blocks are self-contained, and searching is local. The text of a block, whatever
follows it, begins with just this block. Of a search, a cursor gives the blocks in
order and nothing ever after. Once a cursor has given a block, it gives those of the
text behind that block, as does a copy made at this moment, whatever else is done with
the two and with all others. And a prompt is resolved by resolving each of its blocks
as a prompt of its own, one after the other, and copying what stands between them. -/
theorem blocks_are_self_contained (s : Text) :
    (∀ o ∈ s.occurrences,
      s.slice o.start o.stop = o.block.text ∧
      (Occurrence.mk 0 o.block).stop = o.block.text.utf8Size ∧
      o.block.text.occurrences = [⟨0, o.block⟩] ∧
      ∀ x, (o.block.text ++ x).occurrences =
        ⟨0, o.block⟩ :: x.occurrences.map (Occurrence.shift o.block.text.utf8Size)) ∧
    (∀ actions, Cursor.answersOf 0 (Cursor.serve [Cursor.ofText s] actions).1 =
      Cursor.answersTo (actions.count (.take 0)) s.occurrences) ∧
    (∀ index o cursors, Cursor.JustGave s index o cursors → ∀ actions,
      let behind := (s.dropBytes o.stop).occurrences.map (Occurrence.shift o.stop)
      Cursor.answersOf index (Cursor.serve cursors actions).1 =
        Cursor.answersTo (actions.count (.take index)) behind ∧
      Cursor.answersOf cursors.length (Cursor.serve cursors (.copy index :: actions)).1 =
        Cursor.answersTo (actions.count (.take cursors.length)) behind) ∧
    ∀ {σ : Type} (picker : Picker σ), s.resolve picker = (do
      let texts ← s.occurrences.mapM fun o => o.block.text.resolve picker
      return s.splice 0 (s.reports.zip texts)) := by
  refine ⟨?_, ?_, ?_, fun picker => resolve_blockwise picker s⟩
  · intro o ho
    have hwell := wellFormed_of_mem_occurrences ho
    refine ⟨slice_occurrence ho, Nat.zero_add _, ?_, ?_⟩
    · rw [occurrences, pieces_text hwell]
      rfl
    · intro x
      exact occurrences_of_starts ⟨hwell, rfl⟩
  · intro actions
    have hfirst : [Cursor.ofText s][0]? = some (Cursor.ofText s) := rfl
    rw [← Cursor.remaining_ofText]
    exact Cursor.answersOf_serve hfirst actions
  · intro index o cursors h actions
    obtain ⟨cursor, hcursor, hremaining⟩ := h.exists_cursor
    have hcopy : Cursor.serve cursors (.copy index :: actions) =
        Cursor.serve (cursors ++ [cursor]) actions := by
      rw [Cursor.serve, hcursor]
    have hcopied : (cursors ++ [cursor])[cursors.length]? = some cursor :=
      List.getElem?_concat_length
    rw [hcopy, Cursor.answersOf_serve hcursor, Cursor.answersOf_serve hcopied, hremaining]
    exact ⟨rfl, rfl⟩

end Text

end PromptDraw
