import PromptDraw.Proofs.Program.Batch

/-!
A batch printed as text can be taken apart again. The prompts of a batch are divided by a
line of three dashes. If no prompt has such a line itself, every divider that is found was
printed as one: a divider is a whole line, so it cannot begin in a prompt and end behind it
without that prompt having the line.
-/

namespace PromptDraw

namespace Text

/-- The parts of a text between the occurrences of a mark, which must not be empty. The
occurrences are found from left to right, each behind the one before. -/
def splitAround (mark : Text) : Text → List Text
  | [] => [[]]
  | c :: s =>
    if mark.isPrefixOf (c :: s) then [] :: splitAround mark (s.drop (mark.length - 1))
    else (splitAround mark s).modifyHead (c :: ·)
termination_by s => s.length

theorem splitAround_nil (mark : Text) : splitAround mark [] = [[]] := by
  rw [splitAround]

theorem splitAround_mark {mark : Text} (h : mark ≠ []) (s : Text) :
    splitAround mark (mark ++ s) = [] :: splitAround mark s := by
  obtain ⟨c, mark, rfl⟩ := List.exists_cons_of_ne_nil h
  have hmark : (c :: mark).isPrefixOf (c :: (mark ++ s)) = true :=
    List.isPrefixOf_iff_prefix.2 ⟨s, rfl⟩
  rw [List.cons_append, splitAround, if_pos hmark]
  simp

theorem splitAround_cons {mark : Text} {c : Char} {s : Text} (h : ¬mark <+: c :: s) :
    splitAround mark (c :: s) = (splitAround mark s).modifyHead (c :: ·) := by
  rw [splitAround, if_neg (mt List.isPrefixOf_iff_prefix.1 h)]

end Text

namespace Resolution

/-- The line between two prompts. -/
def dividerLine : Text := ['-', '-', '-']

/-- A text of which no line but perhaps its first is a dividing line. -/
def KeepsWhole (s : Text) : Prop :=
  ∀ before after, s = before ++ '\n' :: after → dividerLine ∉ after.splitOn '\n'

theorem keepsWhole_of_lines {s : Text} (h : dividerLine ∉ s.splitOn '\n') : KeepsWhole s := by
  rintro before after rfl hline
  rw [List.splitOn_append_cons_self] at h
  exact h (List.mem_append_right _ hline)

theorem KeepsWhole.tail {c : Char} {s : Text} (h : KeepsWhole (c :: s)) : KeepsWhole s := by
  intro before after hs
  exact h (c :: before) after (by rw [hs, List.cons_append])

/-- Where a divider begins, the line behind the line feed is a dividing line, even if that
line ends where the text does. -/
theorem mem_splitOn_of_divider_at_front {s rest : Text}
    (h : dividerLine ++ ['\n'] <+: s ++ '\n' :: rest) : dividerLine ∈ s.splitOn '\n' := by
  obtain ⟨after, hs⟩ := h
  have hsplit := congrArg (List.splitOn '\n') hs
  have hdashes : dividerLine.splitOn '\n' = [dividerLine] := by decide
  rw [List.append_assoc, List.singleton_append, List.splitOn_append_cons_self,
    List.splitOn_append_cons_self, hdashes] at hsplit
  obtain ⟨line, lines, hlines⟩ := List.exists_cons_of_ne_nil (List.splitOn_ne_nil '\n' s)
  rw [hlines] at hsplit ⊢
  rw [(List.cons.inj hsplit).1]
  exact List.mem_cons_self

theorem KeepsWhole.no_divider_at_front {c : Char} {s : Text} (h : KeepsWhole (c :: s))
    (rest : Text) : ¬divider <+: c :: (s ++ '\n' :: rest) := by
  intro hdivider
  obtain ⟨rfl, hline⟩ := List.cons_prefix_cons.1 hdivider
  exact h [] s rfl (mem_splitOn_of_divider_at_front hline)

theorem KeepsWhole.splitAround_append {s : Text} (h : KeepsWhole s) (rest : Text) :
    Text.splitAround divider (s ++ divider ++ rest) = s :: Text.splitAround divider rest := by
  induction s with
  | nil => exact Text.splitAround_mark (List.cons_ne_nil _ _) rest
  | cons c s ih =>
      have hnone : ¬divider <+: c :: (s ++ divider ++ rest) := by
        rw [List.append_assoc]
        exact h.no_divider_at_front (dividerLine ++ ['\n'] ++ rest)
      rw [List.cons_append, List.cons_append, Text.splitAround_cons hnone, ih h.tail,
        List.modifyHead_cons]

theorem KeepsWhole.splitAround_eq {s : Text} (h : KeepsWhole s) :
    Text.splitAround divider s = [s] := by
  induction s with
  | nil => exact Text.splitAround_nil divider
  | cons c s ih =>
      have hnone : ¬divider <+: c :: s := fun hdivider =>
        h.no_divider_at_front [] (hdivider.trans (List.prefix_append (c :: s) ['\n']))
      rw [Text.splitAround_cons hnone, ih h.tail, List.modifyHead_cons]

theorem splitAround_intercalate {texts : List Text} (hne : texts ≠ [])
    (h : ∀ text ∈ texts, KeepsWhole text) :
    Text.splitAround divider (divider.intercalate texts) = texts := by
  induction texts with
  | nil => exact absurd rfl hne
  | cons text texts ih =>
      obtain ⟨hfirst, hrest⟩ := List.forall_mem_cons.1 h
      cases texts with
      | nil => rw [List.intercalate_singleton, hfirst.splitAround_eq]
      | cons next rest =>
          rw [List.intercalate_cons_cons, hfirst.splitAround_append,
            ih (List.cons_ne_nil _ _) hrest]

theorem splitAround_renderBatch {σ : Type} [IndexSource σ] {s : Text} {n : Nat} {g : σ}
    (hn : 1 ≤ n) (h : ∀ r ∈ ((batch s n).run g).1, dividerLine ∉ r.resolved.splitOn '\n') :
    Text.splitAround divider (renderBatch .text ((batch s n).run g).1) =
      ((batch s n).run g).1.map resolved := by
  refine splitAround_intercalate ?_ ?_
  · intro hnil
    have hlength := length_batch s g n
    rw [List.map_eq_nil_iff.1 hnil, List.length_nil] at hlength
    omega
  · intro text htext
    obtain ⟨r, hr, rfl⟩ := List.mem_map.1 htext
    exact keepsWhole_of_lines (h r hr)

/-- A batch printed as text can be taken apart. If none of its resolved prompts has a line
of three dashes, then dividing what is printed at each divider, from left to right, gives
these prompts in their order, however they begin and end: for draws from any source, and so
for what a run of `expand` prints before its last line feed. -/
theorem text_batch_comes_apart {text : Text} {n : Nat} (hn : 1 ≤ n) :
    (∀ {σ : Type} [IndexSource σ] (g : σ),
      let prompts := (List.range n).map fun i => (text.expand.run (text.stateAfter g i)).1
      (∀ prompt ∈ prompts, ['-', '-', '-'] ∉ prompt.splitOn '\n') →
      Text.splitAround ['\n', '-', '-', '-', '\n'] (renderBatch .text ((batch text n).run g).1) =
        prompts) ∧
    ∀ e : ExpandRun text n, e.format = .text →
      let prompts := (List.range n).map fun i =>
        (text.expand.run (text.stateAfter e.source i)).1
      (∀ prompt ∈ prompts, ['-', '-', '-'] ∉ prompt.splitOn '\n') →
      e.run.result = .ok () ∧ ∃ body, e.run.output = body ++ ['\n'] ∧
        Text.splitAround ['\n', '-', '-', '-', '\n'] body = prompts := by
  have hany {σ : Type} [IndexSource σ] (g : σ)
      (h : ∀ prompt ∈ (List.range n).map fun i => (text.expand.run (text.stateAfter g i)).1,
        dividerLine ∉ prompt.splitOn '\n') :
      Text.splitAround divider (renderBatch .text ((batch text n).run g).1) =
        (List.range n).map fun i => (text.expand.run (text.stateAfter g i)).1 := by
    have hprompts : ((batch text n).run g).1.map resolved =
        (List.range n).map fun i => (text.expand.run (text.stateAfter g i)).1 := by
      rw [run_batch, List.map_map]
      rfl
    rw [← hprompts] at h ⊢
    exact splitAround_renderBatch hn fun r hr => h r.resolved (List.mem_map_of_mem hr)
  refine ⟨fun g => hany g, ?_⟩
  intro e hformat prompts hlines
  obtain ⟨hresult, houtput⟩ := e.run_eq hn
  rw [hformat] at houtput
  exact ⟨hresult, _, houtput, hany e.source hlines⟩

/-- Two prompts, each of which begins with a line feed and ends with dashes. -/
theorem text_batch_comes_apart_dashes_at_the_end :
    let text : Text := ['\n', '{', '{', '-', '}', '}', '(', '1', ')', '-']
    ∃ e : ExpandRun text 2, 1 ≤ 2 ∧ e.format = .text ∧ ∃ body, e.run.output = body ++ ['\n'] ∧
      Text.splitAround ['\n', '-', '-', '-', '\n'] body = [['\n', '-', '-'], ['\n', '-', '-']] := by
  intro text
  have hsize : (String.ofList text).utf8ByteSize ≤ PromptInput.maxRead := by decide +kernel
  let g : Generator := ⟨3, 5⟩
  let e : ExpandRun text 2 := ExpandRun.inline text g 2 hsize
  have hprompts : (List.range 2).map (fun i => (text.expand.run (text.stateAfter g i)).1) =
      [['\n', '-', '-'], ['\n', '-', '-']] := by decide +kernel
  have hlines : ∀ prompt ∈ (List.range 2).map
      (fun i => (text.expand.run (text.stateAfter g i)).1),
      ['-', '-', '-'] ∉ prompt.splitOn '\n' := by
    rw [hprompts]
    decide
  obtain ⟨-, body, houtput, hsplit⟩ := (text_batch_comes_apart (by decide)).2 e rfl hlines
  exact ⟨e, by decide, rfl, body, houtput, hsplit.trans hprompts⟩

end Resolution

end PromptDraw
