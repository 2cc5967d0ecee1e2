import PromptDraw.Proofs.Prompt.Splice

/-!
Watching a picker at work. A picker may explain each of its answers with a note;
resolving with it while the notes are kept gives the same text and the same final
state as resolving without them, and the notes are those on its answers about the
substituted blocks, in their order. The text plays no part in that: notes and final
state are already those of asking the picker about the candidates and counts alone.
-/

namespace PromptDraw

variable {σ ε : Type}

namespace Picker

/-- A picker whose answers come with a note, without the notes. -/
def plain (pick : List Text → Nat → StateM σ (List Text × ε)) : Picker σ :=
  fun candidates count => Prod.fst <$> pick candidates count

/-- A picker whose answers come with a note, which also keeps the notes. -/
def noting (pick : List Text → Nat → StateM σ (List Text × ε)) : Picker (σ × List ε) :=
  fun candidates count => do
    let (g, notes) ← get
    let ((items, note), g) := (pick candidates count).run g
    set (g, notes ++ [note])
    return items

end Picker

namespace Report

/-- The notes on the answers to some questions, nothing being resolved. -/
def notes (pick : List Text → Nat → StateM σ (List Text × ε)) (reports : List Report) :
    StateM σ (List ε) :=
  (questions reports).mapM fun question => Prod.snd <$> pick question.1 question.2

variable (pick : List Text → Nat → StateM σ (List Text × ε))

/-- There is one note for each question. -/
theorem length_run_notes (reports : List Report) (g : σ) :
    ((notes pick reports).run g).1.length = (questions reports).length := by
  unfold notes
  generalize questions reports = asked
  induction asked generalizing g with
  | nil => rfl
  | cons question rest ih =>
      simp only [List.mapM_cons, run_state_bind, run_state_pure, List.length_cons, ih]

theorem run_notes_cons (report : Report) (rest : List Report) (g : σ) :
    (notes pick (report :: rest)).run g =
      (((notes pick [report]).run g).1 ++ ((notes pick rest).run ((notes pick [report]).run g).2).1,
        ((notes pick rest).run ((notes pick [report]).run g).2).2) := by
  rw [notes, questions_cons, List.mapM_append]
  rfl

theorem questions_of_substituted {report : Report} (h : report.outcome = .substituted) :
    questions [report] = [(report.candidates, report.count)] := by
  simp [questions, h]

theorem questions_of_ne_substituted {report : Report} (h : report.outcome ≠ .substituted) :
    questions [report] = [] := by
  simp [questions, h]

theorem run_replacement_plain (report : Report) (g : σ) :
    ((report.replacement (Picker.plain pick)).run g).2 = ((notes pick [report]).run g).2 := by
  unfold replacement notes
  cases houtcome : report.outcome with
  | unchanged | empty =>
      rw [questions_of_ne_substituted (by rw [houtcome]; exact Outcome.noConfusion)]
      rfl
  | substituted =>
      rw [questions_of_substituted houtcome]
      rfl

theorem run_replacement_noting (report : Report) (g : σ) (kept : List ε) :
    (report.replacement (Picker.noting pick)).run (g, kept) =
      (((report.replacement (Picker.plain pick)).run g).1, ((notes pick [report]).run g).2,
        kept ++ ((notes pick [report]).run g).1) := by
  unfold replacement notes
  cases houtcome : report.outcome with
  | unchanged | empty =>
      rw [questions_of_ne_substituted (by rw [houtcome]; exact Outcome.noConfusion)]
      simp only [List.mapM_nil, run_state_pure, List.append_nil]
  | substituted =>
      rw [questions_of_substituted houtcome]
      rfl

theorem run_mapM_plain (reports : List Report) (g : σ) :
    ((reports.mapM (replacement (Picker.plain pick))).run g).2 =
      ((notes pick reports).run g).2 := by
  induction reports generalizing g with
  | nil => rfl
  | cons report rest ih =>
      simp only [List.mapM_cons, run_state_bind, run_state_pure, run_notes_cons pick report rest,
        ih, run_replacement_plain]

theorem run_mapM_noting (reports : List Report) (g : σ) (kept : List ε) :
    (reports.mapM (replacement (Picker.noting pick))).run (g, kept) =
      (((reports.mapM (replacement (Picker.plain pick))).run g).1,
        ((notes pick reports).run g).2, kept ++ ((notes pick reports).run g).1) := by
  induction reports generalizing g kept with
  | nil =>
      simp only [notes, questions, List.filter_nil, List.map_nil, List.mapM_nil, run_state_pure,
        List.append_nil]
  | cons report rest ih =>
      simp only [List.mapM_cons, run_state_bind, run_state_pure, run_replacement_noting, ih,
        run_notes_cons pick report rest, run_replacement_plain, List.append_assoc]

end Report

namespace Text

variable (pick : List Text → Nat → StateM σ (List Text × ε))

/-- The final state of a resolution is that of asking the picker its questions. -/
theorem run_resolve_plain (s : Text) (g : σ) :
    ((s.resolve (Picker.plain pick)).run g).2 = ((Report.notes pick s.reports).run g).2 := by
  rw [run_resolve, Report.run_mapM_plain]

theorem run_resolve_noting (s : Text) (g : σ) :
    (s.resolve (Picker.noting pick)).run (g, []) =
      (((s.resolve (Picker.plain pick)).run g).1, ((s.resolve (Picker.plain pick)).run g).2,
        ((Report.notes pick s.reports).run g).1) := by
  rw [run_resolve_plain, run_resolve, run_resolve, Report.run_mapM_noting, List.nil_append]

end Text

end PromptDraw
