import Mathlib.Data.List.Forall2
import PromptDraw.Prompt.Report
import PromptDraw.Prompt.Resolve
import PromptDraw.Proofs.Prompt.Pieces

/-!
Reports and resolution agree. Resolving a prompt is replacing the span of each
of its reports, from left to right, by what the report says becomes of it; the
picker is asked about the substituted ones only, once each and in their order.
Replacing works on byte offsets of the prompt alone and never looks at a
replacement, so text put in is not searched again.
-/

namespace PromptDraw

namespace Text

def dropBytes : (n : Nat) → Text → Text
  | _, [] => []
  | n, c :: s => if n = 0 then c :: s else dropBytes (n - c.utf8Size) s

def takeBytes : (n : Nat) → Text → Text
  | _, [] => []
  | n, c :: s => if n = 0 then [] else c :: takeBytes (n - c.utf8Size) s

/-- The text from byte `start` up to byte `stop`. -/
def slice (s : Text) (start stop : Nat) : Text :=
  (s.dropBytes start).takeBytes (stop - start)

@[simp] theorem dropBytes_zero (s : Text) : dropBytes 0 s = s := by
  cases s <;> simp [dropBytes]

@[simp] theorem dropBytes_append (a b : Text) : dropBytes a.utf8Size (a ++ b) = b := by
  induction a with
  | nil => simp
  | cons c a ih =>
      simp [dropBytes, ih, Nat.ne_of_gt c.utf8Size_pos]

@[simp] theorem takeBytes_zero (s : Text) : takeBytes 0 s = [] := by
  cases s <;> simp [takeBytes]

@[simp] theorem takeBytes_append (a b : Text) : takeBytes a.utf8Size (a ++ b) = a := by
  induction a with
  | nil => simp
  | cons c a ih =>
      simp [takeBytes, ih, Nat.ne_of_gt c.utf8Size_pos]

theorem slice_append (a b c : Text) :
    slice (a ++ b ++ c) a.utf8Size (a ++ b).utf8Size = b := by
  simp [slice, List.append_assoc]

/-- A prompt from byte `last` on, with the spans of some reports replaced and
everything between them copied. -/
def splice (s : Text) (last : Nat) : List (Report × Text) → Text
  | [] => s.dropBytes last
  | (report, text) :: rest =>
    s.slice last report.start ++ text ++ splice s report.stop rest

end Text

variable {σ : Type}

section State

variable {α β : Type}

theorem run_state_pure (a : α) (g : σ) : (pure a : StateM σ α).run g = (a, g) := rfl

theorem run_state_bind (action : StateM σ α) (next : α → StateM σ β) (g : σ) :
    (action >>= next).run g = (next (action.run g).1).run (action.run g).2 := rfl

theorem run_state_map (f : α → β) (action : StateM σ α) (g : σ) :
    (f <$> action).run g = (f (action.run g).1, (action.run g).2) := rfl

end State

/-- What takes the place of a reported block. -/
def Report.replacement (picker : Picker σ) (report : Report) : StateM σ Text :=
  match report.outcome with
  | .unchanged => pure report.text
  | .empty => pure []
  | .substituted => do
    let items ← picker report.candidates report.count
    return report.separator.intercalate items

namespace Occurrence

@[simp] theorem start_report (o : Occurrence) : o.report.start = o.start := rfl

@[simp] theorem stop_report (o : Occurrence) : o.report.stop = o.stop := rfl

@[simp] theorem replacement_report (picker : Picker σ) (o : Occurrence) :
    o.report.replacement picker = o.block.resolve picker := rfl

end Occurrence

namespace Piece

/-- The reports on the blocks among some pieces, the first piece standing at
`offset`. -/
def reports (offset : Nat) (ps : List Piece) : List Report :=
  (occurrences offset ps).map Occurrence.report

@[simp] theorem reports_nil (offset : Nat) : reports offset [] = [] := rfl

@[simp] theorem reports_char (offset : Nat) (c : Char) (ps : List Piece) :
    reports offset (char c :: ps) = reports (offset + c.utf8Size) ps := rfl

@[simp] theorem reports_block (offset : Nat) (b : Block) (ps : List Piece) :
    reports offset (block b :: ps) =
      (Occurrence.mk offset b).report :: reports (offset + b.utf8Size) ps := rfl

/-- The part of a prompt that is dealt with is `before`; `gap` is known to hold
no block, and is copied when the next block comes. -/
theorem map_resolveAll (picker : Picker σ) (before gap : Text) (ps : List Piece) :
    (gap ++ ·) <$> resolveAll picker ps =
      (fun texts => (before ++ gap ++ textOf ps).splice before.utf8Size
        ((reports (before ++ gap).utf8Size ps).zip texts)) <$>
        (reports (before ++ gap).utf8Size ps).mapM (Report.replacement picker) := by
  induction ps generalizing before gap with
  | nil => simp [resolveAll, Text.splice]
  | cons p ps ih =>
      cases p with
      | char c =>
          have hrest := ih before (gap ++ [c])
          simpa [resolveAll, Piece.resolve, text, Nat.add_assoc] using hrest
      | block b =>
          have hrest := ih (before ++ gap ++ b.text) []
          have hslice := Text.slice_append before gap (b.text ++ textOf ps)
          simp only [List.append_nil, List.nil_append, id_map'] at hrest
          simp only [List.append_assoc, Text.utf8Size_append] at hrest hslice
          simp [resolveAll, Piece.resolve, text, hrest, hslice, Text.splice, Nat.add_assoc,
            Occurrence.stop, Block.utf8Size]

end Piece

namespace Text

theorem resolve_eq_splice (picker : Picker σ) (s : Text) :
    s.resolve picker =
      (fun texts => s.splice 0 (s.reports.zip texts)) <$>
        s.reports.mapM (Report.replacement picker) := by
  have h := Piece.map_resolveAll picker [] [] s.pieces
  simp only [List.nil_append, id_map', textOf_pieces, utf8Size_nil] at h
  exact h

theorem slice_report {s : Text} {report : Report} (h : report ∈ s.reports) :
    s.slice report.start report.stop = report.text := by
  obtain ⟨o, ho, rfl⟩ := List.mem_map.1 h
  obtain ⟨before, after, hs, -, hstart, hstop⟩ := exists_of_mem_occurrences ho
  rw [Occurrence.start_report, Occurrence.stop_report, hstart, hstop, hs]
  exact slice_append before o.block.text after

end Text

/-- A picker that also keeps a list of what it is asked. -/
def Picker.recorded (picker : Picker σ) : Picker (σ × List (List Text × Nat)) :=
  fun candidates count => do
    let (g, asked) ← get
    let (items, g) := (picker candidates count).run g
    set (g, asked ++ [(candidates, count)])
    return items

namespace Report

def questions (reports : List Report) : List (List Text × Nat) :=
  (reports.filter (·.outcome = .substituted)).map fun report => (report.candidates, report.count)

/-- What takes the place of a reported block when its first candidates are
picked. -/
def firstText (report : Report) : Text :=
  match report.outcome with
  | .unchanged => report.text
  | .empty => []
  | .substituted => report.separator.intercalate
      (report.candidates.take (min report.count report.candidates.length))

theorem questions_cons (report : Report) (rest : List Report) :
    questions (report :: rest) = questions [report] ++ questions rest := by
  simp only [questions, ← List.map_append, ← List.filter_append, List.singleton_append]

theorem run_replacement_recorded (picker : Picker σ) (report : Report) (g : σ)
    (asked : List (List Text × Nat)) :
    (report.replacement picker.recorded).run (g, asked) =
      (((report.replacement picker).run g).1, ((report.replacement picker).run g).2,
        asked ++ questions [report]) := by
  unfold replacement
  cases houtcome : report.outcome with
  | unchanged | empty =>
      have hasked : questions [report] = [] := by simp [questions, houtcome]
      rw [hasked, List.append_nil]
      rfl
  | substituted =>
      have hasked : questions [report] = [(report.candidates, report.count)] := by
        simp [questions, houtcome]
      rw [hasked]
      rfl

/-- The picker is asked about each substituted block once, in their order, and
its state is what it would be without the record. -/
theorem run_mapM_recorded (picker : Picker σ) (reports : List Report) (g : σ)
    (asked : List (List Text × Nat)) :
    (reports.mapM (replacement picker.recorded)).run (g, asked) =
      (((reports.mapM (replacement picker)).run g).1,
        ((reports.mapM (replacement picker)).run g).2, asked ++ questions reports) := by
  induction reports generalizing g asked with
  | nil =>
      simp only [List.mapM_nil, run_state_pure, questions, List.filter_nil, List.map_nil,
        List.append_nil]
  | cons report rest ih =>
      simp only [List.mapM_cons, run_state_bind, run_state_pure, run_replacement_recorded, ih,
        questions_cons report rest, List.append_assoc]

theorem forall₂_replacements {picker : Picker σ} {relation : Report → Text → Prop}
    (h : ∀ report g, relation report ((report.replacement picker).run g).1)
    (reports : List Report) (g : σ) :
    List.Forall₂ relation reports ((reports.mapM (replacement picker)).run g).1 := by
  induction reports generalizing g with
  | nil => exact .nil
  | cons report rest ih =>
      simp only [List.mapM_cons, run_state_bind, run_state_pure]
      exact .cons (h report g) (ih _)

theorem replacement_first (report : Report) :
    report.replacement Picker.first = pure report.firstText := by
  unfold replacement firstText
  cases report.outcome with
  | unchanged => rfl
  | empty => rfl
  | substituted => simp [Picker.first, List.take_eq_take_min]

end Report

namespace Text

theorem run_resolve (picker : Picker σ) (s : Text) (g : σ) :
    (s.resolve picker).run g =
      (s.splice 0 (s.reports.zip ((s.reports.mapM (Report.replacement picker)).run g).1),
        ((s.reports.mapM (Report.replacement picker)).run g).2) := by
  rw [resolve_eq_splice, run_state_map]

theorem preview_eq_splice (s : Text) :
    s.preview = s.splice 0 (s.reports.map fun report => (report, report.firstText)) := by
  have hpicks : s.reports.mapM (Report.replacement Picker.first) =
      pure (s.reports.map Report.firstText) := by
    rw [funext Report.replacement_first, List.mapM_pure]
  rw [preview, run_resolve, hpicks, run_state_pure, List.map_prod_left_eq_zip]

/-- What reports say is what resolution does. The spans stand in order and hold
the texts reported. Resolving with any picker replaces each span by what is
reported to become of it, the picker's state being handed on in the order of the
reports; a record of the questions to the picker holds the candidates and counts
of the substituted reports and nothing else; and previewing replaces each
substituted span by as many of the first candidates as are wanted and there. -/
theorem resolve_agrees_with_reports (picker : Picker σ) (s : Text) :
    s.reports.Pairwise (fun r r' => r.stop ≤ r'.start) ∧
    (∀ r ∈ s.reports, s.slice r.start r.stop = r.text) ∧
    s.resolve picker = (do
      let texts ← s.reports.mapM (Report.replacement picker)
      return s.splice 0 (s.reports.zip texts)) ∧
    (∀ g asked, (s.resolve picker.recorded).run (g, asked) =
      (((s.resolve picker).run g).1, ((s.resolve picker).run g).2,
        asked ++ Report.questions s.reports)) ∧
    s.preview = s.splice 0 (s.reports.map fun r => (r, r.firstText)) := by
  refine ⟨?_, fun r hr => slice_report hr, ?_, ?_, preview_eq_splice s⟩
  · exact List.pairwise_map.2 (Piece.pairwise_occurrences 0 s.pieces)
  · rw [resolve_eq_splice, map_eq_pure_bind]
  · intro g asked
    rw [run_resolve, run_resolve, Report.run_mapM_recorded]

end Text

end PromptDraw
