import PromptDraw.Proofs.Config.Lines

/-!
Settings that are written as a document are read back as they are. A document can hold
settings that no run can use; reading it then fails as checking them does, and in no
other way.
-/

namespace PromptDraw

theorem Yaml.linesText_ended {entries : List Entry} (h : entries ≠ []) :
    linesText true entries = entries.flatMap fun entry => entry.text ++ ['\n'] := by
  induction entries with
  | nil => exact absurd rfl h
  | cons entry entries ih =>
      cases entries with
      | nil => rw [linesText_singleton, List.flatMap_singleton, if_pos rfl]
      | cons next entries =>
          rw [linesText_cons, ih (List.cons_ne_nil next entries), List.flatMap_cons (x := entry),
            List.append_assoc, List.singleton_append]

namespace Config

/-- The lines that settings are written as. -/
def lines (config : Config) : List Line :=
  (config.seed.map fun seed => .seed seed.toNat).toList ++
    [.batch config.batch.toNat, .format config.format.name,
      .maxInputBytes config.maxInputBytes.toNat]

theorem lines_ne_nil (config : Config) : config.lines ≠ [] :=
  List.append_ne_nil_of_right_ne_nil _ (List.cons_ne_nil _ _)

theorem document_eq (config : Config) : config.document = Line.document true config.lines := by
  have hne : config.lines.map Line.entry ≠ [] := mt List.map_eq_nil_iff.1 config.lines_ne_nil
  rw [Line.document, Yaml.linesText_ended hne, lines, document]
  cases config.seed with
  | none | some seed =>
      simp [documentLine, Line.entry, Line.name, Line.value, Key.name, Yaml.Entry.text]

theorem mem_lines {config : Config} {line : Line} :
    line ∈ config.lines ↔ (∃ seed, config.seed = some seed ∧ .seed seed.toNat = line) ∨
      line = .batch config.batch.toNat ∨ line = .format config.format.name ∨
      line = .maxInputBytes config.maxInputBytes.toNat := by
  simp [lines]

theorem wellFormed_of_mem_lines {config : Config} : ∀ line ∈ config.lines, line.WellFormed := by
  intro line hline
  rcases mem_lines.1 hline with ⟨seed, -, rfl⟩ | rfl | rfl | rfl
  · exact trivial
  · exact trivial
  · cases config.format <;> exact Yaml.isPlain_of_word (by decide) (by decide) []
  · exact trivial

theorem Key.utf8Size_name_le (key : Key) : Text.utf8Size key.name.toList ≤ Yaml.maxKeyLength := by
  cases key <;> decide

theorem fits_of_mem_lines {config : Config} : ∀ line ∈ config.lines, line.Fits := by
  intro line hline
  rcases mem_lines.1 hline with ⟨seed, -, rfl⟩ | rfl | rfl | rfl
  · exact ⟨Key.seed.utf8Size_name_le, seed.toNat_lt⟩
  · exact ⟨Key.batch.utf8Size_name_le, config.batch.toNat_lt⟩
  · refine ⟨Key.format.utf8Size_name_le, ?_⟩
    cases config.format with
    | text => exact .inl rfl
    | json => exact .inr rfl
  · exact ⟨Key.maxInputBytes.utf8Size_name_le, config.maxInputBytes.toNat_lt⟩

theorem nodup_names_lines (config : Config) : (config.lines.map Line.name).Nodup := by
  rw [lines]
  cases config.seed with
  | none | some seed => simp [Line.name, Key.name]

/-- The lines give back the settings that were written as them. -/
theorem give_lines (config : Config) : Line.Give {} config.lines config := by
  have hgive : config.lines.foldl (fun c line => line.give c) {} = config := by
    obtain ⟨seed, batch, format, maxInputBytes⟩ := config
    cases seed with
    | none | some seed => simp [lines, Line.give, OutputFormat.ofName?_name]
  have hranges : ∀ line ∈ config.lines, line.InRange :=
    fun line hline => (fits_of_mem_lines line hline).2
  have h : Line.Give {} config.lines _ := Line.give_foldl hranges config.nodup_names_lines
  rwa [hgive] at h

theorem ofDocument_document (config : Config) :
    ofDocument config.document = config.check.map fun () => config := by
  have hread : Line.Meaning config.lines (ofDocument config.document) := by
    rw [document_eq]
    exact meaning_ofDocument true wellFormed_of_mem_lines config.nodup_names_lines
  refine hread.unique ?_
  rcases Line.meaning_check fits_of_mem_lines config.give_lines with
    ⟨fault, hcheck, hmeaning⟩ | ⟨hcheck, hmeaning⟩
  · rw [hcheck]
    exact hmeaning
  · rw [hcheck]
    exact hmeaning

/-- Settings survive being written. All settings have a document. It is read back as these
settings if they pass the check, and with the fault that the check finds in them if they do
not: an empty batch before prompts without a byte. Reading is never what fails. -/
theorem settings_survive_writing (config : Config) :
    ofDocument config.document = config.check.map (fun () => config) ∧
      (ofDocument config.document = .ok config ↔ 0 < config.batch ∧ 0 < config.maxInputBytes) ∧
      (ofDocument config.document = .error .batchZero ↔ config.batch = 0) ∧
      (ofDocument config.document = .error .maxInputBytesZero ↔
        0 < config.batch ∧ config.maxInputBytes = 0) ∧
      ofDocument config.document ≠ .error .malformed := by
  rw [ofDocument_document, UInt32.pos_iff_ne_zero, UInt64.pos_iff_ne_zero]
  refine ⟨rfl, ?_⟩
  by_cases hbatch : config.batch = 0
  · have hcheck := check_of_batch_zero hbatch
    simp [hcheck, hbatch, Except.map]
  · by_cases hmax : config.maxInputBytes = 0
    · have hcheck := check_of_maxInputBytes_zero hbatch hmax
      simp [hcheck, hbatch, hmax, Except.map]
    · have hcheck : config.check = .ok () := check_eq_ok_iff.2 ⟨hbatch, hmax⟩
      simp [hcheck, hbatch, hmax, Except.map]

end Config

end PromptDraw
