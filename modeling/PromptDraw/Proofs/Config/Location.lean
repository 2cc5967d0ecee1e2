import PromptDraw.Config.Location

/-!
Settings are found or refused, and finding them writes nothing. Those that are found
can be used: a batch is never empty and a prompt may have at least one byte. Defaults
are not checked when they are taken, so that is shown of them too.
-/

namespace PromptDraw

namespace Config

/-- Settings that a run can use. -/
structure Usable (config : Config) : Prop where
  batch : config.batch ≠ 0
  maxInputBytes : config.maxInputBytes ≠ 0

theorem usable_default : Usable {} where
  batch := by decide
  maxInputBytes := by decide

theorem check_eq_ok_iff {config : Config} : config.check = .ok () ↔ config.Usable := by
  unfold check
  constructor
  · intro h
    split at h
    · cases h
    · split at h
      · cases h
      · exact ⟨‹_›, ‹_›⟩
  · intro h
    rw [if_neg h.batch, if_neg h.maxInputBytes]

theorem check_of_batch_zero {config : Config} (h : config.batch = 0) :
    config.check = .error .batchZero :=
  if_pos h

theorem check_of_maxInputBytes_zero {config : Config} (hbatch : config.batch ≠ 0)
    (h : config.maxInputBytes = 0) : config.check = .error .maxInputBytesZero :=
  (if_neg hbatch).trans (if_pos h)

theorem usable_of_ofDocument {document : Text} {config : Config}
    (h : ofDocument document = .ok config) : config.Usable := by
  unfold ofDocument at h
  split at h
  · cases h
    exact usable_default
  · split at h
    · cases h
    · rename_i read _
      cases hcheck : read.check with
      | error fault => simp [hcheck] at h
      | ok _ =>
          simp only [hcheck, Except.ok.injEq] at h
          exact h ▸ check_eq_ok_iff.1 hcheck

theorem usable_of_ofFile {host : Host} {path : String} {config : Config}
    (h : ofFile host path = .ok config) : config.Usable := by
  unfold ofFile at h
  split at h
  · cases h
  · split at h
    · cases h
    · exact usable_of_ofDocument h

theorem fileStep_eq (host : Host) (path : String) :
    fileStep host path =
      ⟨[.loadingConfig path], [], (ofFile host path).mapError Failure.config⟩ := by
  cases h : ofFile host path with
  | error fault | ok config =>
      rw [fileStep, h]
      rfl

/-- What finding settings comes to: the file that counts is read, or there is none. -/
theorem find_cases (host : Host) (explicit : Option String) (directory : String) :
    (∃ path, find host explicit directory = fileStep host path) ∨
      find host explicit directory = ⟨[.noConfig directory], [], .ok {}⟩ := by
  unfold find
  cases explicit with
  | some path => exact .inl ⟨path, rfl⟩
  | none =>
      dsimp only
      split
      · exact .inl ⟨_, rfl⟩
      · exact .inr rfl

variable {host : Host} {explicit : Option String} {directory : String}

theorem output_find : (find host explicit directory).output = [] := by
  obtain ⟨path, hfind⟩ | hfind := find_cases host explicit directory
  · rw [hfind, fileStep_eq]
  · rw [hfind]

/-- Settings are found by one reading that can fail, and only ever those that a run can
use. -/
theorem result_find : ∃ read : Except ConfigFault Config,
    (find host explicit directory).result = read.mapError Failure.config ∧
      ∀ config, read = .ok config → config.Usable := by
  obtain ⟨path, hfind⟩ | hfind := find_cases host explicit directory
  · refine ⟨ofFile host path, ?_, fun config => usable_of_ofFile⟩
    rw [hfind, fileStep_eq]
  · refine ⟨.ok {}, ?_, ?_⟩
    · rw [hfind]
      rfl
    · rintro config ⟨⟩
      exact usable_default

theorem usable_of_find {config : Config}
    (h : (find host explicit directory).result = .ok config) : config.Usable := by
  obtain ⟨read, hresult, husable⟩ := result_find
  rw [h] at hresult
  cases read with
  | error fault => cases hresult
  | ok found =>
      cases hresult
      exact husable config rfl

/-- Nothing but settings that cannot be used makes finding them fail. -/
theorem exists_fault_of_find {failure : Failure}
    (h : (find host explicit directory).result = .error failure) :
    ∃ fault, failure = .config fault := by
  obtain ⟨read, hresult, -⟩ := result_find
  rw [h] at hresult
  cases read with
  | error fault =>
      cases hresult
      exact ⟨fault, rfl⟩
  | ok found => cases hresult

end Config

end PromptDraw
