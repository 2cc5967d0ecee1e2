import PromptDraw.Program.Execution

/-!
What a run comes to, step by step: if the prompt cannot be had, nothing more takes
place; if it can, a command writes one report, unless it is asked for an empty batch.
-/

namespace PromptDraw

namespace PromptInput

theorem step_of_error {host : Host} {limit : Nat} {request : PromptRequest} {failure : Failure}
    (h : read host limit request = .error failure) :
    step host limit request = ⟨[], [], .error failure⟩ := by
  rw [step, h]
  rfl

theorem step_of_ok {host : Host} {limit : Nat} {request : PromptRequest} {text : String}
    (h : read host limit request = .ok text) :
    step host limit request = ⟨[.promptRead text.utf8ByteSize], [], .ok text.toList⟩ := by
  rw [step, h]
  rfl

theorem read_argument (host : Host) {limit : Nat} {text : String} (json : Bool)
    (h : text.utf8ByteSize ≤ limit) :
    read host limit { text := some text, json } = .ok text :=
  if_neg (Nat.not_lt_of_le h)

end PromptInput

namespace Host

/-- A host without files, on which the standard input is empty. -/
def bare : Host where
  directory := "/"
  lookup _ := .error .notFound
  standardInput := .ofBytes .empty
  acceptsOutput := true
  entropy := Generator.ofSeed 0

theorem accepts_bare : bare.acceptsOutput = true := rfl

theorem write_of_accepts {host : Host} (h : host.acceptsOutput = true) (answer : Text) :
    host.write answer = ⟨[], answer ++ ['\n'], .ok ()⟩ := by
  rw [write, if_pos h]
  rfl

theorem write_of_refuses {host : Host} (h : host.acceptsOutput = false) (answer : Text) :
    host.write answer = ⟨[], [], .error .outputFull⟩ := by
  rw [write, if_neg (by rw [h]; exact Bool.false_ne_true)]
  rfl

end Host

namespace Command

/-- The generator that a batch draws from: a seed fixes it. -/
def source (host : Host) (seed : Option UInt64) : Generator :=
  (seed.map Generator.ofSeed).getD host.entropy

/-- What a command reports on a prompt. -/
def report (host : Host) (config : Config) (text : Text) : Command → Text
  | expand prompt seed batch =>
    Resolution.renderBatch (prompt.format config)
      ((Resolution.batch text (batch.getD config.batch).toNat).run
        (source host (seed <|> config.seed))).1
  | preview prompt => (Resolution.preview text).render (prompt.format config)
  | tokens prompt => Report.renderAll (prompt.format config) text.reports

/-- A command that asks for a batch of no expansions. -/
def AsksForNone (config : Config) : Command → Prop
  | expand _ _ batch => batch.getD config.batch = 0
  | preview _ | tokens _ => False

theorem sourceStep_result (host : Host) (seed : Option UInt64) (batch : Nat) :
    (sourceStep host seed batch).result = .ok (source host seed) ∧
      (sourceStep host seed batch).output = [] := by
  cases seed with
  | none => exact ⟨rfl, rfl⟩
  | some seed => exact ⟨rfl, rfl⟩

/-- Every command reads the prompt before all else. -/
theorem step_eq_bind (host : Host) (config : Config) (command : Command) :
    ∃ answer : Text → Run Unit, command.step host config =
      PromptInput.step host config.maxInputBytes.toNat command.prompt >>= answer := by
  cases command with
  | expand prompt seed batch | preview prompt | tokens prompt => exact ⟨_, rfl⟩

variable {host : Host} {config : Config} {command : Command}

theorem step_of_unread {failure : Failure}
    (h : PromptInput.read host config.maxInputBytes.toNat command.prompt = .error failure) :
    command.step host config = ⟨[], [], .error failure⟩ := by
  obtain ⟨answer, hanswer⟩ := step_eq_bind host config command
  have hstep := PromptInput.step_of_error h
  rw [hanswer, Run.bind_of_error (by rw [hstep]), hstep]

theorem step_of_none {text : String}
    (h : PromptInput.read host config.maxInputBytes.toNat command.prompt = .ok text)
    (hnone : command.AsksForNone config) :
    (command.step host config).result = .error .batchZero ∧
      (command.step host config).output = [] := by
  cases command with
  | preview prompt | tokens prompt => exact hnone.elim
  | expand prompt seed batch =>
      have hstep : PromptInput.step host config.maxInputBytes.toNat prompt = _ :=
        PromptInput.step_of_ok h
      have hzero : (batch.getD config.batch).toNat = 0 := by rw [hnone]; rfl
      simp only [step, expandStep]
      rw [Run.bind_of_ok (by rw [hstep]), if_pos hzero, hstep]
      exact ⟨rfl, rfl⟩

theorem step_of_read {text : String}
    (h : PromptInput.read host config.maxInputBytes.toNat command.prompt = .ok text)
    (hsome : ¬command.AsksForNone config) :
    (command.step host config).result =
        (host.write (command.report host config text.toList)).result ∧
      (command.step host config).output =
        (host.write (command.report host config text.toList)).output := by
  cases command with
  | preview prompt | tokens prompt =>
      have hstep : PromptInput.step host config.maxInputBytes.toNat prompt = _ :=
        PromptInput.step_of_ok h
      simp only [step, previewStep, tokensStep]
      rw [Run.bind_of_ok (by rw [hstep]), hstep]
      exact ⟨rfl, rfl⟩
  | expand prompt seed batch =>
      have hstep : PromptInput.step host config.maxInputBytes.toNat prompt = _ :=
        PromptInput.step_of_ok h
      have hzero : ¬(batch.getD config.batch).toNat = 0 := by
        intro heq
        exact hsome (UInt32.toNat_inj.1 heq)
      obtain ⟨hsource, hsilent⟩ :=
        sourceStep_result host (seed <|> config.seed) (batch.getD config.batch).toNat
      simp only [step, expandStep]
      rw [Run.bind_of_ok (by rw [hstep]), if_neg hzero, hstep, Run.bind_of_ok hsource, hsilent]
      exact ⟨rfl, rfl⟩

end Command

end PromptDraw
