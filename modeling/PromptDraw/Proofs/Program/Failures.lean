import PromptDraw.Proofs.Config.Location
import PromptDraw.Proofs.Program.PromptInput
import PromptDraw.Proofs.Program.Steps

/-!
How a run ends. It fails with the first thing that is wrong: the settings, then the
prompt, then an empty batch that was asked for; what is wrong later does not show. A run
that fails has written nothing, and any other writes one report, unless the output takes
nothing, which is found out last of all.
-/

namespace PromptDraw

namespace Invocation

/-- The settings that a run works with. -/
def Finds (host : Host) (invocation : Invocation) (config : Config) : Prop :=
  (Config.find host invocation.config host.directory).result = .ok config

/-- What a run fails with before it writes, and of which kind that is. Each case says
of the things asked for before that they were there. -/
inductive StopsWith (host : Host) (invocation : Invocation) : FailureKind → Failure → Prop where
  | settings {failure : Failure}
      (unfound : (Config.find host invocation.config host.directory).result = .error failure) :
      StopsWith host invocation .config failure
  | prompt {config : Config} {kind : FailureKind} {failure : Failure}
      (found : invocation.Finds host config)
      (refused : PromptInput.Refuses host config.maxInputBytes.toNat invocation.command.prompt
        kind failure) :
      StopsWith host invocation kind failure
  | emptyBatch {config : Config} {text : String} {request : PromptRequest} {seed : Option UInt64}
      (found : invocation.Finds host config)
      (given : PromptInput.Gives host config.maxInputBytes.toNat invocation.command.prompt text)
      (asked : invocation.command = .expand request seed (some 0)) :
      StopsWith host invocation .user .batchZero

/-- The report of a run that has everything that it asks for. -/
inductive Answers (host : Host) (invocation : Invocation) : Text → Prop where
  | report {config : Config} {text : String} (found : invocation.Finds host config)
      (given : PromptInput.Gives host config.maxInputBytes.toNat invocation.command.prompt text)
      (asked : ∀ request seed, invocation.command ≠ .expand request seed (some 0)) :
      Answers host invocation (invocation.command.report host config text.toList)

/-- Whatever the settings are, the prompt can be told from a longer one. -/
def Countable (host : Host) (invocation : Invocation) : Prop :=
  ∀ config, invocation.Finds host config →
    PromptInput.Countable host config.maxInputBytes.toNat invocation.command.prompt

variable {host : Host} {invocation : Invocation}

theorem run_of_unfound {failure : Failure}
    (h : (Config.find host invocation.config host.directory).result = .error failure) :
    (invocation.run host).result = .error failure ∧ (invocation.run host).output = [] := by
  rw [run, Run.bind_of_error h]
  exact ⟨rfl, Config.output_find⟩

theorem run_of_finds {config : Config} (h : invocation.Finds host config) :
    (invocation.run host).result = (invocation.command.step host config).result ∧
      (invocation.run host).output = (invocation.command.step host config).output := by
  rw [run, Run.bind_of_ok h, Config.output_find]
  exact ⟨rfl, rfl⟩

theorem limit_le (config : Config) : config.maxInputBytes.toNat ≤ PromptInput.maxRead :=
  Nat.le_sub_one_of_lt config.maxInputBytes.toNat_lt

/-- Settings never ask for an empty batch; only the command line does. -/
theorem asksForNone_iff {config : Config} (h : invocation.Finds host config) :
    invocation.command.AsksForNone config ↔
      ∃ request seed, invocation.command = .expand request seed (some 0) := by
  have husable := Config.usable_of_find h
  cases hcommand : invocation.command with
  | preview request | tokens request => simp [Command.AsksForNone]
  | expand request seed batch =>
      cases batch with
      | none => simp [Command.AsksForNone, husable.batch]
      | some batch => simp [Command.AsksForNone]

theorem run_of_stopsWith {kind : FailureKind} {failure : Failure}
    (h : invocation.StopsWith host kind failure) (hcount : invocation.Countable host) :
    (invocation.run host).result = .error failure ∧ (invocation.run host).output = [] := by
  cases h with
  | settings unfound => exact run_of_unfound unfound
  | prompt found refused =>
      obtain ⟨hresult, houtput⟩ := run_of_finds found
      have hread := PromptInput.read_of_refuses refused (limit_le _) (hcount _ found)
      rw [hresult, houtput, Command.step_of_unread hread]
      exact ⟨rfl, rfl⟩
  | emptyBatch found given asked =>
      obtain ⟨hresult, houtput⟩ := run_of_finds found
      have hread := PromptInput.read_of_gives given (limit_le _)
      rw [hresult, houtput]
      exact Command.step_of_none hread ((asksForNone_iff found).2 ⟨_, _, asked⟩)

theorem run_of_answers {answer : Text} (h : invocation.Answers host answer) :
    (invocation.run host).result = (host.write answer).result ∧
      (invocation.run host).output = (host.write answer).output := by
  obtain ⟨found, given, asked⟩ := h
  obtain ⟨hresult, houtput⟩ := run_of_finds found
  have hread := PromptInput.read_of_gives given (limit_le _)
  rw [hresult, houtput]
  refine Command.step_of_read hread fun hnone => ?_
  obtain ⟨request, seed, hcommand⟩ := (asksForNone_iff found).1 hnone
  exact asked request seed hcommand

theorem answers_or_stops (host : Host) (invocation : Invocation) :
    (∃ answer, invocation.Answers host answer) ∨
      ∃ kind failure, invocation.StopsWith host kind failure := by
  cases hfind : (Config.find host invocation.config host.directory).result with
  | error failure => exact .inr ⟨_, _, .settings hfind⟩
  | ok config =>
      obtain ⟨text, hgives⟩ | ⟨kind, failure, hrefuses⟩ := PromptInput.gives_or_refuses host
        config.maxInputBytes.toNat invocation.command.prompt
      · by_cases hnone : invocation.command.AsksForNone config
        · obtain ⟨request, seed, hcommand⟩ := (asksForNone_iff hfind).1 hnone
          exact .inr ⟨_, _, .emptyBatch hfind hgives hcommand⟩
        · refine .inl ⟨_, .report hfind hgives fun request seed hcommand => ?_⟩
          exact hnone ((asksForNone_iff hfind).2 ⟨request, seed, hcommand⟩)
      · exact .inr ⟨_, _, .prompt hfind hrefuses⟩

theorem kind_of_stopsWith {kind : FailureKind} {failure : Failure}
    (h : invocation.StopsWith host kind failure) : failure.kind = kind := by
  cases h with
  | settings unfound =>
      obtain ⟨fault, rfl⟩ := Config.exists_fault_of_find unfound
      rfl
  | prompt found refused => cases refused <;> rfl
  | emptyBatch found given asked => rfl

section Output

variable (accepts : Bool)

/-- Whether the output takes anything is no matter to all that comes before. -/
theorem StopsWith.output {kind : FailureKind} {failure : Failure}
    (h : invocation.StopsWith host kind failure) :
    invocation.StopsWith { host with acceptsOutput := accepts } kind failure := by
  cases h with
  | settings unfound => exact .settings unfound
  | emptyBatch found given asked => exact .emptyBatch found given asked
  | prompt found refused =>
      refine .prompt found ?_
      cases refused with
      | tooLarge source exceeds => exact .tooLarge source exceeds
      | unreadable source => exact .unreadable source
      | notText source holds fits notText decodes =>
          exact .notText source holds fits notText decodes

theorem Answers.output {answer : Text} (h : invocation.Answers host answer) :
    invocation.Answers { host with acceptsOutput := accepts } answer := by
  obtain ⟨found, given, asked⟩ := h
  exact .report found given asked

theorem Countable.output (h : invocation.Countable host) :
    invocation.Countable { host with acceptsOutput := accepts } := h

end Output

/-- A run that has everything writes its report, and finds out last of all that the
output takes nothing. -/
theorem Answers.runs {answer : Text} (h : invocation.Answers host answer) :
    let accepting := invocation.run { host with acceptsOutput := true }
    let refusing := invocation.run { host with acceptsOutput := false }
    accepting.result = .ok () ∧ accepting.output = answer ++ ['\n'] ∧
      refusing.result = .error .outputFull ∧ refusing.output = [] := by
  intro accepting refusing
  obtain ⟨hresult, houtput⟩ := run_of_answers (h.output true)
  obtain ⟨hresult', houtput'⟩ := run_of_answers (h.output false)
  rw [Host.write_of_accepts rfl] at hresult houtput
  rw [Host.write_of_refuses rfl] at hresult' houtput'
  exact ⟨hresult, houtput, hresult', houtput'⟩

/-- A run that stops before it writes never comes to the output. -/
theorem StopsWith.runs {kind : FailureKind} {failure : Failure}
    (h : invocation.StopsWith host kind failure) (hcount : invocation.Countable host) :
    let accepting := invocation.run { host with acceptsOutput := true }
    let refusing := invocation.run { host with acceptsOutput := false }
    accepting.result = .error failure ∧ accepting.output = [] ∧
      refusing.result = .error failure ∧ refusing.output = [] := by
  intro accepting refusing
  obtain ⟨hresult, houtput⟩ := run_of_stopsWith (h.output true) (hcount.output true)
  obtain ⟨hresult', houtput'⟩ := run_of_stopsWith (h.output false) (hcount.output false)
  exact ⟨hresult, houtput, hresult', houtput'⟩

/-- Failures come in order and leave no output. Settings, prompt and batch are checked
in this order; the first that is wrong gives the failure, and nothing is written. Only
an empty batch asked for on the command line is wrong, never one of the settings. With
nothing wrong, one report and a line feed are written. If the output takes nothing, just
the runs that would have written fail otherwise, and these with the output. -/
theorem run_stops_at_first_failure (hcount : invocation.Countable host) :
    let accepting := invocation.run { host with acceptsOutput := true }
    let refusing := invocation.run { host with acceptsOutput := false }
    ((∃ answer, invocation.Answers host answer ∧
        accepting.result = .ok () ∧ accepting.output = answer ++ ['\n'] ∧
        refusing.result = .error .outputFull) ∨
      ∃ kind failure, invocation.StopsWith host kind failure ∧
        accepting.result = .error failure ∧ accepting.output = [] ∧
        refusing.result = .error failure) ∧
    refusing.output = [] ∧
    (∀ answer, invocation.Answers host answer → accepting.result = .ok ()) ∧
    (∀ kind failure, invocation.StopsWith host kind failure →
      accepting.result = .error failure ∧ failure.kind = kind) ∧
    Failure.outputFull.kind = .io ∧
    ∀ failure : Failure, failure.exitCode =
      match failure.kind with
      | .user => 1
      | .config => 2
      | .io => 3 := by
  intro accepting refusing
  refine ⟨?_, ?_, ?_, ?_, rfl, ?_⟩
  · obtain ⟨answer, h⟩ | ⟨kind, failure, h⟩ := answers_or_stops host invocation
    · obtain ⟨hresult, houtput, hresult', -⟩ := h.runs
      exact .inl ⟨answer, h, hresult, houtput, hresult'⟩
    · obtain ⟨hresult, houtput, hresult', -⟩ := h.runs hcount
      exact .inr ⟨kind, failure, h, hresult, houtput, hresult'⟩
  · obtain ⟨answer, h⟩ | ⟨kind, failure, h⟩ := answers_or_stops host invocation
    · obtain ⟨-, -, -, houtput'⟩ := h.runs
      exact houtput'
    · obtain ⟨-, -, -, houtput'⟩ := h.runs hcount
      exact houtput'
  · intro answer h
    obtain ⟨hresult, -⟩ := h.runs
    exact hresult
  · intro kind failure h
    obtain ⟨hresult, -⟩ := h.runs hcount
    exact ⟨hresult, kind_of_stopsWith h⟩
  · intro failure
    rw [Failure.exitCode]
    cases failure.kind with
    | user | config | io => rfl

/-- An endless input is refused before the empty batch that is asked for as well. -/
theorem run_stops_at_first_failure_endless_input :
    let host : Host := { Host.bare with standardInput := ⟨fun _ => some 65⟩ }
    let invocation : Invocation := ⟨none, 0, .expand {} none (some 0)⟩
    invocation.Countable host ∧
      (invocation.run { host with acceptsOutput := true }).result =
        .error (.promptTooLarge 1048576) := by
  intro host invocation
  have hfound : invocation.Finds host {} := rfl
  have hcount : invocation.Countable host := by
    intro config hconfig stream _ _
    obtain rfl : {} = config := Except.ok.inj (hfound.symm.trans hconfig)
    decide
  have hsource : invocation.command.prompt.stream host = .ok ⟨fun _ => some 65⟩ := rfl
  have hstops : invocation.StopsWith host .user (.promptTooLarge 1048576) :=
    .prompt hfound (.tooLarge hsource fun _ _ => Option.some_ne_none _)
  exact ⟨hcount, ((run_stops_at_first_failure hcount).2.2.2.1 _ _ hstops).1⟩

end Invocation

end PromptDraw
