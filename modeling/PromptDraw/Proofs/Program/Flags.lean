import PromptDraw.Proofs.Config.Location
import PromptDraw.Proofs.Program.Steps

/-!
What a flag says could as well be said by the settings. A command with flags runs like the
command without them under settings in which the seed, the batch and the format that were
given have taken the place of the others, whatever comes of reading the prompt. The two runs
need not have the same source of draws without a seed, so `expand` needs a seed, from a flag
or from the settings; a command that draws nothing needs none.
-/

namespace PromptDraw

theorem PromptInput.step_congr {host host' : Host} {limit limit' : Nat}
    {request request' : PromptRequest}
    (h : read host' limit' request' = read host limit request) :
    step host' limit' request' = step host limit request := by
  rw [step, step, h]

theorem Host.write_congr {host host' : Host} (h : host'.acceptsOutput = host.acceptsOutput) :
    host'.write = host.write := by
  funext answer
  rw [write, write, h]

namespace Command

/-- Two ways to run a command that come to the same prompt, and to the same format and the
same end of what is printed. -/
structure Alike (host host' : Host) (config config' : Config) (prompt prompt' : PromptRequest) :
    Prop where
  reads : PromptInput.read host' config'.maxInputBytes.toNat prompt' =
    PromptInput.read host config.maxInputBytes.toNat prompt
  format : prompt'.format config' = prompt.format config
  accepts : host'.acceptsOutput = host.acceptsOutput

section Alike

variable {host host' : Host} {config config' : Config} {prompt prompt' : PromptRequest}

theorem Alike.previewStep_eq (h : Alike host host' config config' prompt prompt') :
    previewStep host' config' prompt' = previewStep host config prompt := by
  rw [previewStep, previewStep, PromptInput.step_congr h.reads, h.format,
    Host.write_congr h.accepts]

theorem Alike.tokensStep_eq (h : Alike host host' config config' prompt prompt') :
    tokensStep host' config' prompt' = tokensStep host config prompt := by
  rw [tokensStep, tokensStep, PromptInput.step_congr h.reads, h.format,
    Host.write_congr h.accepts]

/-- A seed makes the source of other draws irrelevant. -/
theorem sourceStep_of_seed (host host' : Host) {seed : Option UInt64} (h : seed.isSome = true)
    (batch : Nat) : sourceStep host' seed batch = sourceStep host seed batch := by
  obtain ⟨seed, rfl⟩ := Option.isSome_iff_exists.1 h
  rfl

theorem Alike.expandStep_eq (h : Alike host host' config config' prompt prompt')
    {seed seed' : Option UInt64} {batch batch' : Option UInt32}
    (hseed : (seed' <|> config'.seed) = (seed <|> config.seed))
    (hfixed : (seed <|> config.seed).isSome = true)
    (hbatch : batch'.getD config'.batch = batch.getD config.batch) :
    expandStep host' config' prompt' seed' batch' = expandStep host config prompt seed batch := by
  rw [expandStep, expandStep, PromptInput.step_congr h.reads, h.format,
    Host.write_congr h.accepts, hseed, hbatch]
  simp only [sourceStep_of_seed host host' hfixed]

end Alike

def withoutFlags : Command → Command
  | expand prompt _ _ => expand { prompt with json := false } none none
  | preview prompt => preview { prompt with json := false }
  | tokens prompt => tokens { prompt with json := false }

/-- What a command draws is fixed by a flag or by the settings, if it draws at all. -/
def IsSeeded (config : Config) : Command → Prop
  | expand _ seed _ => (seed <|> config.seed).isSome = true
  | preview _ | tokens _ => True

/-- No flag asks for an empty batch. -/
def FlagsUsable : Command → Prop
  | expand _ _ batch => batch ≠ some 0
  | preview _ | tokens _ => True

end Command

namespace Config

/-- The settings with what the flags of a command say in the place of what they say. -/
def withFlags (config : Config) : Command → Config
  | .expand prompt seed batch =>
    { config with
      seed := seed <|> config.seed
      batch := batch.getD config.batch
      format := if prompt.json then .json else config.format }
  | .preview prompt | .tokens prompt =>
    { config with format := if prompt.json then .json else config.format }

theorem Usable.withFlags {config : Config} {command : Command} (h : config.Usable)
    (hflags : command.FlagsUsable) : (config.withFlags command).Usable := by
  cases command with
  | preview prompt | tokens prompt => exact ⟨h.batch, h.maxInputBytes⟩
  | expand prompt seed batch =>
      refine ⟨?_, h.maxInputBytes⟩
      cases batch with
      | none => exact h.batch
      | some batch => exact fun hzero => hflags (congrArg some hzero)

end Config

namespace Command

variable {host host' : Host} {config : Config} {command : Command}

theorem step_withoutFlags (hseed : command.IsSeeded config)
    (hreads : PromptInput.read host' config.maxInputBytes.toNat command.prompt =
      PromptInput.read host config.maxInputBytes.toNat command.prompt)
    (haccepts : host'.acceptsOutput = host.acceptsOutput) :
    command.withoutFlags.step host' (config.withFlags command) = command.step host config := by
  -- Without its flags a command reads the same prompt, and the format is now in the settings.
  cases command with
  | preview prompt => exact Alike.previewStep_eq ⟨hreads, rfl, haccepts⟩
  | tokens prompt => exact Alike.tokensStep_eq ⟨hreads, rfl, haccepts⟩
  | expand prompt seed batch => exact Alike.expandStep_eq ⟨hreads, rfl, haccepts⟩ rfl hseed rfl

theorem step_of_ne_expand (hname : command.name ≠ .expand)
    (hreads : PromptInput.read host' config.maxInputBytes.toNat command.prompt =
      PromptInput.read host config.maxInputBytes.toNat command.prompt)
    (haccepts : host'.acceptsOutput = host.acceptsOutput) (seed : Option UInt64) (batch : UInt32) :
    command.step host' { config with seed, batch } = command.step host config := by
  cases command with
  | preview prompt => exact Alike.previewStep_eq ⟨hreads, rfl, haccepts⟩
  | tokens prompt => exact Alike.tokensStep_eq ⟨hreads, rfl, haccepts⟩
  | expand prompt seed batch => exact absurd rfl hname

end Command

/-- Flags are equivalent to settings. Where the settings can be used, no flag asks for an
empty batch and the draws of `expand` are fixed by a seed, a command with flags does the same
as the command without them under settings with what the flags say in place, which can be
used too: it reads and fails alike, logs and prints the same and has the same result, even if
the two runs differ in all but the prompt they get and whether they can write. What `preview`
and `tokens` do does not depend on the seed and the batch of the settings at all. -/
theorem flags_equal_settings {host host' : Host} {config : Config} {command : Command}
    (hvalid : config.check = .ok ()) (hflags : command.FlagsUsable)
    (hseed : command.IsSeeded config)
    (hreads : PromptInput.read host' config.maxInputBytes.toNat command.prompt =
      PromptInput.read host config.maxInputBytes.toNat command.prompt)
    (haccepts : host'.acceptsOutput = host.acceptsOutput) :
    (config.withFlags command).check = .ok () ∧
      command.withoutFlags.step host' (config.withFlags command) = command.step host config ∧
      (command.name ≠ .expand → ∀ seed batch,
        command.step host' { config with seed, batch } = command.step host config) := by
  refine ⟨?_, Command.step_withoutFlags hseed hreads haccepts, ?_⟩
  · exact Config.check_eq_ok_iff.2 ((Config.check_eq_ok_iff.1 hvalid).withFlags hflags)
  · intro hname seed batch
    exact Command.step_of_ne_expand hname hreads haccepts seed batch

/-- Flags for the seed and the format, on hosts with different sources of draws. -/
theorem flags_equal_settings_seed_and_format :
    let host' : Host := { Host.bare with entropy := ⟨3, 5⟩ }
    let config : Config := { seed := some 5, batch := 2 }
    let prompt : PromptRequest := { text := some "{{a,b}}(1)", json := true }
    let command : Command := .expand prompt (some 9) none
    config.check = .ok () ∧ command.FlagsUsable ∧ command.IsSeeded config ∧
      PromptInput.read host' config.maxInputBytes.toNat command.prompt =
        PromptInput.read Host.bare config.maxInputBytes.toNat command.prompt ∧
      host'.acceptsOutput = Host.bare.acceptsOutput ∧
      (Command.expand { prompt with json := false } none none).step host'
        { config with seed := some 9, format := .json } = command.step Host.bare config := by
  intro host' config prompt command
  have hvalid : config.check = .ok () := rfl
  have hflags : command.FlagsUsable := by simp [command, Command.FlagsUsable]
  have hseed : command.IsSeeded config := rfl
  have hreads : PromptInput.read host' config.maxInputBytes.toNat command.prompt =
      PromptInput.read Host.bare config.maxInputBytes.toNat command.prompt := rfl
  have hsame := flags_equal_settings hvalid hflags hseed hreads rfl
  exact ⟨hvalid, hflags, hseed, hreads, rfl, hsame.2.1⟩

end PromptDraw
