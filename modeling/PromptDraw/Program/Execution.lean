import PromptDraw.Config.Location
import PromptDraw.Program.PromptInput
import PromptDraw.Program.Answer
import PromptDraw.Prompt.Expand

/-!
Running what a command line asks for: find the settings, read the prompt, work
out the answer and write it, with a line feed behind it, in one piece. The first
of these that fails ends the run.
-/

namespace PromptDraw

namespace Host

def write (host : Host) (answer : Text) : Run Unit :=
  if host.acceptsOutput then Run.put (answer ++ ['\n']) else Run.fail .outputFull

end Host

namespace PromptRequest

def format (request : PromptRequest) (config : Config) : OutputFormat :=
  if request.json then .json else config.format

end PromptRequest

namespace Command

/-- The source of the draws of a batch: a seed fixes them. -/
def sourceStep (host : Host) (seed : Option UInt64) (batch : Nat) : Run Generator :=
  match seed with
  | some seed => do
    Run.record [.expanding batch seed.toNat]
    return Generator.ofSeed seed
  | none => return host.entropy

/-- Expands the prompt, once for each expansion of the batch. -/
def expandStep (host : Host) (config : Config) (prompt : PromptRequest) (seed : Option UInt64)
    (batch : Option UInt32) : Run Unit := do
  let text ← PromptInput.step host config.maxInputBytes.toNat prompt
  let batch := (batch.getD config.batch).toNat
  if batch = 0 then Run.fail .batchZero
  else do
    let source ← sourceStep host (seed <|> config.seed) batch
    let records := ((Resolution.batch text batch).run source).1
    Run.record (List.replicate batch text.resolutionLog).flatten
    Run.record (if records.all (!·.changed) then [.nothingSubstituted] else [])
    host.write (Resolution.renderBatch (prompt.format config) records)

def previewStep (host : Host) (config : Config) (prompt : PromptRequest) : Run Unit := do
  let text ← PromptInput.step host config.maxInputBytes.toNat prompt
  Run.record text.resolutionLog
  host.write ((Resolution.preview text).render (prompt.format config))

def tokensStep (host : Host) (config : Config) (prompt : PromptRequest) : Run Unit := do
  let text ← PromptInput.step host config.maxInputBytes.toNat prompt
  Run.record text.searchLog
  host.write (Report.renderAll (prompt.format config) text.reports)

def step (host : Host) (config : Config) : Command → Run Unit
  | expand prompt seed batch => expandStep host config prompt seed batch
  | preview prompt => previewStep host config prompt
  | tokens prompt => tokensStep host config prompt

end Command

def Invocation.run (host : Host) (invocation : Invocation) : Run Unit := do
  let config ← Config.find host invocation.config host.directory
  invocation.command.step host config

end PromptDraw
