import PromptDraw.CommandLine.Reader
import PromptDraw.Program.Execution

/-!
The program as a process: what it writes to its two outputs and the code that it
exits with. The log goes to the standard error, as far as its threshold lets it
through, and so does the failure that ends a run.
-/

namespace PromptDraw

namespace Level

/-- The least severe level that is shown, which the environment can set to a
level or to `off`. -/
def ofName? (name : String) : Option (Option Level) :=
  match name.toLower with
  | "off" => some none
  | "error" => some (some error)
  | "warn" => some (some warn)
  | "info" => some (some info)
  | "debug" => some (some debug)
  | "trace" => some (some trace)
  | _ => none

/-- The threshold that a number of requests for a more detailed log sets. -/
def ofVerbosity : Nat → Level
  | 0 => warn
  | 1 => info
  | 2 => debug
  | _ => trace

end Level

namespace Diagnostic

/-- Whether a threshold lets an entry through. -/
def passes (threshold : Option Level) (d : Diagnostic) : Bool :=
  threshold.any fun level => d.level.rank ≤ level.rank

end Diagnostic

structure ProcessResult where
  exitCode : Nat
  stdout : String
  stderr : String
deriving DecidableEq, Repr

namespace Console

/-- The threshold of the log. The environment has the last word. -/
def threshold (environment : Option String) (verbosity : Nat) : Option Level :=
  ((environment.filter (!·.isEmpty)).bind Level.ofName?).getD (some (Level.ofVerbosity verbosity))

/-- The name and the version of the program or of one of its commands. -/
def versionText (command : Option CommandName) : String :=
  match command with
  | none => "gacha 0.1.0\n"
  | some command => "gacha-" ++ command.name ++ " 0.1.0\n"

/-- Shows the version, if the output takes anything. -/
def version (host : Host) (command : Option CommandName) : ProcessResult :=
  ⟨0, if host.acceptsOutput then versionText command else "", ""⟩

def usageText : String :=
  "Usage: gacha [--config PATH] [-v]... COMMAND [FILE | --text TEXT] [--json]\n" ++
  "Commands: expand [--seed N] [--batch N], preview, tokens\n"

/-- Answers a command line that asks for nothing that can be run. -/
def refuse (host : Host) (usage : Usage) : ProcessResult :=
  match usage with
  | .version command => version host command
  | .help => ⟨usage.exitCode, if host.acceptsOutput then usageText else "", ""⟩
  | _ => ⟨usage.exitCode, "", usageText⟩

def run (host : Host) (environment : Option String) (invocation : Invocation) : ProcessResult :=
  let outcome := invocation.run host
  let log := outcome.log.filter (Diagnostic.passes (threshold environment invocation.verbosity))
  let logText := String.join (log.map Diagnostic.terminalText)
  let stdout := String.ofList outcome.output
  match outcome.result with
  | .ok () => ⟨0, stdout, logText⟩
  | .error failure =>
    ⟨failure.exitCode, stdout, logText ++ "Error: " ++ failure.render ++ "\n"⟩

end Console

end PromptDraw
