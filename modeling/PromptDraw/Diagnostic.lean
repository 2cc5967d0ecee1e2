import PromptDraw.Prompt.Findings
import PromptDraw.Text.Controls
import PromptDraw.Text.Quoted

/-!
The log of a run as data: what happened, from which part of the program it
comes, how severe it is, and its wording. A log is a list of diagnostics in the
order in which they arose.
-/

namespace PromptDraw

/-- Levels of severity, the most severe first. -/
inductive Level where
  | error
  | warn
  | info
  | debug
  | trace
deriving DecidableEq, Repr

namespace Level

def rank : Level → Nat
  | error => 1
  | warn => 2
  | info => 3
  | debug => 4
  | trace => 5

def name : Level → String
  | error => "ERROR"
  | warn => "WARN"
  | info => "INFO"
  | debug => "DEBUG"
  | trace => "TRACE"

end Level

inductive Diagnostic where
  | blockFound (o : Occurrence)
  | bracesSkipped (offset : Nat)
  | blockWithoutItems (o : Occurrence)
  | loadingConfig (path : String)
  | noConfig (directory : String)
  | promptRead (bytes : Nat)
  | expanding (batch seed : Nat)
  | nothingSubstituted
deriving DecidableEq, Repr

namespace Diagnostic

def level : Diagnostic → Level
  | blockFound _ => .trace
  | bracesSkipped _ | blockWithoutItems _ | noConfig _ | promptRead _ => .debug
  | loadingConfig _ | expanding .. | nothingSubstituted => .info

/-- The part of the program that an entry comes from. -/
def origin : Diagnostic → String
  | blockFound _ | bracesSkipped _ => "gacha::notation::scanner"
  | blockWithoutItems _ => "gacha::notation::expander"
  | loadingConfig _ | noConfig _ => "gacha::config::operations"
  | promptRead _ => "gacha::commands::input"
  | expanding .. | nothingSubstituted => "gacha::commands::render"

def span (o : Occurrence) : String :=
  toString o.start ++ ".." ++ toString o.stop

def optional : Option Text → String
  | none => "None"
  | some raw => "Some(" ++ String.ofList raw.quoted ++ ")"

def message : Diagnostic → String
  | blockFound o =>
    "token at " ++ span o ++ ": count=" ++ toString o.block.count ++ " separator=" ++
      optional o.block.rawSeparator
  | bracesSkipped offset =>
    "no token at offset " ++ toString offset ++ ", leaving text as-is"
  | blockWithoutItems o => "token at " ++ span o ++ " has no items, leaving it as written"
  | loadingConfig path => "loading config from " ++ path
  | noConfig directory => "no gacha.yaml in " ++ directory ++ ", using defaults"
  | promptRead bytes => "read " ++ toString bytes ++ " bytes of prompt text"
  | expanding batch seed =>
    "expanding " ++ toString batch ++ " prompt(s) with seed " ++ toString seed
  | nothingSubstituted => "no notation was substituted"

def line (d : Diagnostic) : String :=
  d.level.name ++ " " ++ d.origin ++ ": " ++ d.message

/-- An entry with its heading: the level fills five places, and the lines of a
message after its first are set in. -/
def headed (d : Diagnostic) : String :=
  let level := d.level.name
  "[" ++ level ++ String.ofList (List.replicate (5 - level.length) ' ') ++ " " ++ d.origin ++ "] " ++
    "\n    ".intercalate (d.message.splitOn "\n")

/-- What an entry adds to the error output: a line without control sequences. A
sequence that has not ended with the message hides the line feed too. -/
def terminalText (d : Diagnostic) : String :=
  String.ofList (Text.withoutControls (d.headed.toList ++ ['\n']))

end Diagnostic

namespace Finding

def diagnostic : Finding → Diagnostic
  | block o => .blockFound o
  | braces offset => .bracesSkipped offset

end Finding

namespace Text

def searchLog (s : Text) : List Diagnostic :=
  s.findings.map Finding.diagnostic

/-- The log of resolving a prompt. It is the same for every picker. -/
def resolutionLog (s : Text) : List Diagnostic :=
  s.findings.flatMap fun finding =>
    match finding with
    | .block o =>
      if o.block.outcome = .unchanged then [.blockFound o, .blockWithoutItems o]
      else [.blockFound o]
    | .braces offset => [.bracesSkipped offset]

end Text

end PromptDraw
