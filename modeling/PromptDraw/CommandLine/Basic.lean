/-!
What a command line asks for, and the reasons for which it asks for nothing that
can be run.
-/

namespace PromptDraw

inductive CommandName where
  | expand
  | preview
  | tokens
deriving DecidableEq, Repr

namespace CommandName

def name : CommandName → String
  | expand => "expand"
  | preview => "preview"
  | tokens => "tokens"

def ofName? (name : String) : Option CommandName :=
  [expand, preview, tokens].find? fun command => command.name = name

end CommandName

/-- Where the prompt comes from and how the answer is printed. -/
structure PromptRequest where
  file : Option String := none
  text : Option String := none
  json : Bool := false
deriving DecidableEq, Repr

inductive Command where
  | expand (prompt : PromptRequest) (seed : Option UInt64) (batch : Option UInt32)
  | preview (prompt : PromptRequest)
  | tokens (prompt : PromptRequest)
deriving DecidableEq, Repr

namespace Command

def name : Command → CommandName
  | expand .. => .expand
  | preview _ => .preview
  | tokens _ => .tokens

def prompt : Command → PromptRequest
  | expand prompt .. | preview prompt | tokens prompt => prompt

end Command

structure Invocation where
  config : Option String
  /-- How often a more detailed log is asked for, at most 255 times. -/
  verbosity : Nat
  command : Command
deriving DecidableEq, Repr

/-- Why a command line asks for nothing that can be run. -/
inductive Usage where
  | help
  | nothingGiven
  /-- The version is asked for, of a command or of the whole program. -/
  | version (command : Option CommandName)
  | missingCommand
  | unknownCommand
  | unknownArgument
  /-- A value is missing or empty. -/
  | missingValue
  | malformedValue
  /-- Two arguments exclude each other, or one is given twice. -/
  | conflict
  | unwantedValue
deriving DecidableEq, Repr

namespace Usage

/-- Asking for help or for the version is no error. -/
def exitCode : Usage → Nat
  | help | version _ => 0
  | _ => 2

end Usage

end PromptDraw
