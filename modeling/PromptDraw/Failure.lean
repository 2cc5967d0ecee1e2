import PromptDraw.Text.Utf8

/-!
The ways in which a run can fail, each with the code that the program exits
with and the words that it prints.
-/

namespace PromptDraw

inductive FailureKind where
  /-- The arguments or the prompt cannot be used. -/
  | user
  | config
  | io
deriving DecidableEq, Repr

namespace FailureKind

def exitCode : FailureKind → Nat
  | user => 1
  | config => 2
  | io => 3

def render (kind : FailureKind) (message : String) : String :=
  match kind with
  | user => message
  | config => "Configuration error: " ++ message
  | io => "I/O error: " ++ message

end FailureKind

inductive FileFault where
  | notFound
  | notADirectory
  | isADirectory
  | nameTooLong
  /-- No file can be named by a path with a zero character in it. -/
  | zeroInName
deriving DecidableEq, Repr

def FileFault.message : FileFault → String
  | notFound => "No such file or directory (os error 2)"
  | notADirectory => "Not a directory (os error 20)"
  | isADirectory => "Is a directory (os error 21)"
  | nameTooLong => "File name too long (os error 36)"
  | zeroInName => "file name contained an unexpected NUL byte"

inductive ReadFault where
  | file (fault : FileFault)
  | encoding (fault : Utf8Fault)
deriving DecidableEq, Repr

def ReadFault.message : ReadFault → String
  | file fault => fault.message
  | encoding fault => fault.message

/-- Why settings cannot be used. -/
inductive ConfigFault where
  | unreadable (path : String) (fault : FileFault)
  | notText (path : String)
  | malformed
  | batchZero
  | maxInputBytesZero
deriving DecidableEq, Repr

def ConfigFault.message : ConfigFault → String
  | unreadable path fault => "failed to read config file '" ++ path ++ "': " ++ fault.message
  | notText path =>
    "failed to read config file '" ++ path ++ "': stream did not contain valid UTF-8"
  | malformed => "failed to parse config YAML"
  | batchZero => "config validation failed: batch must be greater than 0"
  | maxInputBytesZero => "config validation failed: max_input_bytes must be greater than 0"

inductive PromptOrigin where
  | file (path : String)
  | standardInput
deriving DecidableEq, Repr

def PromptOrigin.name : PromptOrigin → String
  | file path => "'" ++ path ++ "'"
  | standardInput => "stdin"

inductive Failure where
  | promptTooLarge (limit : Nat)
  | batchZero
  | config (fault : ConfigFault)
  | promptUnreadable (origin : PromptOrigin) (fault : ReadFault)
  | outputFull
deriving DecidableEq, Repr

namespace Failure

def kind : Failure → FailureKind
  | promptTooLarge _ | batchZero => .user
  | config _ => .config
  | promptUnreadable .. | outputFull => .io

def message : Failure → String
  | promptTooLarge limit => "input is larger than max_input_bytes (" ++ toString limit ++ ")"
  | batchZero => "--batch must be greater than 0"
  | config fault => fault.message
  | promptUnreadable origin fault => "failed to read " ++ origin.name ++ ": " ++ fault.message
  | outputFull => "failed to write output: No space left on device (os error 28)"

def render (failure : Failure) : String :=
  failure.kind.render failure.message

def exitCode (failure : Failure) : Nat :=
  failure.kind.exitCode

end Failure

end PromptDraw
