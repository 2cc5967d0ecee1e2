import PromptDraw.CommandLine.Basic
import PromptDraw.Host.Basic
import PromptDraw.Run

/-!
Reading the prompt of a run from the command line, a file or the standard input.
A prompt that is too long is refused without being read beyond the first byte
too many, before anything is said about its encoding.
-/

namespace PromptDraw

namespace PromptInput

/-- The largest number of bytes that is ever asked of a stream. -/
def maxRead : Nat := UInt64.size - 1

def ofStream (limit : Nat) (origin : PromptOrigin) (stream : ByteStream) :
    Except Failure String :=
  let bytes := stream.take (min (limit + 1) maxRead)
  if bytes.size > limit then .error (.promptTooLarge limit)
  else (Utf8.decode bytes).mapError fun fault => .promptUnreadable origin (.encoding fault)

def ofText (limit : Nat) (text : String) : Except Failure String :=
  if text.utf8ByteSize > limit then .error (.promptTooLarge limit) else .ok text

def ofFile (host : Host) (limit : Nat) (path : String) : Except Failure String :=
  match host.read path with
  | .error fault => .error (.promptUnreadable (.file path) (.file fault))
  | .ok bytes => ofStream limit (.file path) (.ofBytes bytes)

/-- Whether a path names the standard input: it is a dash, behind which slashes
and the name `.` change nothing. -/
def namesInput (path : String) : Bool :=
  match path.splitOn "/" with
  | [] => false
  | name :: names => name == "-" && names.all fun name => name == "" || name == "."

def read (host : Host) (limit : Nat) (request : PromptRequest) : Except Failure String :=
  match request.text, request.file with
  | some text, _ => ofText limit text
  | none, some path =>
    if namesInput path then ofStream limit .standardInput host.standardInput
    else ofFile host limit path
  | none, none => ofStream limit .standardInput host.standardInput

def step (host : Host) (limit : Nat) (request : PromptRequest) : Run Text := do
  let text ← Run.lift (read host limit request)
  Run.record [.promptRead text.utf8ByteSize]
  return text.toList

end PromptInput

end PromptDraw
