import PromptDraw.Failure
import PromptDraw.Draw.Generator

/-!
What a run meets outside the program: the files that paths lead to, the standard
input, whether the standard output takes anything, and a generator for draws
without a seed. A run can only ask and never change it.
-/

namespace PromptDraw

/-- Bytes that come one after the other, up to the first position that has none.
There need not be such a position. -/
structure ByteStream where
  byte? : (position : Nat) → Option UInt8

namespace ByteStream

def ofBytes (bytes : ByteArray) : ByteStream :=
  ⟨fun position => bytes[position]?⟩

/-- Appends to `read` the bytes from a position on, at most `limit` of them. -/
def collect (stream : ByteStream) (position : Nat) (read : ByteArray) : (limit : Nat) → ByteArray
  | 0 => read
  | limit + 1 =>
    match stream.byte? position with
    | none => read
    | some byte => collect stream (position + 1) (read.push byte) limit

def take (stream : ByteStream) (limit : Nat) : ByteArray :=
  stream.collect 0 .empty limit

end ByteStream

inductive FileBody where
  | file (bytes : ByteArray)
  | directory

/-- The surroundings of a run. -/
structure Host where
  directory : String
  lookup : (path : String) → Except FileFault FileBody
  standardInput : ByteStream
  acceptsOutput : Bool
  /-- The source of draws that no seed fixes. -/
  entropy : Generator

namespace Host

def read (host : Host) (path : String) : Except FileFault ByteArray := do
  match ← host.lookup path with
  | .file bytes => .ok bytes
  | .directory => .error .isADirectory

def join (directory name : String) : String :=
  if directory.isEmpty || directory.endsWith "/" then directory ++ name
  else directory ++ "/" ++ name

end Host

end PromptDraw
