import PromptDraw.Program.Console

/-!
The program itself: it reads what the command line names, hands it to
`PromptDraw.Console` and writes what comes back. Nothing is decided here.
-/

open PromptDraw

namespace PromptDraw.Main

/-- Reads a stream to its end, or to `limit` bytes. -/
partial def readUpTo (read : USize → IO ByteArray) (limit : Nat) (done : ByteArray) :
    IO ByteArray := do
  if limit ≤ done.size then return done
  let bytes ← read (USize.ofNat (min 65536 (limit - done.size)))
  if bytes.isEmpty then return done
  readUpTo read limit (done ++ bytes)

/-- What stands at a path; of a file no more than `limit` bytes are read. -/
def bodyAt (limit : Nat) (path : String) : IO (Except FileFault FileBody) := do
  let handle ←
    try
      let handle ← IO.FS.Handle.mk path .read
      pure (Except.ok handle)
    catch
      | .inappropriateType .. => pure (.error FileFault.notADirectory)
      | .invalidArgument .. => pure (.error FileFault.nameTooLong)
      | _ => pure (.error FileFault.notFound)
  match handle with
  | .error fault => return .error fault
  | .ok handle =>
    try
      let bytes ← readUpTo handle.read limit .empty
      return .ok (.file bytes)
    catch
      | _ => return .ok .directory

/-- The answers to the questions that a run may ask about some paths. -/
def lookupAmong (answers : List (String × Except FileFault FileBody)) (path : String) :
    Except FileFault FileBody :=
  match answers.find? fun answer => answer.1 == path with
  | some (_, body) => body
  | none => .error .notFound

/-- Gathers what a run needs: the settings first, because they limit the size of
the prompt. -/
def gather (invocation : Invocation) (base : Host) : IO Host := do
  let configPath := invocation.config.getD (Host.join base.directory Config.fileName)
  let settings := [(configPath, ← bodyAt PromptInput.maxRead configPath)]
  let host := { base with lookup := lookupAmong settings }
  match (Config.find host invocation.config base.directory).result with
  | .error _ => return host
  | .ok config =>
    let limit := config.maxInputBytes.toNat + 1
    match invocation.command.prompt.text, invocation.command.prompt.file with
    | some _, _ => return host
    | none, some path =>
      if PromptInput.namesInput path then withInput host limit
      else return { host with lookup := lookupAmong (settings ++ [(path, ← bodyAt limit path)]) }
    | none, none => withInput host limit
where
  /-- Adds the standard input. -/
  withInput (host : Host) (limit : Nat) : IO Host := do
    let stdin ← IO.getStdin
    return { host with standardInput := .ofBytes (← readUpTo stdin.read limit .empty) }

/-- Writes what a run leaves behind. An output that takes nothing is found out by
writing to it, and the run is then told so. -/
def deliver (run : Host → ProcessResult) (host : Host) : IO UInt32 := do
  let result := run host
  let result ←
    try
      let stdout ← IO.getStdout
      stdout.putStr result.stdout
      stdout.flush
      pure result
    catch
      | _ => pure (run { host with acceptsOutput := false })
  IO.eprint result.stderr
  return UInt32.ofNat result.exitCode

end PromptDraw.Main

def main (words : List String) : IO UInt32 := do
  let seed := (← IO.getRandomBytes 8).toList.foldl (fun seed byte => seed * 256 + byte.toUInt64) 0
  let base : Host :=
    { directory := (← IO.currentDir).toString
      lookup := fun _ => .error .notFound
      standardInput := .ofBytes .empty
      acceptsOutput := true
      entropy := Generator.ofSeed seed }
  match Invocation.ofWords words with
  | .error usage => PromptDraw.Main.deliver (Console.refuse · usage) base
  | .ok invocation =>
    let environment ← IO.getEnv "RUST_LOG"
    let host ← PromptDraw.Main.gather invocation base
    PromptDraw.Main.deliver (Console.run · environment invocation) host
