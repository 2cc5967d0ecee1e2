import PromptDraw.Config.Document
import PromptDraw.Host.Basic
import PromptDraw.Run

/-!
Finding the settings of a run: those of a file that is named, or else those of
the file that a directory holds for this purpose, or else the defaults. A file
that is there but cannot be used is never passed over.
-/

namespace PromptDraw

namespace Config

def ofFile (host : Host) (path : String) : Except ConfigFault Config :=
  match host.read path with
  | .error fault => .error (.unreadable path fault)
  | .ok bytes =>
    match Utf8.decode bytes with
    | .error _ => .error (.notText path)
    | .ok document => ofDocument document.toList

def fileStep (host : Host) (path : String) : Run Config := do
  Run.record [.loadingConfig path]
  Run.lift ((ofFile host path).mapError Failure.config)

/-- Finds the settings of a run in a directory. -/
def find (host : Host) (explicit : Option String) (directory : String) : Run Config :=
  match explicit with
  | some path => fileStep host path
  | none =>
    let path := Host.join directory fileName
    match host.lookup path with
    | .ok (.file _) => fileStep host path
    | _ => do
      Run.record [.noConfig directory]
      return {}

end Config

end PromptDraw
