import Mathlib.Logic.ExistsUnique
import PromptDraw.Proofs.Config.Documents
import PromptDraw.Proofs.Program.PromptInput
import PromptDraw.Proofs.Program.Steps

/-!
Which file the settings of a run come from. A file that is named is the only one that
counts. Without one, the directory's own file counts as soon as it is a regular file,
whatever it holds; only where it is none do the defaults apply. What a file gives is what its
document comes to, so a document that is at fault is a failure and never the defaults.
-/

namespace PromptDraw

namespace Config

/-- What a path gives where settings are looked for. Only a file whose bytes are the
UTF-8 of a document gives what that document comes to. -/
inductive Reads (host : Host) (path : String) : Except ConfigFault Config → Prop where
  | document {text : String} {read : Except ConfigFault Config}
      (file : host.lookup path = .ok (.file text.toUTF8)) (meaning : Meaning text.toList read) :
      Reads host path read
  | notText {bytes : ByteArray} (file : host.lookup path = .ok (.file bytes))
      (notText : ∀ text : String, text.toUTF8 ≠ bytes) : Reads host path (.error (.notText path))
  | directory (directory : host.lookup path = .ok .directory) :
      Reads host path (.error (.unreadable path .isADirectory))
  | absent {fault : FileFault} (absent : host.lookup path = .error fault) :
      Reads host path (.error (.unreadable path fault))

variable {host : Host} {directory : String}

end Config

end PromptDraw
