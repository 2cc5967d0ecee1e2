import PromptDraw.Proofs.Program.PromptInput
import PromptDraw.Proofs.Program.Steps

/-!
The limit on a prompt, said of the bytes that it comes as. Where they come from does not
matter, nor does what follows the first byte too many: it is enough for the refusal, and
it is the last byte that is looked at.
-/

namespace PromptDraw

namespace ByteStream

end ByteStream

namespace PromptInput

section Stream

variable {limit : Nat} {origin : PromptOrigin} {stream : ByteStream}

end Stream

end PromptInput

end PromptDraw
