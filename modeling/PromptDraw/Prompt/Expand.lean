import PromptDraw.Prompt.Resolve
import PromptDraw.Draw.Shuffle

/-!
Random expansion: each block takes the first of its candidates after shuffling
all of them, so that asking for every candidate gives them in a random order. A
batch of expansions draws from one source, one expansion after the other.
-/

namespace PromptDraw

variable {σ : Type} [IndexSource σ]

/-- Picks the first candidates after shuffling all of them. -/
def Picker.random : Picker σ :=
  fun candidates count => do
    let shuffled ← shuffle candidates
    return shuffled.take count

def Text.expand (s : Text) : StateM σ Text :=
  s.resolve Picker.random

namespace Resolution

def random (s : Text) : StateM σ Resolution := do
  let resolved ← s.expand
  return ⟨s, resolved⟩

/-- Expands a prompt `n` times from one source. -/
def batch (s : Text) : (n : Nat) → StateM σ (List Resolution)
  | 0 => pure []
  | n + 1 => do
    let record ← random s
    let records ← batch s n
    return record :: records

end Resolution

end PromptDraw
