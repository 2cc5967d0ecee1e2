import PromptDraw.Prompt.Pieces

/-!
Resolving a prompt: each block gives way to items that a `Picker` takes from its
candidates, and everything else is copied. A picker may keep a state, which is
handed from block to block in the order of the prompt; it is asked only about
blocks that have candidates and want some of them. Text that takes the place of a
block is not searched for blocks again.
-/

namespace PromptDraw

/-- A way to pick items: from the candidates and the number wanted to the items
picked. -/
abbrev Picker (σ : Type) := List Text → Nat → StateM σ (List Text)

namespace Picker

/-- Picks the first candidates, in the order in which they are written. -/
def first : Picker Unit :=
  fun candidates count => pure (candidates.take count)

end Picker

variable {σ : Type}

def Block.resolve (picker : Picker σ) (b : Block) : StateM σ Text :=
  match b.outcome with
  | .unchanged => pure b.text
  | .empty => pure []
  | .substituted => do
    let items ← picker b.candidates b.count
    return b.separator.intercalate items

namespace Piece

def resolve (picker : Picker σ) : Piece → StateM σ Text
  | char c => pure [c]
  | block b => b.resolve picker

def resolveAll (picker : Picker σ) : List Piece → StateM σ Text
  | [] => pure []
  | piece :: rest => do
    let text ← piece.resolve picker
    let texts ← resolveAll picker rest
    return text ++ texts

end Piece

namespace Text

def resolve (picker : Picker σ) (s : Text) : StateM σ Text :=
  Piece.resolveAll picker s.pieces

/-- Resolves a prompt without drawing: each block takes its first candidates. -/
def preview (s : Text) : Text :=
  (s.resolve Picker.first |>.run ()).1

end Text

structure Resolution where
  prompt : Text
  resolved : Text
deriving DecidableEq, Repr

namespace Resolution

def changed (e : Resolution) : Bool :=
  e.prompt ≠ e.resolved

def preview (s : Text) : Resolution :=
  ⟨s, s.preview⟩

end Resolution

end PromptDraw
