import PromptDraw.Block.Grammar
import PromptDraw.Prompt.Pieces

/-!
Which blocks a prompt holds, stated without reading anything: the leftmost
correctly written one, then the leftmost one behind it, and so on.
-/

namespace PromptDraw

namespace Text

/-- A text in which no block starts before its last `rest.length` characters. -/
def NoneBefore (s rest : Text) : Prop :=
  ∀ gap inner after b, s = gap ++ inner → rest.length < inner.length → ¬Block.Starts b inner after

/-- The occurrences of blocks in a text that stands at `offset` of its prompt. -/
inductive Leftmost : (offset : Nat) → Text → List Occurrence → Prop where
  | none {offset : Nat} {s : Text} (absent : NoneBefore s []) : Leftmost offset s []
  | found {offset : Nat} {gap s rest : Text} {b : Block} {others : List Occurrence}
      (starts : b.Starts s rest) (leftmost : NoneBefore (gap ++ s) s)
      (others_leftmost : Leftmost (offset + gap.utf8Size + b.utf8Size) rest others) :
      Leftmost offset (gap ++ s) (⟨offset + gap.utf8Size, b⟩ :: others)

end Text

end PromptDraw
