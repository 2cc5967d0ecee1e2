import PromptDraw.Text.Escapes

/-!
The ways to write a text with escapes, stated without decoding anything. A
backslash is always doubled; every other character may stand as it is, and some
may also be escaped.
-/

namespace PromptDraw

namespace Text

/-- The ways to write one character where those of `allowed` may be escaped. -/
inductive EncodesChar (allowed : List Char) : Text → Char → Prop where
  | backslash : EncodesChar allowed ['\\', '\\'] '\\'
  | plain {c : Char} (h : c ≠ '\\') : EncodesChar allowed [c] c
  | escaped {c : Char} (h : c ∈ allowed) : EncodesChar allowed ['\\', c] c
  | newline : EncodesChar allowed ['\\', 'n'] '\n'
  | tab : EncodesChar allowed ['\\', 't'] '\t'
  | carriageReturn : EncodesChar allowed ['\\', 'r'] '\r'

/-- The ways to write a text, each of its characters in one of its ways. -/
inductive Encodes (allowed : List Char) : Text → Text → Prop where
  | nil : Encodes allowed [] []
  | cons {written s t : Text} {c : Char} (char : EncodesChar allowed written c)
      (rest : Encodes allowed s t) : Encodes allowed (written ++ s) (c :: t)

end Text

end PromptDraw
