import PromptDraw.Block.Basic

/-!
Which blocks are written correctly, stated without reading anything. A content
may hold a brace only directly behind a backslash, a count has digits, and the
body of a separator goes up to the first quote, between two of its units, that a
closing parenthesis follows.
-/

namespace PromptDraw

def Text.IsBrace (c : Char) : Prop := c = '{' ∨ c = '}'

/-- A content, of which `escaped` says whether it stands directly behind a
backslash. So does every brace in it. -/
inductive Text.IsContent : (escaped : Bool) → Text → Prop where
  | nil {escaped : Bool} : IsContent escaped []
  | cons {escaped : Bool} {c : Char} {s : Text} (brace : IsBrace c → escaped = true)
      (rest : IsContent (c == '\\') s) : IsContent escaped (c :: s)

/-- The body of a separator between quotes. Its units are a backslash with the
character behind it, and any other single character. No quote that is a unit of
its own is followed by a closing parenthesis. -/
inductive Clause.IsBody (quote : Char) : Text → Prop where
  | nil : IsBody quote []
  | pair {c : Char} {s : Text} (rest : IsBody quote s) : IsBody quote ('\\' :: c :: s)
  | single {c : Char} {s : Text} (unescaped : c ≠ '\\')
      (stays : c = quote → s.head? ≠ some ')') (rest : IsBody quote s) : IsBody quote (c :: s)

structure Clause.WellFormed (clause : Clause) : Prop where
  gap : ∀ c ∈ clause.gap, Text.isBlank c = true
  body : IsBody clause.quote.char clause.body

structure Block.WellFormed (b : Block) : Prop where
  content : Text.IsContent false b.content
  digits_ne_nil : b.digits ≠ []
  digits : ∀ c ∈ b.digits, c.isDigit = true
  clause : ∀ clause ∈ b.clause, clause.WellFormed

/-- A text that starts with a correctly written block, behind which `rest`
follows. -/
def Block.Starts (b : Block) (s rest : Text) : Prop :=
  b.WellFormed ∧ s = b.text ++ rest

end PromptDraw
