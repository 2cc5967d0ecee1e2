import PromptDraw.Text.Basic

/-!
Backslash escapes. A backslash pair is decoded when its second character is a
backslash, one of `n`, `t`, `r`, or a character that the place allows; any other
backslash stands for itself and the character after it is read afresh. Decoding
is total: no text is refused.
-/

namespace PromptDraw

namespace Text

/-- What a backslash followed by `c` stands for, where the characters of
`allowed` may be escaped beside the four standard ones. -/
def escaped? (allowed : List Char) (c : Char) : Option Char :=
  if c = '\\' then some '\\'
  else if c = 'n' then some '\n'
  else if c = 't' then some '\t'
  else if c = 'r' then some '\r'
  else if c ∈ allowed then some c
  else none

def decodeEscapes (allowed : List Char) : Text → Text
  | [] => []
  | [c] => [c]
  | c :: d :: s =>
    if c = '\\' then
      match escaped? allowed d with
      | some e => e :: decodeEscapes allowed s
      | none => c :: decodeEscapes allowed (d :: s)
    else
      c :: decodeEscapes allowed (d :: s)

/-- The characters that an item may escape: its braces and its comma. -/
def itemMarks : List Char := ['{', '}', ',']

/-- The characters that a separator may escape: its parentheses and its quotes. -/
def separatorMarks : List Char := ['(', ')', '\'', '"']

end Text

end PromptDraw
