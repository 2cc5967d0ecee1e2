import PromptDraw.Text.Escapes

/-!
Blocks: a list of alternatives between double braces, then in parentheses how
many of them to take and, optionally, the separator to join them with:

    {{red, blue, green}}(2, ", ")

A `Block` keeps every character of what was written, so `Block.text` gives the
written form back. The alternatives, the count and the separator that a block
stands for are derived from it in `PromptDraw.Block.Meaning`.
-/

namespace PromptDraw

/-- The quotes that may surround a separator. -/
inductive Quote where
  | single
  | double
deriving DecidableEq, Repr

namespace Quote

def char : Quote → Char
  | single => '\''
  | double => '"'

def ofChar? (c : Char) : Option Quote :=
  if c = '\'' then some single
  else if c = '"' then some double
  else none

theorem ofChar?_eq_some_iff {c : Char} {q : Quote} : ofChar? c = some q ↔ c = q.char := by
  unfold ofChar?
  by_cases hsingle : c = '\''
  · subst hsingle
    cases q <;> simp [char]
  · by_cases hdouble : c = '"'
    · subst hdouble
      cases q <;> simp [char]
    · cases q <;> simp [char, hsingle, hdouble]

end Quote

/-- What follows the count of a block: a comma, blank characters and a quoted
separator. -/
structure Clause where
  gap : Text
  quote : Quote
  /-- The separator as written, its escapes not yet decoded. -/
  body : Text
deriving DecidableEq, Repr

namespace Clause

def text (clause : Clause) : Text :=
  [','] ++ clause.gap ++ [clause.quote.char] ++ clause.body ++ [clause.quote.char]

end Clause

structure Block where
  /-- What stands between the braces, its escapes not yet decoded. -/
  content : Text
  digits : Text
  clause : Option Clause
deriving DecidableEq, Repr

namespace Block

def tailText (digits : Text) (clause : Option Clause) : Text :=
  ['}', '}', '('] ++ digits ++ (clause.map Clause.text).getD [] ++ [')']

/-- The written form of a block. -/
def text (b : Block) : Text :=
  ['{', '{'] ++ b.content ++ tailText b.digits b.clause

def utf8Size (b : Block) : Nat :=
  b.text.utf8Size

end Block

end PromptDraw
