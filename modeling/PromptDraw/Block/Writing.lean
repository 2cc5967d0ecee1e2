import PromptDraw.Block.Basic
import PromptDraw.Text.Quoted

/-!
Writing a block for given items, a count and a separator. The items and the
separator may be any texts: what would be taken for notation is escaped.
-/

namespace PromptDraw

namespace Text

/-- A character of an item as it is written in a block. -/
def itemChar (c : Char) : Text :=
  if c = '\\' ∨ c ∈ itemMarks then ['\\', c]
  else if c = '\n' then ['\\', 'n']
  else if c = '\t' then ['\\', 't']
  else if c = '\r' then ['\\', 'r']
  else [c]

/-- An item as it is written in a block, with a space behind it. -/
def writeItem (item : Text) : Text :=
  item.flatMap itemChar ++ [' ']

def separatorChar (c : Char) : Text :=
  if c = '\\' ∨ c ∈ separatorMarks then ['\\', c] else [c]

end Text

namespace Block

/-- A block with the given items, count and separator. -/
def ofItems (items : List Text) (count : Nat) (gap : Text) (quote : Quote) (separator : Text) :
    Block :=
  { content := [','].intercalate (items.map Text.writeItem)
    digits := Text.ofNat count
    clause := some ⟨gap, quote, separator.flatMap Text.separatorChar⟩ }

end Block

end PromptDraw
