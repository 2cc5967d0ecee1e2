import PromptDraw.Block.Basic

/-!
What a block stands for: its candidates, the number of them to take and the
separator that joins them.
-/

namespace PromptDraw

/-- The pieces of a text between its commas, where a comma directly after a
backslash does not divide. `escaped` tells whether the text itself directly
follows a backslash. There is always at least one piece. -/
def Text.segments (escaped : Bool) : Text → List Text
  | [] => [[]]
  | c :: s =>
    if c = ',' ∧ ¬escaped then [] :: segments false s
    else
      match segments (c == '\\') s with
      | [] => [[c]]
      | segment :: rest => (c :: segment) :: rest

/-- The items of a block's content as written. An empty piece after the last
comma is none. -/
def Text.rawItems (content : Text) : List Text :=
  let segments := content.segments false
  if segments.getLast? = some [] then segments.dropLast else segments

/-- An item without the layout around it and with its escapes decoded. -/
def Text.item (raw : Text) : Text :=
  (raw.trim isLayout).decodeEscapes itemMarks

/-- The items of a block's content that are not empty. -/
def Text.candidates (content : Text) : List Text :=
  (content.rawItems.map Text.item).filter (· ≠ [])

/-- What becomes of a block. -/
inductive Outcome where
  /-- Some of its candidates take its place. -/
  | substituted
  /-- It disappears, because none of its candidates is asked for. -/
  | empty
  /-- It stays as written, because it has no candidates. -/
  | unchanged
deriving DecidableEq, Repr

namespace Block

/-- The largest count that a block can ask for; larger numerals mean this. -/
def maxCount : Nat := UInt64.size - 1

def count (b : Block) : Nat :=
  min (Nat.ofDigitChars 10 b.digits 0) maxCount

def candidates (b : Block) : List Text :=
  b.content.candidates

def rawSeparator (b : Block) : Option Text :=
  b.clause.map Clause.body

/-- What stands between the items that take the place of a block: a space
unless the block says otherwise. -/
def separator (b : Block) : Text :=
  match b.rawSeparator with
  | some raw => raw.decodeEscapes Text.separatorMarks
  | none => [' ']

def outcome (b : Block) : Outcome :=
  if b.candidates = [] then .unchanged
  else if b.count = 0 then .empty
  else .substituted

end Block

end PromptDraw
