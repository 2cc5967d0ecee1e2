import PromptDraw.Prompt.Pieces

/-!
What a search of a prompt for blocks meets, in order: the blocks, and the places
where two braces open but no block can be read. A `Cursor` stops at each block in turn, so
that a consumer can take blocks one by one.
-/

namespace PromptDraw

inductive Finding where
  | block (o : Occurrence)
  /-- Two braces open at `offset` without starting a block. -/
  | braces (offset : Nat)
deriving DecidableEq, Repr

namespace Piece

def opensBrace : List Piece → Bool
  | char c :: _ => c == '{'
  | block _ :: _ => true
  | [] => false

/-- What a search of some pieces meets, the first piece standing at `offset`. -/
def findings (offset : Nat) : List Piece → List Finding
  | [] => []
  | block b :: rest => .block ⟨offset, b⟩ :: findings (offset + b.utf8Size) rest
  | char c :: rest =>
    if c = '{' ∧ opensBrace rest then .braces offset :: findings (offset + c.utf8Size) rest
    else findings (offset + c.utf8Size) rest

end Piece

def Text.findings (s : Text) : List Finding :=
  Piece.findings 0 s.pieces

structure Cursor where
  offset : Nat
  rest : Text
deriving DecidableEq, Repr

namespace Cursor

def ofText (s : Text) : Cursor := ⟨0, s⟩

/-- The first block at or after an offset with the cursor behind it, and the
offsets of the braces passed over on the way. -/
def seek (offset : Nat) : Text → List Nat × Option Occurrence × Cursor
  | [] => ([], none, ⟨offset, []⟩)
  | c :: s =>
    match Block.read? (c :: s) with
    | some (b, rest) => ([], some ⟨offset, b⟩, ⟨offset + b.utf8Size, rest⟩)
    | none =>
      let (skipped, found, cursor) := seek (offset + c.utf8Size) s
      (if c = '{' ∧ s.head? = some '{' then offset :: skipped else skipped, found, cursor)

/-- Takes the next block: what is met up to it, the block if there is one, and
the cursor behind it. -/
def next (cursor : Cursor) : List Finding × Option Occurrence × Cursor :=
  let (skipped, found, cursor) := seek cursor.offset cursor.rest
  (skipped.map .braces ++ (found.map .block).toList, found, cursor)

def takeAll (cursor : Cursor) : List Finding × List Occurrence × Cursor :=
  let pieces := cursor.rest.pieces
  (Piece.findings cursor.offset pieces, Piece.occurrences cursor.offset pieces,
    ⟨cursor.offset + cursor.rest.utf8Size, []⟩)

end Cursor

end PromptDraw
