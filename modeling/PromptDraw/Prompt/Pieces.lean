import PromptDraw.Block.Reader
import PromptDraw.Block.Meaning

/-!
A prompt is a sequence of pieces: the blocks it holds, and the characters that
belong to none. Blocks are found from left to right; where no block can be read,
one character is passed over and the search goes on behind it. The pieces hold
every character of the prompt, and no piece is ever read a second time.
-/

namespace PromptDraw

inductive Piece where
  /-- A character outside all blocks. -/
  | char (c : Char)
  | block (b : Block)
deriving DecidableEq, Repr

/-- A block and the offset in bytes at which it stands in its prompt. -/
structure Occurrence where
  start : Nat
  block : Block
deriving DecidableEq, Repr

def Occurrence.stop (o : Occurrence) : Nat :=
  o.start + o.block.utf8Size

namespace Piece

def text : Piece → Text
  | char c => [c]
  | block b => b.text

def utf8Size (p : Piece) : Nat :=
  p.text.utf8Size

def textOf (pieces : List Piece) : Text :=
  pieces.flatMap text

/-- The blocks among some pieces, the first piece standing at `offset`. -/
def occurrences (offset : Nat) : List Piece → List Occurrence
  | [] => []
  | block b :: rest => ⟨offset, b⟩ :: occurrences (offset + b.utf8Size) rest
  | char c :: rest => occurrences (offset + c.utf8Size) rest

end Piece

namespace Text

def pieces (s : Text) : List Piece :=
  match _h : Block.read? s with
  | some (b, rest) => .block b :: pieces rest
  | none =>
    match s with
    | [] => []
    | c :: s => .char c :: pieces s
termination_by s.length
decreasing_by
  · exact Block.length_lt_of_read? _h
  · simp

theorem pieces_nil : pieces [] = [] := by
  rw [pieces]
  rfl

theorem pieces_of_read? {s rest : Text} {b : Block} (h : Block.read? s = some (b, rest)) :
    pieces s = .block b :: pieces rest := by
  rw [pieces]
  split
  · rename_i b' rest' h'
    rw [h, Option.some.injEq, Prod.mk.injEq] at h'
    rw [h'.1, h'.2]
  · rename_i h'
    rw [h] at h'
    cases h'

theorem pieces_cons {c : Char} {s : Text} (h : Block.read? (c :: s) = none) :
    pieces (c :: s) = .char c :: pieces s := by
  rw [pieces]
  split
  · rename_i b' rest' h'
    rw [h] at h'
    cases h'
  · rfl

theorem textOf_pieces (s : Text) : Piece.textOf (pieces s) = s := by
  induction hn : s.length using Nat.strongRecOn generalizing s with
  | ind n ih =>
    cases h : Block.read? s with
    | some result =>
      obtain ⟨b, rest⟩ := result
      have hrest := ih rest.length (hn ▸ Block.length_lt_of_read? h) rest rfl
      rw [pieces_of_read? h]
      simp only [Piece.textOf, List.flatMap_cons, Piece.text] at hrest ⊢
      rw [hrest, ← Block.eq_append_of_read? h]
    | none =>
      cases s with
      | nil => simp [pieces_nil, Piece.textOf]
      | cons c s =>
        have hrest := ih s.length (by simp [← hn]) s rfl
        rw [pieces_cons h]
        simp only [Piece.textOf, List.flatMap_cons, Piece.text] at hrest ⊢
        rw [hrest]
        rfl

/-- The blocks of a prompt with their offsets, from left to right. -/
def occurrences (s : Text) : List Occurrence :=
  Piece.occurrences 0 s.pieces

end Text

end PromptDraw
