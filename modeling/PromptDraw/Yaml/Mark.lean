import PromptDraw.Text.Basic

/-!
Places in a YAML document and the classes of characters that its structure
depends on. Five characters break lines; a carriage return directly before a
line feed breaks none of its own, so the two count as one break.
-/

namespace PromptDraw

namespace Yaml

/-- A place in a document, counted from zero: the bytes of UTF-8 before it, its
line, and the characters before it in that line. -/
structure Mark where
  offset : Nat
  line : Nat
  column : Nat
deriving DecidableEq, Repr

def isAllowed (c : Char) : Bool :=
  let n := c.toNat
  n == 0x9 || n == 0xA || n == 0xD || (0x20 ≤ n && n ≤ 0x7E) || n == 0x85 ||
    (0xA0 ≤ n && n ≤ 0xFFFD) || 0x10000 ≤ n

def byteOrderMark : Char := '\ufeff'

def isSpace (c : Char) : Bool :=
  c == ' ' || c == '\t'

def isBreak (c : Char) : Bool :=
  c == '\n' || c == '\r' || c == '\u0085' || c == '\u2028' || c == '\u2029'

/-- Whether a text is at its end or starts with a space, a tab or a break. -/
def endsWord : Text → Bool
  | [] => true
  | c :: _ => isSpace c || isBreak c

/-- What a break is read as: the two breaks that divide paragraphs and lines
stay, all others become line feeds. -/
def breakRead (c : Char) : Char :=
  if c = '\u2028' ∨ c = '\u2029' then c else '\n'

namespace Mark

def start : Mark := ⟨0, 0, 0⟩

/-- The place behind `c`, where `rest` follows it. -/
def after (mark : Mark) (c : Char) (rest : Text) : Mark :=
  if isBreak c then
    if c = '\r' ∧ rest.head? = some '\n' then { mark with offset := mark.offset + c.utf8Size }
    else ⟨mark.offset + c.utf8Size, mark.line + 1, 0⟩
  else ⟨mark.offset + c.utf8Size, mark.line, mark.column + 1⟩

/-- The place behind a text that breaks no line. -/
def along (mark : Mark) (s : Text) : Mark :=
  ⟨mark.offset + s.utf8Size, mark.line, mark.column + s.length⟩

end Mark

/-- Whether a line starts with three of the character `c` standing alone. -/
def markerOf (c : Char) (mark : Mark) (s : Text) : Bool :=
  mark.column == 0 && s.take 3 == [c, c, c] && endsWord (s.drop 3)

/-- Whether a marker for the start or the end of a document stands here. -/
def atMarker (mark : Mark) (s : Text) : Bool :=
  markerOf '-' mark s || markerOf '.' mark s

end Yaml

end PromptDraw
