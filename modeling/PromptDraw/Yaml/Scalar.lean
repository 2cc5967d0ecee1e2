import PromptDraw.Yaml.Mark
import PromptDraw.Yaml.Numeral

/-!
Reading scalars that may run over several lines: plain ones and quoted ones. A
single line break inside a scalar becomes a space, and of several breaks in a
row the first is dropped. The readers give nothing where the document is
malformed.
-/

namespace PromptDraw

namespace Yaml

/-- The spaces and breaks between two words of a scalar. -/
structure Gap where
  /-- The spaces before the first break, the last one first. -/
  spaces : Text
  broken : Bool
  /-- The first break as it is read, unless it is escaped. -/
  first : Option Char
  /-- The breaks after the first as they are read, the last one first. -/
  more : Text
deriving DecidableEq, Repr

namespace Gap

def none : Gap := ⟨[], false, .none, []⟩

def joined : Gap := ⟨[], true, .none, []⟩

def text (gap : Gap) : Text :=
  if gap.broken then
    if gap.first = some '\n' then (if gap.more = [] then [' '] else gap.more.reverse)
    else gap.first.toList ++ gap.more.reverse
  else gap.spaces.reverse

def addBreak (gap : Gap) (c : Char) : Gap :=
  if gap.broken then { gap with more := breakRead c :: gap.more }
  else ⟨[], true, some (breakRead c), []⟩

/-- Reads spaces and breaks. A tab that would indent a line to less than
`indent` columns is refused. -/
def read? (indent : Nat) (gap : Gap) (mark : Mark) : Text → Option (Gap × Mark × Text)
  | [] => some (gap, mark, [])
  | c :: s =>
    if isSpace c then
      if gap.broken ∧ c = '\t' ∧ mark.column < indent then .none
      else
        read? indent (if gap.broken then gap else { gap with spaces := c :: gap.spaces })
          (mark.after c s) s
    else if isBreak c then
      if c = '\r' ∧ s.head? = some '\n' then read? indent gap (mark.after c s) s
      else read? indent (gap.addBreak c) (mark.after c s) s
    else some (gap, mark, c :: s)

end Gap

/-- The characters that end a plain scalar inside a flow collection. -/
def isFlowMark (c : Char) : Bool :=
  c == ',' || c == '[' || c == ']' || c == '{' || c == '}'

/-- Reads a word of a plain scalar. It ends before a space or a break, before a
colon that ends a word, and inside a flow collection before the collection's own
marks. -/
def plainWord? (flow : Bool) : Text → Option (Text × Text)
  | [] => some ([], [])
  | c :: s =>
    if isSpace c || isBreak c then some ([], c :: s)
    else if flow && c == ':' && s.head?.any (fun d => isFlowMark d || d == '?') then none
    else if (c == ':' && endsWord s) || (flow && isFlowMark c) then some ([], c :: s)
    else (plainWord? flow s).map fun (word, rest) => (c :: word, rest)

/-- A scalar as read: its text, whether a line break was read after its last
word, and what is left. -/
structure ReadScalar where
  text : Text
  broken : Bool
  mark : Mark
  rest : Text

/-- Reads a plain scalar, whose lines after the first are indented to at least
`indent` columns outside flow collections. -/
def plain? (flow : Bool) (indent : Nat) : (fuel : Nat) → Gap → Mark → Text → Option ReadScalar
  | 0, _, _, _ => none
  | fuel + 1, gap, mark, s =>
    if atMarker mark s || s.head? == some '#' then some ⟨[], gap.broken, mark, s⟩
    else do
      let (word, rest) ← plainWord? flow s
      let text := if word = [] then [] else gap.text ++ word
      let gap := if word = [] then gap else Gap.none
      let mark := mark.along word
      if rest = [] || !endsWord rest then return ⟨text, gap.broken, mark, rest⟩
      let (gap, mark, rest) ← gap.read? indent mark rest
      if !flow && mark.column < indent then return ⟨text, gap.broken, mark, rest⟩
      let more ← plain? flow indent fuel gap mark rest
      return { more with text := text ++ more.text }

/-- The character of a given number, written with `width` hexadecimal digits. -/
def codePoint? (width : Nat) (s : Text) : Option Char := do
  if s.length < width then none
  let value ← Numeral.ofDigits? 16 (s.take width)
  if h : value.isValidChar then return Char.ofNatAux value h else none

/-- Decodes what follows a backslash between double quotes: the character and
the number of characters read. -/
def escape? : Text → Option (Char × Nat)
  | [] => none
  | c :: s =>
    match c with
    | '0' => some ('\x00', 1)
    | 'a' => some ('\x07', 1)
    | 'b' => some ('\x08', 1)
    | 't' | '\t' => some ('\t', 1)
    | 'n' => some ('\n', 1)
    | 'v' => some ('\x0b', 1)
    | 'f' => some ('\x0c', 1)
    | 'r' => some ('\r', 1)
    | 'e' => some ('\x1b', 1)
    | ' ' | '"' | '/' | '\\' => some (c, 1)
    | 'N' => some ('\u0085', 1)
    | '_' => some ('\u00a0', 1)
    | 'L' => some ('\u2028', 1)
    | 'P' => some ('\u2029', 1)
    | 'x' => (codePoint? 2 s).map (·, 3)
    | 'u' => (codePoint? 4 s).map (·, 5)
    | 'U' => (codePoint? 8 s).map (·, 9)
    | _ => none

/-- Reads a word of a quoted scalar. It ends before a space, a break or the
closing quote, or behind an escaped line break. -/
def quotedWord? (quote : Char) : (fuel : Nat) → Mark → Text → Option ReadScalar
  | 0, _, _ => none
  | _ + 1, mark, [] => some ⟨[], false, mark, []⟩
  | fuel + 1, mark, c :: s =>
    if isSpace c || isBreak c then some ⟨[], false, mark, c :: s⟩
    else if c = quote then
      if c = '\'' ∧ s.head? = some '\'' then
        (quotedWord? quote fuel (mark.along [c, c]) (s.drop 1)).map fun more =>
          { more with text := c :: more.text }
      else some ⟨[], false, mark, c :: s⟩
    else if quote = '"' ∧ c = '\\' then
      match s with
      | [] => none
      | d :: t =>
        if isBreak d then
          if d = '\r' ∧ t.head? = some '\n' then
            some ⟨[], true, ((mark.along [c]).after d t).after '\n' (t.drop 1), t.drop 1⟩
          else some ⟨[], true, (mark.along [c]).after d t, t⟩
        else do
          let (decoded, width) ← escape? (d :: t)
          let more ← quotedWord? quote fuel (mark.along (c :: (d :: t).take width))
            ((d :: t).drop width)
          return { more with text := decoded :: more.text }
    else
      (quotedWord? quote fuel (mark.along [c]) s).map fun more =>
        { more with text := c :: more.text }

def quoted? (quote : Char) : (fuel : Nat) → Mark → Text → Option ReadScalar
  | 0, _, _ => none
  | fuel + 1, mark, s => do
    if atMarker mark s || s = [] then none
    let word ← quotedWord? quote (fuel + 1) mark s
    if word.rest.head? = some quote then
      return ⟨word.text, false, word.mark.along [quote], word.rest.drop 1⟩
    let gap := if word.broken then Gap.joined else Gap.none
    let (gap, mark, rest) ← gap.read? 0 word.mark word.rest
    let more ← quoted? quote fuel mark rest
    return { more with text := word.text ++ gap.text ++ more.text }

end Yaml

end PromptDraw
