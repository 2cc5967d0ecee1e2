import PromptDraw.Yaml.Scalar

/-!
The tokens of a YAML document. Nesting by indentation is made explicit by start
and end tokens. That a scalar or a flow collection is a key becomes known only
at the colon behind it, so while tokens are read the last place where a key may
have started is kept as a `Candidate`, one for each level of flow collections,
and the tokens of the key are put in front of it once the colon is met.

Aliases, anchors, tags, directives, block scalars and keys behind a question
mark are refused.
-/

namespace PromptDraw

namespace Yaml

inductive Token where
  | documentStart
  | documentEnd
  | blockSequenceStart
  | blockMappingStart
  | blockEnd
  | flowSequenceStart
  | flowSequenceEnd
  | flowMappingStart
  | flowMappingEnd
  | blockEntry
  | flowEntry
  | key
  | value
  | scalar (plain : Bool) (text : Text)
deriving DecidableEq, Repr

/-- A place where a key may have started. -/
structure Candidate where
  /-- The number of tokens before it. -/
  position : Nat
  mark : Mark
  /-- Whether the indentation allows nothing but a key here. -/
  required : Bool
deriving DecidableEq, Repr

def maxKeyLength : Nat := 1024

/-- Drops a candidate that a colon at `mark` could no longer turn into a key.
Gives nothing if a key is required there. -/
def Candidate.refresh? (mark : Mark) : Option Candidate → Option (Option Candidate)
  | none => some none
  | some candidate =>
    if candidate.mark.line < mark.line ∨ candidate.mark.offset + maxKeyLength < mark.offset then
      if candidate.required then none else some none
    else some (some candidate)

structure Lexer where
  /-- More than the number of characters that are left. -/
  bound : Nat
  rest : Text
  mark : Mark
  /-- The columns of the open block collections, the innermost first. -/
  indents : List Nat
  keyAllowed : Bool
  candidate : Option Candidate
  /-- The candidates of the levels around the innermost flow collection. -/
  outer : List (Option Candidate)
  tokens : Array Token

namespace Lexer

def ofText (s : Text) : Lexer :=
  ⟨s.length + 1, s, .start, [], true, none, [], #[]⟩

def inFlow (l : Lexer) : Bool := !l.outer.isEmpty

/-- The least column of the lines that continue a scalar. -/
def scalarIndent (l : Lexer) : Nat :=
  match l.indents with
  | [] => 0
  | column :: _ => column + 1

def emit (l : Lexer) (token : Token) : Lexer :=
  { l with tokens := l.tokens.push token }

def insert (l : Lexer) (position : Nat) (token : Token) : Lexer :=
  { l with tokens := l.tokens.insertIdxIfInBounds position token }

/-- Passes over `n` characters that break no line. -/
def skip (l : Lexer) (n : Nat) : Lexer :=
  { l with rest := l.rest.drop n, mark := l.mark.along (l.rest.take n) }

/-- Closes the block collections whose column is not below `limit`. Nothing is
closed inside a flow collection. -/
def close (l : Lexer) (limit : Nat) : Lexer :=
  if l.inFlow then l
  else
    { l with
      indents := l.indents.dropWhile (limit ≤ ·)
      tokens := l.tokens ++ (l.indents.takeWhile (limit ≤ ·)).map fun _ => Token.blockEnd }

/-- Opens a block collection at a column that is deeper than all open ones, with
its start token at a position. -/
def openAt (l : Lexer) (column position : Nat) (token : Token) : Lexer :=
  if l.inFlow then l
  else if l.indents.head?.all (· < column) then
    { l.insert position token with indents := column :: l.indents }
  else l

/-- Gives the candidate of the innermost level up. -/
def dropKey? (l : Lexer) : Option Lexer :=
  if l.candidate.any (·.required) then none
  else some { l with candidate := none }

/-- Makes this place the candidate of the innermost level, if a key may start
here. -/
def saveKey? (l : Lexer) : Option Lexer :=
  if l.keyAllowed then do
    let l ← l.dropKey?
    let required := !l.inFlow && l.indents.head? == some l.mark.column
    return { l with candidate := some ⟨l.tokens.size, l.mark, required⟩ }
  else some l

/-- Passes over spaces, comments, breaks and a byte order mark in front of a
line. Tabs are passed over only where no key may start. Outside flow collections
a key may start behind a break. -/
def skipBlank (flow comment keyAllowed : Bool) (mark : Mark) : Text → Bool × Mark × Text
  | [] => (keyAllowed, mark, [])
  | c :: s =>
    if isBreak c then skipBlank flow false (keyAllowed || !flow) (mark.after c s) s
    else if mark.column = 0 ∧ c = byteOrderMark then
      skipBlank flow comment keyAllowed (mark.after c s) s
    else if comment || c == ' ' || ((flow || !keyAllowed) && c == '\t') then
      skipBlank flow comment keyAllowed (mark.after c s) s
    else if c = '#' then skipBlank flow true keyAllowed (mark.after c s) s
    else (keyAllowed, mark, c :: s)

/-- Goes to the start of the next token: passes over what stands before it,
drops the innermost candidate if it is too far back and closes the block
collections that its column ends. An outer candidate that is too far back is
dropped when it has become the innermost one. -/
def advance? (l : Lexer) : Option Lexer := do
  let (keyAllowed, mark, rest) := skipBlank l.inFlow false l.keyAllowed l.mark l.rest
  let candidate ← Candidate.refresh? mark l.candidate
  let l := { l with rest, mark, keyAllowed, candidate }
  return l.close (mark.column + 1)

def marker? (l : Lexer) (token : Token) : Option Lexer := do
  let l ← (l.close 0).dropKey?
  return { (l.skip 3).emit token with keyAllowed := false }

def flowStart? (l : Lexer) (token : Token) : Option Lexer := do
  let l ← l.saveKey?
  let l := { l with outer := l.candidate :: l.outer, candidate := none, keyAllowed := true }
  return (l.skip 1).emit token

def flowEnd? (l : Lexer) (token : Token) : Option Lexer := do
  let l ← l.dropKey?
  let (candidate, outer) :=
    match l.outer with
    | [] => (l.candidate, [])
    | candidate :: outer => (candidate, outer)
  return { (l.skip 1).emit token with candidate, outer, keyAllowed := false }

def flowEntry? (l : Lexer) : Option Lexer := do
  let l ← l.dropKey?
  return { (l.skip 1).emit .flowEntry with keyAllowed := true }

def blockEntry? (l : Lexer) : Option Lexer := do
  if !l.inFlow && !l.keyAllowed then none
  let l ← (l.openAt l.mark.column l.tokens.size .blockSequenceStart).dropKey?
  return { (l.skip 1).emit .blockEntry with keyAllowed := true }

/-- A colon: the value of the candidate if there is one. -/
def value? (l : Lexer) : Option Lexer :=
  match l.candidate with
  | some candidate =>
    let l := (l.insert candidate.position .key).openAt candidate.mark.column candidate.position
      .blockMappingStart
    some { (l.skip 1).emit .value with candidate := none, keyAllowed := false }
  | none =>
    if l.inFlow then some { (l.skip 1).emit .value with keyAllowed := false }
    else if l.keyAllowed then
      let l := l.openAt l.mark.column l.tokens.size .blockMappingStart
      some { (l.skip 1).emit .value with keyAllowed := true }
    else none

def quoted? (l : Lexer) (quote : Char) : Option Lexer := do
  let l ← l.saveKey?
  let scalar ← Yaml.quoted? quote l.bound (l.mark.along [quote]) (l.rest.drop 1)
  return { l.emit (.scalar false scalar.text) with
    rest := scalar.rest, mark := scalar.mark, keyAllowed := false }

def plain? (l : Lexer) : Option Lexer := do
  let l ← l.saveKey?
  let scalar ← Yaml.plain? l.inFlow l.scalarIndent l.bound Gap.none l.mark l.rest
  return { l.emit (.scalar true scalar.text) with
    rest := scalar.rest, mark := scalar.mark, keyAllowed := scalar.broken }

/-- The characters that no plain scalar starts with, unless a rule says
otherwise. -/
def indicators : List Char :=
  ['-', '?', ':', ',', '[', ']', '{', '}', '#', '&', '*', '!', '|', '>', '\'', '"', '%', '@', '`']

def startsPlain (flow : Bool) (c : Char) (rest : Text) : Bool :=
  (!isSpace c && !isBreak c && !indicators.contains c) ||
    (c == '-' && !(rest.head?.any isSpace)) ||
    (!flow && (c == '?' || c == ':') && !endsWord rest)

def token? (l : Lexer) : Option Lexer :=
  match l.rest with
  | [] => none
  | c :: s =>
    if l.mark.column = 0 ∧ c = '%' then none
    else if markerOf '-' l.mark l.rest then l.marker? .documentStart
    else if markerOf '.' l.mark l.rest then l.marker? .documentEnd
    else if c = '[' then l.flowStart? .flowSequenceStart
    else if c = '{' then l.flowStart? .flowMappingStart
    else if c = ']' then l.flowEnd? .flowSequenceEnd
    else if c = '}' then l.flowEnd? .flowMappingEnd
    else if c = ',' then l.flowEntry?
    else if c = '-' ∧ endsWord s then l.blockEntry?
    else if c = '?' ∧ (l.inFlow ∨ endsWord s) then none
    else if c = ':' ∧ (l.inFlow ∨ endsWord s) then l.value?
    else if c = '\'' ∨ c = '"' then l.quoted? c
    else if startsPlain l.inFlow c s then l.plain?
    else none

def run? : (fuel : Nat) → Lexer → Option (List Token)
  | 0, _ => none
  | fuel + 1, l => do
    let l ← l.advance?
    if l.rest = [] then
      let l ← (l.close 0).dropKey?
      return l.tokens.toList
    let l ← l.token?
    run? fuel l

end Lexer

/-- The tokens of a document, or nothing if it is malformed. -/
def tokens? (s : Text) : Option (List Token) :=
  if s.all isAllowed then (Lexer.ofText s).run? (s.length + 1) else none

end Yaml

end PromptDraw
