import PromptDraw.Text.Basic

/-!
Text without what a terminal obeys instead of showing: control characters and
the control sequences that an escape character starts. What follows the escape
character decides where the sequence ends; a cancel or substitute character ends
any sequence, another escape character starts a new one.
-/

namespace PromptDraw

inductive ControlSequence where
  | escape
  /-- Behind the intermediate characters that follow an escape character. -/
  | designation
  /-- Behind `[`, up to a letter. -/
  | parameters
  /-- Behind `]`, up to a bell. -/
  | command
  /-- Behind `P`. -/
  | device
  /-- In the parameters behind `P`. -/
  | deviceParameters
  /-- Behind the intermediate characters of a sequence that `P` starts. -/
  | deviceDesignation
  /-- In a string of characters for the terminal. -/
  | string
deriving DecidableEq, Repr

namespace ControlSequence

/-- The byte that ends a string. In UTF-8 it can only be a part of a character,
and ends the string there too. -/
def stringEnd : UInt8 := 0x9c

/-- The sequence behind one more character, if it has not ended there. -/
def next? (sequence : ControlSequence) (c : Char) : Option ControlSequence :=
  match sequence with
  | escape =>
    if c = 'P' then some device
    else if c = '[' then some parameters
    else if c = ']' then some command
    else if c = 'X' ∨ c = '^' ∨ c = '_' then some string
    else if ' ' ≤ c ∧ c ≤ '/' then some designation
    else if '0' ≤ c ∧ c ≤ '~' then none
    else some escape
  | designation => if '0' ≤ c ∧ c ≤ '~' then none else some designation
  | parameters => if '@' ≤ c ∧ c ≤ '~' then none else some parameters
  | command => if c = '\x07' then none else some command
  | device =>
    if ' ' ≤ c ∧ c ≤ '/' then some deviceDesignation
    else if '0' ≤ c ∧ c ≤ '?' then some deviceParameters
    else if '@' ≤ c ∧ c ≤ '~' then some string
    else some device
  | deviceParameters =>
    if ' ' ≤ c ∧ c ≤ '/' then some deviceDesignation
    else if '<' ≤ c ∧ c ≤ '~' then some string
    else some deviceParameters
  | deviceDesignation => if '0' ≤ c ∧ c ≤ '~' then some string else some deviceDesignation
  | string => if stringEnd ∈ String.utf8EncodeChar c then none else some string

/-- The sequences that give way to layout characters before they have ended. -/
def yields : ControlSequence → Bool
  | escape | designation | parameters => true
  | _ => false

end ControlSequence

namespace Text

/-- The control characters that move the place of writing and stay in a text. -/
def isMotion (c : Char) : Bool :=
  c == '\t' || c == '\n' || c == '\x0c' || c == '\r'

def isShown (c : Char) : Bool :=
  isMotion c || (' ' ≤ c && c != '\x7f')

/-- What is shown of a text of which a part of a control sequence may have been
read. Where `yielded` holds, the sequence has given way: characters are shown up
to the next control character, at which it goes on unless a character outside of
ASCII has been shown in between. -/
def shown (sequence : Option ControlSequence) (yielded : Bool) : Text → Text
  | [] => []
  | c :: s =>
    if isShown c && (sequence.isNone || yielded) then
      c :: shown (if c ≤ '\x7f' then sequence else none) yielded s
    else if c = '\x1b' then shown (some .escape) false s
    else if c = '\x18' ∨ c = '\x1a' then shown none false s
    else if isMotion c && sequence.any (·.yields) then c :: shown sequence true s
    else shown (sequence.bind (·.next? c)) false s

def withoutControls (s : Text) : Text :=
  s.shown none false

end Text

end PromptDraw
