import PromptDraw.Json

/-!
Reading JSON, with any layout between its parts. Numbers are natural numbers,
and a character beyond the basic plane cannot be given by number; null and the
other numbers are refused.
-/

namespace PromptDraw

namespace Json

def isLayout (c : Char) : Bool :=
  c == ' ' || c == '\n' || c == '\r' || c == '\t'

def skipLayout (s : Text) : Text := s.dropWhile isLayout

def hexDigit? (c : Char) : Option Nat :=
  if c.isDigit then some (c.toNat - '0'.toNat)
  else if 'a' ≤ c ∧ c ≤ 'f' then some (c.toNat - 'a'.toNat + 10)
  else if 'A' ≤ c ∧ c ≤ 'F' then some (c.toNat - 'A'.toNat + 10)
  else none

def codeUnit? (a b c d : Char) : Option Char := do
  let value := (((← hexDigit? a) * 16 + (← hexDigit? b)) * 16 + (← hexDigit? c)) * 16 + (← hexDigit? d)
  if h : value.isValidChar then return Char.ofNatAux value h else none

def shortEscape? (c : Char) : Option Char :=
  if c = '"' ∨ c = '\\' ∨ c = '/' then some c
  else if c = 'b' then some '\x08'
  else if c = 'f' then some '\x0c'
  else if c = 'n' then some '\n'
  else if c = 'r' then some '\r'
  else if c = 't' then some '\t'
  else none

/-- Reads a string behind its opening quote, and its closing quote. -/
def readString? : Text → Option (Text × Text)
  | [] => none
  | '"' :: s => some ([], s)
  | '\\' :: 'u' :: a :: b :: c :: d :: s => do
    let decoded ← codeUnit? a b c d
    let (text, rest) ← readString? s
    return (decoded :: text, rest)
  | '\\' :: c :: s => do
    let decoded ← shortEscape? c
    let (text, rest) ← readString? s
    return (decoded :: text, rest)
  | c :: s =>
    if c < ' ' then none
    else (readString? s).map fun (text, rest) => (c :: text, rest)

def readNumber? (s : Text) : Option (Nat × Text) :=
  let digits := s.takeWhile Char.isDigit
  if digits = [] ∨ (digits.head? = some '0' ∧ digits ≠ ['0']) then none
  else some (Nat.ofDigitChars 10 digits 0, s.dropWhile Char.isDigit)

def dropWord? (word s : Text) : Option Text :=
  if s.take word.length = word then some (s.drop word.length) else none

mutual

def readValue? : (fuel : Nat) → Text → Option (Json × Text)
  | 0, _ => none
  | fuel + 1, s =>
    match skipLayout s with
    | '"' :: s => (readString? s).map fun (text, rest) => (.string text, rest)
    | '[' :: s =>
      match skipLayout s with
      | ']' :: rest => some (.array [], rest)
      | s => (readItems? fuel s).map fun (items, rest) => (.array items, rest)
    | '{' :: s =>
      match skipLayout s with
      | '}' :: rest => some (.object [], rest)
      | s => (readEntries? fuel s).map fun (entries, rest) => (.object entries, rest)
    | 't' :: s => (dropWord? ['r', 'u', 'e'] s).map fun rest => (.bool true, rest)
    | 'f' :: s => (dropWord? ['a', 'l', 's', 'e'] s).map fun rest => (.bool false, rest)
    | s => (readNumber? s).map fun (value, rest) => (.number value, rest)

def readItems? : (fuel : Nat) → Text → Option (List Json × Text)
  | 0, _ => none
  | fuel + 1, s => do
    let (item, rest) ← readValue? fuel s
    match skipLayout rest with
    | ',' :: rest =>
      let (items, rest) ← readItems? fuel rest
      return (item :: items, rest)
    | ']' :: rest => return ([item], rest)
    | _ => none

def readEntries? : (fuel : Nat) → Text → Option (List (Text × Json) × Text)
  | 0, _ => none
  | fuel + 1, s => do
    match skipLayout s with
    | '"' :: s =>
      let (key, rest) ← readString? s
      match skipLayout rest with
      | ':' :: rest =>
        let (value, rest) ← readValue? fuel rest
        match skipLayout rest with
        | ',' :: rest =>
          let (entries, rest) ← readEntries? fuel rest
          return ((key, value) :: entries, rest)
        | '}' :: rest => return ([(key, value)], rest)
        | _ => none
      | _ => none
    | _ => none

end

def read? (s : Text) : Option Json := do
  let (value, rest) ← readValue? (s.length + 1) s
  if skipLayout rest = [] then return value else none

end Json

end PromptDraw
