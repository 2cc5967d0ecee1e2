import PromptDraw.Text.Quoted

/-!
JSON values and their two written forms: compact, all on one line, and pretty,
with one entry on each line and two spaces for each level of nesting.
-/

namespace PromptDraw

/-- A JSON value. The entries of an object are written in the order given. -/
inductive Json where
  | bool (value : Bool)
  | number (value : Nat)
  | string (value : Text)
  | array (items : List Json)
  | object (entries : List (Text × Json))

namespace Json

def stringChar (c : Char) : Text :=
  if c = '"' then ['\\', '"']
  else if c = '\\' then ['\\', '\\']
  else if c = '\x08' then ['\\', 'b']
  else if c = '\x0c' then ['\\', 'f']
  else if c = '\n' then ['\\', 'n']
  else if c = '\r' then ['\\', 'r']
  else if c = '\t' then ['\\', 't']
  else if c < ' ' then
    ['\\', 'u', '0', '0', Nat.digitChar (c.toNat / 16), Nat.digitChar (c.toNat % 16)]
  else [c]

def stringText (s : Text) : Text :=
  ['"'] ++ s.flatMap stringChar ++ ['"']

def boolText (value : Bool) : Text :=
  if value then "true".toList else "false".toList

mutual

def compact : Json → Text
  | bool value => boolText value
  | number value => Text.ofNat value
  | string value => stringText value
  | array items => ['['] ++ compactItems items ++ [']']
  | object entries => ['{'] ++ compactEntries entries ++ ['}']

def compactItems : List Json → Text
  | [] => []
  | [item] => item.compact
  | item :: rest => item.compact ++ [','] ++ compactItems rest

def compactEntries : List (Text × Json) → Text
  | [] => []
  | [(key, value)] => stringText key ++ [':'] ++ value.compact
  | (key, value) :: rest =>
    stringText key ++ [':'] ++ value.compact ++ [','] ++ compactEntries rest

end

def newline (level : Nat) : Text :=
  '\n' :: List.replicate (2 * level) ' '

mutual

def pretty (level : Nat) : Json → Text
  | bool value => boolText value
  | number value => Text.ofNat value
  | string value => stringText value
  | array [] => ['[', ']']
  | array items => ['['] ++ prettyItems (level + 1) items ++ newline level ++ [']']
  | object [] => ['{', '}']
  | object entries => ['{'] ++ prettyEntries (level + 1) entries ++ newline level ++ ['}']

def prettyItems (level : Nat) : List Json → Text
  | [] => []
  | [item] => newline level ++ item.pretty level
  | item :: rest => newline level ++ item.pretty level ++ [','] ++ prettyItems level rest

def prettyEntries (level : Nat) : List (Text × Json) → Text
  | [] => []
  | [(key, value)] => newline level ++ stringText key ++ [':', ' '] ++ value.pretty level
  | (key, value) :: rest =>
    newline level ++ stringText key ++ [':', ' '] ++ value.pretty level ++ [','] ++
      prettyEntries level rest

end

end Json

end PromptDraw
