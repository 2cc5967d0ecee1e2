import PromptDraw.Text.Basic
import PromptDraw.Text.Printable

/-!
Quoted text: one line between double quotes in which every character without a
mark of its own, and every one that extends another, is written as an escape.
Lists of texts are written in brackets. Reports and log messages use this form.
-/

namespace PromptDraw

namespace Text

def ofNat (n : Nat) : Text := Nat.toDigits 10 n

def quotedChar (c : Char) : Text :=
  if c = '\x00' then ['\\', '0']
  else if c = '\t' then ['\\', 't']
  else if c = '\r' then ['\\', 'r']
  else if c = '\n' then ['\\', 'n']
  else if c = '"' then ['\\', '"']
  else if c = '\\' then ['\\', '\\']
  else if isExtending c || !isPrintable c then
    ['\\', 'u', '{'] ++ Nat.toDigits 16 c.toNat ++ ['}']
  else [c]

def quoted (s : Text) : Text :=
  ['"'] ++ s.flatMap quotedChar ++ ['"']

def quotedList (items : List Text) : Text :=
  ['['] ++ [',', ' '].intercalate (items.map quoted) ++ [']']

end Text

end PromptDraw
